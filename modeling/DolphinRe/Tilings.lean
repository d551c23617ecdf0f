import Mathlib.Data.List.Pairwise
import Mathlib.Tactic.Common

/-!
# Tilings of an interval

Cells of positive length stand one behind the other and cover an interval of
the natural numbers. A place belongs to at most one cell, the cells stand in
the order of their starts, and asking for the cell at the end of one that is
known gives the next.
-/

namespace DolphinRe.Tilings

/-- A part of an interval, with something said about it. -/
structure Cell (κ : Type) where
  /-- Where it starts. -/
  start : ℕ
  /-- How long it is. -/
  length : ℕ
  /-- What is said about it. -/
  kind : κ
  deriving DecidableEq, Repr

variable {κ : Type} {cell : Cell κ} {cells before after : List (Cell κ)} {a b x : ℕ}

/-- The first place behind a cell. -/
def Cell.finish (cell : Cell κ) : ℕ := cell.start + cell.length

/-- Whether a place belongs to a cell. -/
def Cell.holds (cell : Cell κ) (x : ℕ) : Bool := decide (cell.start ≤ x ∧ x < cell.finish)

/-- The cell of a place. -/
def cellAt (cells : List (Cell κ)) (x : ℕ) : Option (Cell κ) := cells.find? fun cell => cell.holds x

/-- Cells cover an interval, one behind the other. -/
def Tiles : ℕ → List (Cell κ) → ℕ → Prop
  | a, [], b => a = b
  | a, cell :: cells, b => cell.start = a ∧ 0 < cell.length ∧ Tiles cell.finish cells b

/-- A tiling can be cut between two cells. -/
theorem tiles_append : Tiles a (before ++ after) b ↔ ∃ m, Tiles a before m ∧ Tiles m after b := by
  induction before generalizing a with
  | nil =>
    constructor
    · intro h
      exact ⟨a, rfl, h⟩
    · intro h
      obtain ⟨m, rfl, hafter⟩ := h
      exact hafter
  | cons cell before ih =>
    constructor
    · intro h
      obtain ⟨hstart, hpos, hrest⟩ := h
      obtain ⟨m, hbefore, hafter⟩ := ih.mp hrest
      exact ⟨m, ⟨hstart, hpos, hbefore⟩, hafter⟩
    · intro h
      obtain ⟨m, ⟨hstart, hpos, hbefore⟩, hafter⟩ := h
      exact ⟨hstart, hpos, ih.mpr ⟨m, hbefore, hafter⟩⟩

/-- Cells lie inside the interval, and none is empty. -/
theorem Tiles.within (h : Tiles a cells b) :
    a ≤ b ∧ ∀ cell ∈ cells, a ≤ cell.start ∧ cell.start < cell.finish ∧ cell.finish ≤ b := by
  induction cells generalizing a with
  | nil =>
    have heq : a = b := h
    exact ⟨Nat.le_of_eq heq, fun cell hcell => absurd hcell List.not_mem_nil⟩
  | cons first cells ih =>
    obtain ⟨hstart, hpos, hrest⟩ := h
    obtain ⟨hle, hinside⟩ := ih hrest
    have hfinish : first.finish = first.start + first.length := rfl
    refine ⟨by omega, fun cell hcell => ?_⟩
    rcases List.mem_cons.mp hcell with heq | hlater
    · rw [heq]
      omega
    · have hin := hinside cell hlater
      omega

/-- Cells stand one behind the other. -/
theorem Tiles.ordered (h : Tiles a cells b) : cells.Pairwise fun first second => first.finish ≤ second.start := by
  induction cells generalizing a with
  | nil => exact List.Pairwise.nil
  | cons first cells ih =>
    obtain ⟨-, -, hrest⟩ := h
    exact List.Pairwise.cons (fun second hsecond => (hrest.within.2 second hsecond).1) (ih hrest)

/-- Of two cells one stands behind the other. -/
theorem Tiles.apart (h : Tiles a cells b) {first second : Cell κ} (hfirst : first ∈ cells) (hsecond : second ∈ cells)
    (hne : first ≠ second) : first.finish ≤ second.start ∨ second.finish ≤ first.start := by
  have hpairs : cells.Pairwise fun c d => c.finish ≤ d.start ∨ d.finish ≤ c.start :=
    h.ordered.imp fun hle => Or.inl hle
  have hsymm : Std.Symm fun c d : Cell κ => c.finish ≤ d.start ∨ d.finish ≤ c.start := ⟨fun c d hcd => hcd.symm⟩
  exact hpairs.forall hfirst hsecond hne

/-- The cell at a start. -/
theorem Tiles.cellAt_start (h : Tiles a (before ++ cell :: after) b) :
    cellAt (before ++ cell :: after) cell.start = some cell := by
  obtain ⟨m, hbefore, hstart, hpos, -⟩ := tiles_append.mp h
  have hnone : before.find? (fun c => c.holds cell.start) = none := by
    refine List.find?_eq_none.mpr fun c hc => ?_
    have hin := hbefore.within.2 c hc
    unfold Cell.holds
    simp only [decide_eq_true_eq]
    omega
  have hholds : cell.holds cell.start = true := by
    unfold Cell.holds Cell.finish
    simp only [decide_eq_true_eq]
    omega
  unfold cellAt
  rw [List.find?_append, hnone, Option.none_or]
  exact List.find?_cons_of_pos hholds

/-- Behind the last cell there is none. -/
theorem Tiles.cellAt_end (h : Tiles a cells b) (hx : b ≤ x) : cellAt cells x = none := by
  refine List.find?_eq_none.mpr fun c hc => ?_
  have hin := h.within.2 c hc
  unfold Cell.holds
  simp only [decide_eq_true_eq]
  omega

/-- The first cell of a kind is the lowest. -/
theorem Tiles.find_iff (h : Tiles a cells b) (p : Cell κ → Bool) :
    cells.find? p = some cell ↔ cell ∈ cells ∧ p cell = true ∧ ∀ other ∈ cells, p other = true → cell.start ≤ other.start := by
  induction cells generalizing a with
  | nil =>
    constructor
    · intro hfound
      cases hfound
    · intro hfound
      exact absurd hfound.1 List.not_mem_nil
  | cons first cells ih =>
    obtain ⟨hstart, hpos, hrest⟩ := h
    have hbehind := hrest.within.2
    have hfinish : first.finish = first.start + first.length := rfl
    cases hp : p first with
    | true =>
      rw [List.find?_cons_of_pos hp]
      constructor
      · intro hfound
        rw [← Option.some.inj hfound]
        refine ⟨List.mem_cons_self, hp, fun other hother _ => ?_⟩
        rcases List.mem_cons.mp hother with heq | hlater
        · exact Nat.le_of_eq (congrArg Cell.start heq.symm)
        · have hin := hbehind other hlater
          omega
      · intro hfound
        obtain ⟨hmem, -, hlowest⟩ := hfound
        have hle := hlowest first List.mem_cons_self hp
        rcases List.mem_cons.mp hmem with heq | hlater
        · rw [heq]
        · have hin := hbehind cell hlater
          omega
    | false =>
      rw [List.find?_cons_of_neg (by rw [hp]; exact Bool.false_ne_true), ih hrest]
      constructor
      · intro hfound
        obtain ⟨hmem, hcell, hlowest⟩ := hfound
        refine ⟨List.mem_cons_of_mem first hmem, hcell, fun other hother hkind => ?_⟩
        rcases List.mem_cons.mp hother with heq | hlater
        · rw [heq, hp] at hkind
          cases hkind
        · exact hlowest other hlater hkind
      · intro hfound
        obtain ⟨hmem, hcell, hlowest⟩ := hfound
        refine ⟨?_, hcell, fun other hother => hlowest other (List.mem_cons_of_mem first hother)⟩
        rcases List.mem_cons.mp hmem with heq | hlater
        · rw [heq, hp] at hcell
          cases hcell
        · exact hlater

end DolphinRe.Tilings
