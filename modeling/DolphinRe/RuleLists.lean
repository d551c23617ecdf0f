import Mathlib.Data.List.Perm.Basic
import Mathlib.Tactic.Basic

/-!
# Rules tried in order

A list of rules answers with the kind of the first rule that applies. Where the
rules that apply to an input all name one kind, their order does not matter.
-/

namespace DolphinRe.RuleLists

variable {α κ : Type}

/-- A rule: the inputs it applies to, and what it answers. -/
structure Rule (α κ : Type) where
  /-- The inputs it applies to. -/
  applies : α → Bool
  /-- What it answers. -/
  kind : κ

/-- The answer of the first rule that applies. -/
def firstMatch (rules : List (Rule α κ)) (a : α) : Option κ :=
  (rules.find? fun rule => rule.applies a).map Rule.kind

theorem firstMatch_cons (rule : Rule α κ) (rules : List (Rule α κ)) (a : α) :
    firstMatch (rule :: rules) a = if rule.applies a then some rule.kind else firstMatch rules a := by
  unfold firstMatch
  rw [List.find?_cons]
  cases rule.applies a with
  | true => rfl
  | false => rfl

/-- Answers are kinds of rules. -/
theorem mem_of_firstMatch {rules : List (Rule α κ)} {a : α} {k : κ} (h : firstMatch rules a = some k) :
    k ∈ rules.map Rule.kind := by
  obtain ⟨rule, hfound, hkind⟩ := Option.map_eq_some_iff.mp h
  rw [← hkind]
  exact List.mem_map_of_mem (List.mem_of_find?_eq_some hfound)

/-- Some rule applies to the input, and every rule that does names this kind. -/
structure Settled (rules : List (Rule α κ)) (a : α) (k : κ) : Prop where
  /-- Some rule applies. -/
  covered : ∃ rule ∈ rules, rule.applies a = true
  /-- All rules that apply answer the same. -/
  agreed : ∀ rule ∈ rules, rule.applies a = true → rule.kind = k

variable {rules order : List (Rule α κ)} {a : α} {k : κ}

/-- What is settled is answered. -/
theorem Settled.firstMatch_eq (h : Settled rules a k) : firstMatch rules a = some k := by
  obtain ⟨rule, hrule, happlies⟩ := h.covered
  cases hfind : rules.find? fun rule => rule.applies a with
  | none =>
    rw [List.find?_eq_none] at hfind
    exact absurd happlies (hfind rule hrule)
  | some found =>
    have hfound : found.applies a = true := by simpa using List.find?_some hfind
    have hkind := h.agreed found (List.mem_of_find?_eq_some hfind) hfound
    unfold firstMatch
    rw [hfind, Option.map_some, hkind]

/-- Whether an input is settled does not depend on the order of the rules. -/
theorem Settled.perm (h : Settled rules a k) (hperm : order.Perm rules) : Settled order a k := by
  obtain ⟨rule, hrule, happlies⟩ := h.covered
  exact ⟨⟨rule, hperm.mem_iff.mpr hrule, happlies⟩,
    fun other hother => h.agreed other (hperm.mem_iff.mp hother)⟩

end DolphinRe.RuleLists
