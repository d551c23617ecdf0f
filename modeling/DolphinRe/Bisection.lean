import Mathlib.Data.List.Sort
import Mathlib.Tactic.Basic

/-!
# Bisection and stable sorting

`bisect_right` splits a sorted list behind the last element that is at most the
key, whatever duplicates it holds. A stable sort leaves elements that compare
equal in the order in which they came.
-/

namespace DolphinRe.Bisection

section Search

variable {α : Type} [LinearOrder α]

/-- The halving loop; it needs one turn for each element of the interval at most. -/
def bisectLoop (xs : List α) (x : α) : ℕ → ℕ → ℕ → ℕ
  | 0, lo, _ => lo
  | fuel + 1, lo, hi =>
    if lo < hi then
      let mid := (lo + hi) / 2
      match xs[mid]? with
      | some y => if x < y then bisectLoop xs x fuel lo mid else bisectLoop xs x fuel (mid + 1) hi
      -- not reached: `hi` is never beyond the end
      | none => lo
    else lo

/-- `bisect.bisect_right(xs, x)`. -/
def bisectRight (xs : List α) (x : α) : ℕ := bisectLoop xs x xs.length 0 xs.length

/-- Everything in front of the cut is at most the key, everything behind is greater. -/
structure IsCut (xs : List α) (x : α) (i : ℕ) : Prop where
  /-- The cut lies within the list. -/
  inside : i ≤ xs.length
  /-- What stands in front of it is at most the key. -/
  front : ∀ y ∈ xs.take i, y ≤ x
  /-- What stands behind it is greater. -/
  back : ∀ y ∈ xs.drop i, x < y

/-- The interval still holds the cut. -/
structure Bracket (xs : List α) (x : α) (lo hi : ℕ) : Prop where
  /-- The interval has not been passed. -/
  ordered : lo ≤ hi
  /-- It lies within the list. -/
  inside : hi ≤ xs.length
  /-- What stands in front of it is at most the key. -/
  front : ∀ y ∈ xs.take lo, y ≤ x
  /-- What stands behind it is greater. -/
  back : ∀ y ∈ xs.drop hi, x < y

variable {xs : List α} {x : α} {lo hi : ℕ}

omit [LinearOrder α] in
theorem split_at {i : ℕ} {y : α} (h : xs[i]? = some y) : xs = xs.take i ++ y :: xs.drop (i + 1) := by
  obtain ⟨hlt, rfl⟩ := List.getElem?_eq_some_iff.mp h
  rw [← List.drop_eq_getElem_cons hlt, List.take_append_drop]

/-- The key is below the middle. -/
theorem Bracket.lower (hsorted : xs.Pairwise (· ≤ ·)) (h : Bracket xs x lo hi) {mid : ℕ} {y : α}
    (hlo : lo ≤ mid) (hhi : mid < hi) (hget : xs[mid]? = some y) (hlt : x < y) :
    Bracket xs x lo mid := by
  have hinside := h.inside
  refine ⟨hlo, by omega, h.front, fun z hz => ?_⟩
  have hsplit := split_at hget
  rw [hsplit, List.pairwise_append, List.pairwise_cons] at hsorted
  obtain ⟨hmid, rfl⟩ := List.getElem?_eq_some_iff.mp hget
  rw [List.drop_eq_getElem_cons hmid] at hz
  rcases List.mem_cons.mp hz with rfl | hz
  · exact hlt
  · exact lt_of_lt_of_le hlt (hsorted.2.1.1 z hz)

/-- The key is not below the middle. -/
theorem Bracket.upper (hsorted : xs.Pairwise (· ≤ ·)) (h : Bracket xs x lo hi) {mid : ℕ} {y : α}
    (hhi : mid < hi) (hget : xs[mid]? = some y) (hle : ¬x < y) : Bracket xs x (mid + 1) hi := by
  have hinside := h.inside
  refine ⟨hhi, hinside, fun z hz => ?_, h.back⟩
  have hsplit := split_at hget
  rw [hsplit, List.pairwise_append] at hsorted
  obtain ⟨hmid, rfl⟩ := List.getElem?_eq_some_iff.mp hget
  rw [List.take_succ_eq_append_getElem hmid, List.mem_append, List.mem_singleton] at hz
  rcases hz with hz | rfl
  · exact le_trans (hsorted.2.2 z hz _ List.mem_cons_self) (not_lt.mp hle)
  · exact not_lt.mp hle

theorem isCut_bisectLoop (hsorted : xs.Pairwise (· ≤ ·)) {fuel : ℕ} (h : Bracket xs x lo hi)
    (hfuel : hi ≤ lo + fuel) : IsCut xs x (bisectLoop xs x fuel lo hi) := by
  induction fuel generalizing lo hi with
  | zero =>
    have hordered := h.ordered
    have hempty : hi = lo := by omega
    subst hempty
    exact ⟨h.inside, h.front, h.back⟩
  | succ fuel ih =>
    have hordered := h.ordered
    have hinside := h.inside
    unfold bisectLoop
    by_cases hlt : lo < hi
    · rw [if_pos hlt]
      have hmid : (lo + hi) / 2 < xs.length := by omega
      have hget := List.getElem?_eq_getElem hmid
      dsimp only
      rw [hget]
      dsimp only
      by_cases hbelow : x < xs[(lo + hi) / 2]
      · rw [if_pos hbelow]
        exact ih (h.lower hsorted (by omega) (by omega) hget hbelow) (by omega)
      · rw [if_neg hbelow]
        exact ih (h.upper hsorted (by omega) hget hbelow) (by omega)
    · rw [if_neg hlt]
      have hempty : hi = lo := by omega
      subst hempty
      exact ⟨hinside, h.front, h.back⟩

/-- The search finds the cut. -/
theorem isCut_bisectRight (hsorted : xs.Pairwise (· ≤ ·)) (x : α) : IsCut xs x (bisectRight xs x) :=
  isCut_bisectLoop hsorted ⟨Nat.zero_le _, Nat.le_refl _, by simp, by simp⟩ (by omega)

end Search

section Stability

variable {α : Type} {r : α → α → Prop} [DecidableRel r]

/-- Elements that compare equal keep their order. -/
theorem filter_insertionSort (p : α → Bool) (h : ∀ a b, p a = true → p b = true → r a b) (l : List α) :
    (l.insertionSort r).filter p = l.filter p := by
  have hpairwise : (l.filter p).Pairwise r := by
    rw [List.pairwise_filter]
    exact List.pairwise_of_forall fun a b ha hb => h a b ha hb
  have hsub := (List.sublist_insertionSort hpairwise List.filter_sublist).filter p
  simp only [List.filter_filter, Bool.and_self] at hsub
  have hlength : ((l.insertionSort r).filter p).length = (l.filter p).length :=
    ((List.perm_insertionSort r l).filter p).length_eq
  exact (hsub.eq_of_length hlength.symm).symm

omit [DecidableRel r] in
/-- The last element a filter keeps has no kept element behind it. -/
theorem exists_last_of_filter {p : α → Bool} {l : List α} {a : α}
    (h : (l.filter p).getLast? = some a) :
    ∃ before after, l = before ++ a :: after ∧ ∀ b ∈ after, p b = false := by
  induction l with
  | nil => simp at h
  | cons b l ih =>
    by_cases hlater : l.filter p = []
    · have hnone : ∀ c ∈ l, p c = false := by
        intro c hc
        have hnot := List.filter_eq_nil_iff.mp hlater c hc
        rw [Bool.not_eq_true] at hnot
        exact hnot
      rw [List.filter_cons, hlater] at h
      split_ifs at h with hb
      · have hba : b = a := by simpa using h
        exact ⟨[], l, by rw [hba]; rfl, hnone⟩
      · simp at h
    · have hlast : (l.filter p).getLast? = some a := by
        rw [List.filter_cons] at h
        split_ifs at h with hb
        · rw [List.getLast?_cons_of_ne_nil hlater] at h
          exact h
        · exact h
      obtain ⟨before, after, hsplit, hnone⟩ := ih hlast
      exact ⟨b :: before, after, by rw [hsplit]; rfl, hnone⟩

end Stability

end DolphinRe.Bisection
