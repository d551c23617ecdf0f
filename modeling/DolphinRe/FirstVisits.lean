import Mathlib.Logic.Function.Iterate
import Mathlib.Data.List.Basic

/-!
# Visits along an iteration

A function is applied again and again. The states reached after a start form
its orbit, and those with a property are the visits. An execution that stops
at every visit and goes on from there meets the visits of the orbit, each of
them once and in order.
-/

namespace DolphinRe.FirstVisits

variable {α : Type} (f : α → α) (p : α → Bool)

/-- The states after the first and up to a number of steps. -/
def orbit : ℕ → α → List α
  | 0, _ => []
  | n + 1, s => f s :: orbit n (f s)

/-- Those with the property. -/
def visits (n : ℕ) (s : α) : List α := (orbit f n s).filter p

/-- The first state after the start with the property. -/
def FirstVisit (s s' : α) : Prop := ∃ n, f^[n] s = s' ∧ visits f p n s = [s']

/-- Stopping at every visit: the visits so far, and where the last stop was. -/
def Arrives (s : α) (met : List α) (s' : α) : Prop :=
  ∃ n, f^[n] s = s' ∧ visits f p n s = met ∧ met.getLast?.getD s = s'

/-- The first visit within a number of steps. -/
def firstVisit? : ℕ → α → Option α
  | 0, _ => none
  | n + 1, s => if p (f s) = true then some (f s) else firstVisit? n (f s)

section Orbits

theorem orbit_add (m n : ℕ) (s : α) : orbit f (m + n) s = orbit f m s ++ orbit f n (f^[m] s) := by
  induction m generalizing s with
  | zero => rw [Nat.zero_add]; rfl
  | succ m ih =>
    rw [Nat.add_right_comm, orbit, ih, orbit, List.cons_append, Function.iterate_succ_apply]

theorem visits_add (m n : ℕ) (s : α) : visits f p (m + n) s = visits f p m s ++ visits f p n (f^[m] s) := by
  unfold visits
  rw [orbit_add, List.filter_append]

/-- Fewer steps meet a front of the visits. -/
theorem visits_isPrefix {m n : ℕ} (h : m ≤ n) (s : α) : visits f p m s <+: visits f p n s := by
  obtain ⟨k, rfl⟩ := Nat.exists_eq_add_of_le h
  rw [visits_add]
  exact List.prefix_append _ _

/-- Where no step comes back to the property, there are no visits. -/
theorem visits_eq_nil {n : ℕ} {s : α} : visits f p n s = [] ↔ ∀ i < n, p (f^[i + 1] s) = false := by
  induction n generalizing s with
  | zero => simp [visits, orbit]
  | succ n ih =>
    have htail := ih (s := f s)
    unfold visits at htail ⊢
    rw [orbit, List.filter_cons]
    cases hfirst : p (f s) with
    | true =>
      refine ⟨fun h => ?_, fun h => ?_⟩
      · simp at h
      · have hzero : p (f s) = false := h 0 (Nat.succ_pos n)
        rw [hfirst] at hzero
        cases hzero
    | false =>
      rw [if_neg Bool.false_ne_true, htail]
      refine ⟨fun h i hi => ?_, fun h i hi => ?_⟩
      · cases i with
        | zero => exact hfirst
        | succ i => exact h i (Nat.lt_of_succ_lt_succ hi)
      · exact h (i + 1) (Nat.succ_lt_succ hi)

end Orbits

section Stops

variable {f p}

/-- Every visit has the property. -/
theorem holds_of_mem_visits {n : ℕ} {s x : α} (h : x ∈ visits f p n s) : p x = true :=
  (List.mem_filter.mp h).2

theorem FirstVisit.holds {s s' : α} (h : FirstVisit f p s s') : p s' = true := by
  obtain ⟨n, -, hvisits⟩ := h
  exact holds_of_mem_visits (by rw [hvisits]; exact List.mem_singleton_self s')

/-- The first visit comes after at least one step, and no state before it has the property. -/
theorem firstVisit_iff {s s' : α} :
    FirstVisit f p s s' ↔ ∃ n, f^[n + 1] s = s' ∧ p s' = true ∧ ∀ i < n, p (f^[i + 1] s) = false := by
  constructor
  · rintro ⟨n, hn, hvisits⟩
    have hlast : p s' = true := FirstVisit.holds ⟨n, hn, hvisits⟩
    cases n with
    | zero => simp [visits, orbit] at hvisits
    | succ n =>
      have hone : visits f p 1 (f^[n] s) = [s'] := by
        have hstep : f (f^[n] s) = s' := (Function.iterate_succ_apply' f n s).symm.trans hn
        simp only [visits, orbit, hstep, List.filter_cons, hlast, if_true, List.filter_nil]
      rw [visits_add, hone] at hvisits
      have hnone : visits f p n s = [] := by simpa using hvisits
      exact ⟨n, hn, hlast, (visits_eq_nil f p).mp hnone⟩
  · rintro ⟨n, hn, hlast, hbefore⟩
    have hstep : f (f^[n] s) = s' := (Function.iterate_succ_apply' f n s).symm.trans hn
    refine ⟨n + 1, hn, ?_⟩
    rw [visits_add, (visits_eq_nil f p).mpr hbefore]
    simp only [visits, orbit, hstep, List.filter_cons, hlast, if_true, List.filter_nil, List.nil_append]

/-- There is at most one first visit. -/
theorem FirstVisit.unique {s s' s'' : α} (h : FirstVisit f p s s') (h' : FirstVisit f p s s'') : s' = s'' := by
  obtain ⟨m, -, hm⟩ := h
  obtain ⟨n, -, hn⟩ := h'
  rcases Nat.le_total m n with hle | hle
  · have hfront := visits_isPrefix f p hle s
    rw [hm, hn] at hfront
    simpa using hfront
  · have hfront := visits_isPrefix f p hle s
    rw [hm, hn] at hfront
    exact (by simpa using hfront : s'' = s').symm

theorem arrives_start (s : α) : Arrives f p s [] s := ⟨0, rfl, rfl, rfl⟩

/-- The next stop is the next visit. -/
theorem Arrives.next {s s' s'' : α} {met : List α} (h : Arrives f p s met s') (hnext : FirstVisit f p s' s'') :
    Arrives f p s (met ++ [s'']) s'' := by
  obtain ⟨m, rfl, hmet, -⟩ := h
  obtain ⟨n, hn, hvisits⟩ := hnext
  refine ⟨m + n, ?_, ?_, by simp⟩
  · rw [Nat.add_comm, Function.iterate_add_apply, hn]
  · rw [visits_add, hmet, hvisits]

end Stops

section Accounts

variable {f p} {q : α → Bool} {m n : ℕ} {s s' s'' : α} {told later : List α}

/-- An account of an execution tells every visit, and nothing that is not on the way, in order. -/
structure Account (f : α → α) (p : α → Bool) (n : ℕ) (s : α) (told : List α) (s' : α) : Prop where
  /-- The execution ends there. -/
  ends : f^[n] s = s'
  /-- Every visit is told. -/
  complete : (visits f p n s).Sublist told
  /-- What is told lies on the way, in order. -/
  sound : told.Sublist (orbit f n s)

theorem account_start (s : α) : Account f p 0 s [] s where
  ends := rfl
  complete := List.Sublist.slnil
  sound := List.Sublist.slnil

/-- A single step whose outcome is told. -/
theorem account_step (s : α) : Account f p 1 s [f s] (f s) where
  ends := rfl
  complete := List.filter_sublist
  sound := List.Sublist.refl [f s]

/-- An account is carried on. -/
theorem Account.append (h : Account f p m s told s') (h' : Account f p n s' later s'') :
    Account f p (m + n) s (told ++ later) s'' := by
  obtain ⟨rfl, hcomplete, hsound⟩ := h
  obtain ⟨rfl, hcomplete', hsound'⟩ := h'
  refine ⟨?_, ?_, ?_⟩
  · rw [Nat.add_comm, Function.iterate_add_apply]
  · rw [visits_add]
    exact hcomplete.append hcomplete'
  · rw [orbit_add]
    exact hsound.append hsound'

/-- Stopping at a first visit misses no visit of a kind that always stops. -/
theorem FirstVisit.account (h : FirstVisit f q s s') (hstops : ∀ x, p x = true → q x = true) :
    ∃ n, Account f p n s [s'] s' := by
  obtain ⟨n, hn, hvisits⟩ := h
  refine ⟨n, hn, ?_, ?_⟩
  · rw [← hvisits]
    exact List.monotone_filter_right (orbit f n s) hstops
  · rw [← hvisits]
    exact List.filter_sublist

end Accounts

section Search

variable {f p}

/-- What a search finds is the first visit. -/
theorem firstVisit_of_search {n : ℕ} {s s' : α} (h : firstVisit? f p n s = some s') : FirstVisit f p s s' := by
  induction n generalizing s with
  | zero => cases h
  | succ n ih =>
    unfold firstVisit? at h
    split_ifs at h with hfirst
    · obtain rfl := Option.some.inj h
      exact firstVisit_iff.mpr ⟨0, rfl, hfirst, fun i hi => absurd hi (Nat.not_lt_zero i)⟩
    · obtain ⟨k, hk, hlast, hbefore⟩ := firstVisit_iff.mp (ih h)
      refine firstVisit_iff.mpr ⟨k + 1, hk, hlast, fun i hi => ?_⟩
      cases i with
      | zero => exact Bool.eq_false_iff.mpr hfirst
      | succ i => exact hbefore i (Nat.lt_of_succ_lt_succ hi)

/-- A search finds nothing where there is nothing within its steps. -/
theorem search_eq_none {n : ℕ} {s : α} (h : firstVisit? f p n s = none) : visits f p n s = [] := by
  induction n generalizing s with
  | zero => rfl
  | succ n ih =>
    unfold firstVisit? at h
    split_ifs at h with hfirst
    unfold visits
    rw [orbit, List.filter_cons_of_neg (by simpa using hfirst)]
    exact ih h

/-- On an orbit that comes back to every state, a search over one round finds the first visit. -/
theorem search_iff {period : ℕ} (hperiod : ∀ s, f^[period] s = s) (hpos : 0 < period) {s s' : α} :
    firstVisit? f p period s = some s' ↔ FirstVisit f p s s' := by
  refine ⟨firstVisit_of_search, fun h => ?_⟩
  cases hsearch : firstVisit? f p period s with
  | some found => rw [(firstVisit_of_search hsearch).unique h]
  | none =>
    have hnone : ∀ rounds, visits f p (rounds * period) s = [] := by
      intro rounds
      induction rounds with
      | zero => rw [Nat.zero_mul]; rfl
      | succ rounds ih =>
        have hround : f^[rounds * period] s = s := by
          rw [Nat.mul_comm, Function.iterate_mul]
          exact Function.iterate_fixed (hperiod s) rounds
        rw [Nat.add_mul, Nat.one_mul, visits_add, ih, hround, search_eq_none hsearch, List.nil_append]
    obtain ⟨n, -, hvisits⟩ := h
    have hfront := visits_isPrefix f p (Nat.le_mul_of_pos_right n hpos) s
    rw [hvisits, hnone n] at hfront
    simp at hfront

end Search

end DolphinRe.FirstVisits
