import DolphinRe.PythonText

/-!
# Slices at regular offsets

A loop over offsets that are a step apart, taking a slice of a step's length at
each of them, goes through the whole list. Joined texts keep what their parts
have, and a separator of blanks is gone with the blanks.
-/

namespace DolphinRe.Slices

open PythonText

variable {α : Type}

/-- `range(0, stop, step)`. -/
def rangeStep (stop step : ℕ) : List ℕ := (List.range ((stop + step - 1) / step)).map (· * step)

/-- `l[off : off + n]`. -/
def slice (l : List α) (off n : ℕ) : List α := (l.drop off).take n

@[simp] theorem length_rangeStep (stop step : ℕ) : (rangeStep stop step).length = (stop + step - 1) / step := by
  simp [rangeStep]

@[simp] theorem length_slice (l : List α) (off n : ℕ) : (slice l off n).length = min n (l.length - off) := by
  simp [slice]

section Coverage

variable {stop step : ℕ}

/-- The steps reach the end. -/
theorem le_steps (hstep : 0 < step) (stop : ℕ) : stop ≤ (stop + step - 1) / step * step := by
  have hdiv := Nat.div_add_mod (stop + step - 1) step
  have hmod := Nat.mod_lt (stop + step - 1) hstep
  rw [Nat.mul_comm] at hdiv
  omega

/-- The offsets are the multiples of the step before the end. -/
theorem mem_rangeStep (hstep : 0 < step) {off : ℕ} : off ∈ rangeStep stop step ↔ off < stop ∧ step ∣ off := by
  rw [rangeStep, List.mem_map]
  constructor
  · rintro ⟨i, hi, rfl⟩
    have hnext : i + 1 ≤ (stop + step - 1) / step := List.mem_range.mp hi
    rw [Nat.le_div_iff_mul_le hstep, Nat.add_mul, Nat.one_mul] at hnext
    exact ⟨by omega, Nat.dvd_mul_left step i⟩
  · rintro ⟨hlt, i, rfl⟩
    rw [Nat.mul_comm] at hlt
    have hbefore := Nat.lt_of_lt_of_le hlt (le_steps hstep stop)
    exact ⟨i, List.mem_range.mpr (Nat.lt_of_mul_lt_mul_right hbefore), Nat.mul_comm i step⟩

/-- The first slices are the front of the list. -/
theorem flatMap_slices (l : List α) (step count : ℕ) :
    ((List.range count).flatMap fun i => slice l (i * step) step) = l.take (count * step) := by
  induction count with
  | zero => simp
  | succ count ih =>
    rw [List.range_succ, List.flatMap_append, ih, List.flatMap_singleton, Nat.add_mul, Nat.one_mul,
      List.take_add]
    rfl

/-- The slices together are the list. -/
theorem flatMap_slice (hstep : 0 < step) {l : List α} (hlength : l.length ≤ stop) :
    ((rangeStep stop step).flatMap fun off => slice l off step) = l := by
  have hreach := le_steps hstep stop
  rw [rangeStep, List.flatMap_map, flatMap_slices, List.take_of_length_le (Nat.le_trans hlength hreach)]

end Coverage

section Joining

variable {sep : List α} {parts : List (List α)}

/-- A separator stands between any two parts. -/
theorem length_intercalate (sep : List α) (parts : List (List α)) :
    (sep.intercalate parts).length = parts.flatten.length + (parts.length - 1) * sep.length := by
  induction parts with
  | nil => simp
  | cons part parts ih =>
    cases parts with
    | nil => simp
    | cons next parts =>
      have hcount : (part :: next :: parts).length - 1 = (next :: parts).length - 1 + 1 := by simp
      have hflat : (part :: next :: parts).flatten = part ++ (next :: parts).flatten := rfl
      rw [List.intercalate_cons_cons, List.length_append, List.length_append, ih, hcount, Nat.add_mul, hflat,
        List.length_append]
      omega

/-- What is filtered out of the separator is gone. -/
theorem filter_intercalate {p : α → Bool} (hsep : sep.filter p = []) (parts : List (List α)) :
    (sep.intercalate parts).filter p = parts.flatMap fun part => part.filter p := by
  induction parts with
  | nil => rfl
  | cons part parts ih =>
    cases parts with
    | nil => simp
    | cons next parts =>
      rw [List.intercalate_cons_cons, List.filter_append, List.filter_append, hsep, List.append_nil, ih]
      rfl

end Joining

end DolphinRe.Slices
