import Mathlib.Data.List.Basic
import Mathlib.Tactic.Basic

/-!
# Dictionaries in insertion order

Assigning a key overwrites its value in place or appends a new entry. After any
number of assignments a key holds the last value assigned to it.
-/

namespace DolphinRe.Dictionaries

variable {κ α : Type} [DecidableEq κ]

/-- Assign a key. -/
def assign (key : κ) (value : α) (dict : List (κ × α)) : List (κ × α) :=
  if dict.any (·.1 = key) then dict.map fun entry => if entry.1 = key then (key, value) else entry
  else dict ++ [(key, value)]

/-- The value of a key, when there is one. -/
def valueOf (key : κ) (dict : List (κ × α)) : Option α := (dict.find? (·.1 = key)).map (·.2)

/-- Assign every pair in turn. -/
def collect (pairs dict : List (κ × α)) : List (κ × α) :=
  pairs.foldl (fun dict pair => assign pair.1 pair.2 dict) dict

theorem valueOf_cons (key : κ) (pair : κ × α) (dict : List (κ × α)) :
    valueOf key (pair :: dict) = if pair.1 = key then some pair.2 else valueOf key dict := by
  unfold valueOf
  rw [List.find?_cons]
  split_ifs with h
  · simp [h]
  · simp [h]

theorem valueOf_append (key : κ) (front back : List (κ × α)) :
    valueOf key (front ++ back) = (valueOf key front).or (valueOf key back) := by
  unfold valueOf
  rw [List.find?_append]
  cases front.find? (·.1 = key) with
  | none => rfl
  | some pair => rfl

/-- Overwriting in place. -/
theorem valueOf_overwrite (key other : κ) (value : α) (dict : List (κ × α)) :
    valueOf other (dict.map fun entry => if entry.1 = key then (key, value) else entry) =
      if other = key then (valueOf key dict).map fun _ => value else valueOf other dict := by
  induction dict with
  | nil => simp [valueOf]
  | cons pair dict ih =>
    rw [List.map_cons, valueOf_cons, ih, valueOf_cons, valueOf_cons]
    by_cases hpair : pair.1 = key
    · by_cases hother : other = key
      · simp [hpair, hother]
      · have hne : ¬key = other := fun h => hother h.symm
        simp [hpair, hother, hne]
    · by_cases hother : other = key
      · simp [hpair, hother]
      · simp [hpair, hother]

theorem valueOf_isSome (key : κ) (dict : List (κ × α)) :
    (valueOf key dict).isSome = dict.any (·.1 = key) := by
  unfold valueOf
  rw [Option.isSome_map, Bool.eq_iff_iff, List.find?_isSome, List.any_eq_true]

/-- An assignment changes the value of its own key only. -/
theorem valueOf_assign (key other : κ) (value : α) (dict : List (κ × α)) :
    valueOf other (assign key value dict) = if other = key then some value else valueOf other dict := by
  unfold assign
  by_cases hold : dict.any (·.1 = key) = true
  · rw [if_pos hold, valueOf_overwrite]
    rw [← valueOf_isSome] at hold
    obtain ⟨old, hget⟩ := Option.isSome_iff_exists.mp hold
    rw [hget]
    rfl
  · rw [if_neg hold, valueOf_append, valueOf_cons]
    rw [← valueOf_isSome, Bool.not_eq_true, Option.isSome_eq_false_iff, Option.isNone_iff_eq_none] at hold
    by_cases hother : other = key
    · simp [hother, hold]
    · have hne : ¬key = other := fun h => hother h.symm
      simp [hother, hne, valueOf]

/-- The last value assigned wins; other keys keep what they had. -/
theorem valueOf_collect (key : κ) (pairs dict : List (κ × α)) :
    valueOf key (collect pairs dict) = (valueOf key pairs.reverse).or (valueOf key dict) := by
  induction pairs generalizing dict with
  | nil => rfl
  | cons pair pairs ih =>
    change valueOf key (collect pairs (assign pair.1 pair.2 dict)) = _
    rw [ih, List.reverse_cons, valueOf_append, valueOf_assign, Option.or_assoc, valueOf_cons]
    congr 1
    by_cases hkey : key = pair.1
    · simp [hkey]
    · have hne : ¬pair.1 = key := fun h => hkey h.symm
      simp [hkey, hne, valueOf]

/-- A dictionary that holds each element under its own key. -/
theorem valueOf_keyed (f : α → κ) (key : κ) (elements : List α) :
    valueOf key (elements.map fun a => (f a, a)) = elements.find? (f · = key) := by
  induction elements with
  | nil => rfl
  | cons a elements ih =>
    rw [List.map_cons, valueOf_cons, ih, List.find?_cons]
    by_cases h : f a = key
    · simp [h]
    · simp [h]

end DolphinRe.Dictionaries
