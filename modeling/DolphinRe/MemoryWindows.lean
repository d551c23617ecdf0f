import Mathlib.Data.Int.Notation
import Mathlib.Data.List.Basic
import Mathlib.Data.List.Induction
import Mathlib.Data.List.ReduceOption
import Mathlib.Tactic.Basic

/-!
# Windows of a memory

A memory assigns a value to every address. A window is a stretch of it, and a
patch overwrites a stretch. Two memories mirror each other where one shows the
other at shifted addresses: windows inside the mirror agree, and patches on
both sides keep it, whether they fall inside it or miss it. After a history of
writes each address holds what the last of them that covers it left.
-/

namespace DolphinRe.MemoryWindows

variable {α : Type} {f g m : ℤ → α} {a b x : ℤ} {n : ℕ} {data : List α}

/-- The values at `n` addresses. -/
def window (m : ℤ → α) (a : ℤ) (n : ℕ) : List α := (List.range n).map fun i : ℕ => m (a + (i : ℤ))

/-- Write values from an address on. -/
def patch (m : ℤ → α) (a : ℤ) (data : List α) : ℤ → α := fun x =>
  if a ≤ x then (data[(x - a).toNat]?).getD (m x) else m x

/-- Two memories agree on stretches of `n` addresses. -/
def Mirrors (f : ℤ → α) (a : ℤ) (g : ℤ → α) (b : ℤ) (n : ℕ) : Prop :=
  ∀ i : ℕ, i < n → f (a + (i : ℤ)) = g (b + (i : ℤ))

@[simp] theorem length_window (m : ℤ → α) (a : ℤ) (n : ℕ) : (window m a n).length = n := by
  simp [window]

/-- A patch leaves everything outside its stretch alone. -/
theorem patch_outside (h : x < a ∨ a + data.length ≤ x) : patch m a data x = m x := by
  unfold patch
  split_ifs with hle
  · have hlong : data.length ≤ (x - a).toNat := by omega
    rw [List.getElem?_eq_none hlong]
    rfl
  · rfl

/-- A patch at a distance from its start. -/
theorem patch_add (m : ℤ → α) (a : ℤ) (data : List α) (i : ℕ) :
    patch m a data (a + (i : ℤ)) = (data[i]?).getD (m (a + (i : ℤ))) := by
  have hle : a ≤ a + (i : ℤ) := by omega
  have hindex : (a + (i : ℤ) - a).toNat = i := by omega
  rw [patch, if_pos hle, hindex]

/-- What is written is read. -/
theorem window_patch (m : ℤ → α) (a : ℤ) (data : List α) :
    window (patch m a data) a data.length = data := by
  refine List.ext_getElem (length_window _ _ _) fun i hi hi' => ?_
  have hread : (window (patch m a data) a data.length)[i] = patch m a data (a + (i : ℤ)) := by
    simp [window]
  rw [hread, patch_add, List.getElem?_eq_getElem hi']
  rfl

/-- A part of a window is a window. -/
theorem window_part (m : ℤ → α) (a : ℤ) {length cursor n : ℕ} (h : cursor + n ≤ length) :
    ((window m a length).drop cursor).take n = window m (a + cursor) n := by
  unfold window
  rw [← List.map_drop, ← List.map_take]
  refine List.ext_getElem (by simp; omega) fun i hi hi' => ?_
  simp
  congr 1
  omega

/-- Mirrored windows agree. -/
theorem Mirrors.window_eq (h : Mirrors f a g b n) : window f a n = window g b n :=
  List.map_congr_left fun i hi => h i (List.mem_range.mp hi)

/-- A part of a mirror. -/
theorem Mirrors.part (h : Mirrors f a g b n) {k l : ℕ} (hkl : k + l ≤ n) :
    Mirrors f (a + (k : ℤ)) g (b + (k : ℤ)) l := by
  intro i hi
  have hwhole := h (k + i) (by omega)
  have hf : a + ((k + i : ℕ) : ℤ) = a + (k : ℤ) + (i : ℤ) := by omega
  have hg : b + ((k + i : ℕ) : ℤ) = b + (k : ℤ) + (i : ℤ) := by omega
  rw [hf, hg] at hwhole
  exact hwhole

/-- The same patch on both sides. -/
theorem Mirrors.patch (h : Mirrors f a g b n) (k : ℕ) (data : List α) :
    Mirrors (patch f (a + (k : ℤ)) data) a (MemoryWindows.patch g (b + (k : ℤ)) data) b n := by
  intro i hi
  by_cases hki : k ≤ i
  · have hf : a + (i : ℤ) = a + (k : ℤ) + ((i - k : ℕ) : ℤ) := by omega
    have hg : b + (i : ℤ) = b + (k : ℤ) + ((i - k : ℕ) : ℤ) := by omega
    rw [hf, hg, patch_add, patch_add, ← hf, ← hg, h i hi]
  · rw [patch_outside (by omega), patch_outside (by omega)]
    exact h i hi

/-- Patches that miss the mirror on both sides. -/
theorem Mirrors.apart (h : Mirrors f a g b n) {p q : ℤ} {data data' : List α}
    (hf : p + data.length ≤ a ∨ a + n ≤ p) (hg : q + data'.length ≤ b ∨ b + n ≤ q) :
    Mirrors (MemoryWindows.patch f p data) a (MemoryWindows.patch g q data') b n := by
  intro i hi
  rw [patch_outside (by omega), patch_outside (by omega)]
  exact h i hi

section Partial

variable {memory : ℤ → Option α} {values : List α}

/-- The values at `n` addresses of a memory with holes, if none of them is a hole. -/
def valuesAt (memory : ℤ → Option α) (a : ℤ) (n : ℕ) : Option (List α) :=
  if (window memory a n).all Option.isSome then some (window memory a n).reduceOption else none

/-- Without holes nothing is dropped. -/
theorem map_reduceOption {l : List (Option α)} (h : ∀ o ∈ l, o.isSome = true) :
    l.reduceOption.map some = l := by
  induction l with
  | nil => rfl
  | cons o l ih =>
    obtain ⟨x, rfl⟩ := Option.isSome_iff_exists.mp (h o List.mem_cons_self)
    have htail := ih fun o' ho' => h o' (List.mem_cons_of_mem _ ho')
    rw [List.reduceOption_cons_of_some, List.map_cons, htail]

theorem valuesAt_eq_some : valuesAt memory a n = some values ↔ window memory a n = values.map some := by
  unfold valuesAt
  constructor
  · intro h
    split_ifs at h with hall
    have hfull := map_reduceOption (List.all_eq_true.mp hall)
    rw [← Option.some.inj h, hfull]
  · intro h
    have hall : (values.map some).all Option.isSome = true := by simp
    have hback : (values.map some).reduceOption = values := by simp [List.reduceOption]
    rw [h, if_pos hall, hback]

theorem length_of_valuesAt (h : valuesAt memory a n = some values) : values.length = n := by
  have hlength := congrArg List.length (valuesAt_eq_some.mp h)
  simpa using hlength.symm

/-- A part of what is read is read by itself. -/
theorem valuesAt_part (h : valuesAt memory a n = some values) {skip count : ℕ} (hfits : skip + count ≤ n) :
    valuesAt memory (a + skip) count = some ((values.drop skip).take count) := by
  have hwhole := valuesAt_eq_some.mp h
  rw [valuesAt_eq_some, ← window_part memory a hfits, hwhole, List.map_take, List.map_drop]

end Partial

section History

/-- Values written from an address on. -/
structure Write (α : Type) where
  /-- First address. -/
  addr : ℤ
  /-- The values. -/
  data : List α
  deriving DecidableEq, Repr

/-- What a write leaves at an address. -/
def Write.valueAt (write : Write α) (x : ℤ) : Option α :=
  if write.addr ≤ x then write.data[(x - write.addr).toNat]? else none

/-- What the last of some writes that covers an address leaves there. -/
def lastWritten (writes : List (Write α)) (x : ℤ) : Option α :=
  writes.foldl (fun last write => (write.valueAt x).or last) none

/-- The memory after some writes. -/
def patched (m : ℤ → α) (writes : List (Write α)) : ℤ → α :=
  writes.foldl (fun m write => patch m write.addr write.data) m

theorem patch_valueAt (m : ℤ → α) (write : Write α) (x : ℤ) :
    patch m write.addr write.data x = (write.valueAt x).getD (m x) := by
  unfold patch Write.valueAt
  split_ifs
  · rfl
  · rfl

theorem lastWritten_append (front : List (Write α)) (write : Write α) (x : ℤ) :
    lastWritten (front ++ [write]) x = (write.valueAt x).or (lastWritten front x) :=
  List.foldl_concat _ _ _ _

theorem patched_append (m : ℤ → α) (front back : List (Write α)) :
    patched m (front ++ back) = patched (patched m front) back :=
  List.foldl_append

/-- Each address holds what the last write that covers it left, or what it held before. -/
theorem patched_apply (m : ℤ → α) (writes : List (Write α)) (x : ℤ) :
    patched m writes x = (lastWritten writes x).getD (m x) := by
  induction writes using List.reverseRecOn with
  | nil => rfl
  | append_singleton writes write ih =>
    have hlast : patched (patched m writes) [write] = patch (patched m writes) write.addr write.data := rfl
    rw [patched_append, hlast, patch_valueAt, ih, lastWritten_append]
    cases write.valueAt x with
    | none => rfl
    | some value => rfl

end History

end DolphinRe.MemoryWindows
