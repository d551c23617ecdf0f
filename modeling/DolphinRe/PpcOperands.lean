import DolphinRe.Dictionaries
import DolphinRe.RadixNumerals

/-!
# Operands of disassembled instructions

Operands stand in one text, separated by commas. Registers are named, numbers
printed in either base, and an address is a displacement in front of a base
register in parentheses or two registers. The effective address is computed
from the text and the names of a register dump.
-/

namespace DolphinRe.PpcOperands

open PythonText HexNumerals PythonLines RadixNumerals Dictionaries

section Reading

/-- `[p.strip() for p in s.split(",")]`. -/
def commaParts (s : Str) : List Str := (s.splitOn ',').map strip

/-- What follows the first comma, and the whole text without one. -/
def behindComma (s : Str) : Str := if ',' ∈ s then (s.dropWhile (· ≠ ',')).tail else s

/-- The name of a general register. -/
def gprName (i : ℕ) : Str := 'r' :: Nat.toDigits 10 i

/-- The dictionary of a register dump. -/
def gprDict (gprs : List ℕ) : List (Str × ℕ) := gprs.zipIdx.map fun entry => (gprName entry.2, entry.1)

/-- A positive number of sixteen bits with the top bit set stands for a negative one. -/
def signExtend16 (n : ℤ) : ℤ := if 0 < n ∧ n ≤ 0xFFFF ∧ n.toNat.testBit 15 then n - 0x10000 else n

/-- The base of a displacement; the name `0` is no register. -/
def baseValue (gprs : List (Str × ℕ)) (reg : Str) : Option ℤ :=
  if reg = "0".toList then some 0 else (valueOf reg gprs).map fun value : ℕ => (value : ℤ) % 2 ^ 32

/-- `compute_effective_address`. -/
def computeEffectiveAddress (limit : DigitLimit) (opStr : Str) (gprs : List (Str × ℕ)) : Option ℤ :=
  let rhs := strip (behindComma opStr)
  if '(' ∈ rhs ∧ rhs.getLast? = some ')' then
    let imm := strip (rhs.takeWhile (· ≠ '('))
    let reg := strip (rhs.dropWhile (· ≠ '(')).tail.dropLast
    match parseInt limit imm with
    | none => none
    | some disp =>
      match baseValue gprs reg with
      | none => none
      | some base => some ((base + signExtend16 disp) % 2 ^ 32)
  else match commaParts rhs with
    | [ra, rb] =>
      match (if ra = "0".toList then some 0 else valueOf ra gprs), valueOf rb gprs with
      | some a, some b => some (((a + b : ℕ) : ℤ) % 2 ^ 32)
      | _, _ => none
    | _ => none

end Reading

section Joining

/-- `", ".join(parts)`. -/
def joinOperands (parts : List Str) : Str := ", ".toList.intercalate parts

/-- A text that can stand between commas. -/
structure Part (text : Str) : Prop where
  /-- It neither starts nor ends with a blank. -/
  trimmed : Trimmed text
  /-- It has no comma. -/
  uncut : ',' ∉ text

variable {part : Str} {parts : List Str}

theorem blank_separator : Blank [' '] := by decide

/-- A trimmed text is not changed by stripping. -/
theorem strip_trimmed {text : Str} (h : Trimmed text) : strip text = text := by
  have hblank : Blank [] := fun c hc => absurd hc List.not_mem_nil
  have hpadded := strip_padded hblank hblank h
  rw [List.nil_append, List.append_nil] at hpadded
  exact hpadded

/-- Neither is it with a blank in front. -/
theorem strip_spaced {text : Str} (h : Trimmed text) : strip (' ' :: text) = text := by
  have hblank : Blank [] := fun c hc => absurd hc List.not_mem_nil
  have hpadded := strip_padded blank_separator hblank h
  rw [List.append_nil] at hpadded
  exact hpadded

theorem joinOperands_single (part : Str) : joinOperands [part] = part := List.intercalate_singleton

theorem joinOperands_cons (part : Str) (hparts : parts ≠ []) :
    joinOperands (part :: parts) = part ++ ',' :: ' ' :: joinOperands parts := by
  obtain ⟨next, rest, rfl⟩ := List.exists_cons_of_ne_nil hparts
  unfold joinOperands
  rw [List.intercalate_cons_cons, List.append_assoc]
  rfl

/-- The text behind the first comma. -/
theorem behindComma_cons (hpart : ',' ∉ part) (rest : Str) : behindComma (part ++ ',' :: rest) = rest := by
  have hall : ∀ c ∈ part, decide (c ≠ ',') = true := by
    intro c hc
    exact decide_eq_true fun heq => hpart (heq ▸ hc)
  have hmem : ',' ∈ part ++ ',' :: rest := List.mem_append_right part List.mem_cons_self
  rw [behindComma, if_pos hmem, List.dropWhile_append_of_pos hall]
  simp

/-- A blank in front of a text of parts is dropped from the first one. -/
theorem commaParts_spaced (s : Str) : commaParts (' ' :: s) = commaParts s := by
  have hne := List.splitOn_ne_nil ',' s
  unfold commaParts
  rw [List.splitOn_cons_eq_if_modifyHead]
  obtain ⟨first, rest, hsplit⟩ := List.exists_cons_of_ne_nil hne
  rw [hsplit]
  have hstrip : strip (' ' :: first) = strip first := by
    unfold strip
    rw [← List.singleton_append, lstrip_blank blank_separator]
  simp [hstrip]

/-- Joined parts are taken apart again. -/
theorem commaParts_joinOperands (hne : parts ≠ []) (hparts : ∀ part ∈ parts, Part part) :
    commaParts (joinOperands parts) = parts := by
  induction parts with
  | nil => exact absurd rfl hne
  | cons part parts ih =>
    have hpart := hparts part List.mem_cons_self
    by_cases hlast : parts = []
    · rw [hlast, joinOperands_single, commaParts, List.splitOn_eq_singleton hpart.uncut, List.map_singleton,
        strip_trimmed hpart.trimmed]
    · have hrest := ih hlast fun other hother => hparts other (List.mem_cons_of_mem part hother)
      have hsplit : commaParts (part ++ ',' :: ' ' :: joinOperands parts) =
          strip part :: commaParts (' ' :: joinOperands parts) := by
        unfold commaParts
        rw [List.splitOn_append_cons_self_of_not_mem hpart.uncut, List.map_cons]
      rw [joinOperands_cons part hlast, hsplit, strip_trimmed hpart.trimmed, commaParts_spaced, hrest]

end Joining

section Registers

/-- Names of registers differ. -/
theorem gprName_injective {i j : ℕ} (h : gprName i = gprName j) : i = j := by
  have hdigits : Nat.toDigits 10 i = Nat.toDigits 10 j := (List.cons.inj h).2
  have hnumeral : ∀ n, Numeral 10 n (Nat.toDigits 10 n) := numeral_toDigits (by omega) (by omega)
  have hi := scanNumeral_numeral (by omega) (hnumeral i)
  have hj := scanNumeral_numeral (by omega) (hnumeral j)
  rw [hdigits, hj, Option.some.injEq] at hi
  exact (congrArg Prod.fst hi).symm

/-- The value under a name is that of the register. -/
theorem valueOf_gprDict (gprs : List ℕ) (i : ℕ) : valueOf (gprName i) (gprDict gprs) = gprs[i]? := by
  have hshifted : ∀ (gprs : List ℕ) (k i : ℕ),
      valueOf (gprName (k + i)) ((gprs.zipIdx k).map fun entry => (gprName entry.2, entry.1)) = gprs[i]? := by
    intro gprs
    induction gprs with
    | nil => exact fun k i => rfl
    | cons value gprs ih =>
      intro k i
      rw [List.zipIdx_cons, List.map_cons, valueOf_cons]
      cases i with
      | zero => simp
      | succ i =>
        have hne : ¬gprName k = gprName (k + (i + 1)) := by
          intro heq
          have hindex := gprName_injective heq
          omega
        have hnext : k + (i + 1) = k + 1 + i := by omega
        rw [if_neg hne, hnext, ih]
        rfl
  have hzero := hshifted gprs 0 i
  rw [Nat.zero_add] at hzero
  exact hzero

/-- Characters of names are letters and digits. -/
theorem gprName_chars (i : ℕ) : ∀ c ∈ gprName i, c = 'r' ∨ (hexValue c).isSome = true := by
  have hnumeral : Numeral 10 i (Nat.toDigits 10 i) := numeral_toDigits (by omega) (by omega) i
  intro c hc
  rcases List.mem_cons.mp hc with rfl | hc
  · exact Or.inl rfl
  · exact Or.inr (hnumeral.digits (by omega) c hc)

/-- A name has no character outside letters and digits. -/
theorem not_mem_gprName {c : Char} (i : ℕ) (hletter : c ≠ 'r') (hdigit : (hexValue c).isSome = false) :
    c ∉ gprName i := by
  intro hc
  rcases gprName_chars i c hc with heq | hsome
  · exact hletter heq
  · rw [hdigit] at hsome
    exact absurd hsome Bool.false_ne_true

theorem gprName_ne_nil (i : ℕ) : gprName i ≠ [] := List.cons_ne_nil _ _

theorem trimmed_gprName (i : ℕ) : Trimmed (gprName i) := by
  refine trimmed_of_unspaced fun c hc => ?_
  rcases gprName_chars i c hc with rfl | hdigit
  · decide
  · exact not_isSpace_of_hexValue hdigit

theorem part_gprName (i : ℕ) : Part (gprName i) :=
  ⟨trimmed_gprName i, not_mem_gprName i (by decide) (by decide)⟩

end Registers

section Addresses

variable {limit : DigitLimit} {d n : ℤ} {text : Str}

/-- The name in the place of a base register; the base field zero means no register. -/
def baseName (base : ℕ) : Str := if base = 0 then "0".toList else gprName base

/-- A displacement, signed in either base or as an unsigned number of sixteen bits. -/
def Displacement (d : ℤ) (text : Str) : Prop := Printed d text ∨ text = formatPrefixed (d % 0x10000)

/-- `rD, d(rA)`. -/
def dForm (target : ℕ) (text : Str) (base : ℕ) : Str :=
  joinOperands [gprName target, text ++ '(' :: (baseName base ++ [')'])]

/-- `rD, rA, rB`. -/
def xForm (target base index : ℕ) : Str := joinOperands [gprName target, baseName base, gprName index]

/-- A dump of all general registers. -/
def snapshot (regs : Fin 32 → UInt32) : List (Str × ℕ) := gprDict (List.ofFn fun i => (regs i).toNat)

/-- `(rA|0)`. -/
def baseContent (regs : Fin 32 → UInt32) (base : Fin 32) : ℕ := if base = 0 then 0 else (regs base).toNat

theorem valueOf_snapshot (regs : Fin 32 → UInt32) (i : Fin 32) :
    valueOf (gprName i) (snapshot regs) = some (regs i).toNat := by
  unfold snapshot
  rw [valueOf_gprDict, List.getElem?_ofFn]
  simp

/-- Reading both spellings of sixteen bits gives the displacement. -/
theorem signExtend16_spelled (hlow : -0x8000 ≤ d) (hhigh : d ≤ 0x7FFF) (hn : n = d ∨ n = d % 0x10000) :
    signExtend16 n = d := by
  have hbit : ∀ k : ℕ, k.testBit 15 = true ↔ k / 32768 % 2 = 1 := by
    intro k
    rw [Nat.testBit_eq_decide_div_mod_eq, decide_eq_true_eq]
  unfold signExtend16
  simp only [hbit]
  split_ifs
  · omega
  · omega

/-- A displacement is read as one of its two spellings. -/
theorem Displacement.read (h : Displacement d text) (hlow : -0x8000 ≤ d) (hhigh : d ≤ 0x7FFF) :
    ∃ n, Printed n text ∧ parseInt limit text = some n ∧ signExtend16 n = d := by
  rcases h with hprinted | rfl
  · exact ⟨d, hprinted, hprinted.parseInt_word (by omega), signExtend16_spelled hlow hhigh (Or.inl rfl)⟩
  · have hprinted := Printed.hex (d % 0x10000)
    exact ⟨_, hprinted, hprinted.parseInt_word (by omega), signExtend16_spelled hlow hhigh (Or.inr rfl)⟩

theorem baseName_cases (base : Fin 32) : base = 0 ∧ baseName base = "0".toList ∨
    base ≠ 0 ∧ baseName base = gprName base ∧ gprName base ≠ "0".toList := by
  by_cases hzero : base = 0
  · rw [hzero]
    exact Or.inl ⟨rfl, rfl⟩
  · have hpositive : (base : ℕ) ≠ 0 := fun hval => hzero (Fin.ext hval)
    have hname : gprName base ≠ "0".toList := by
      intro heq
      have hletter : 'r' = '0' := (List.cons.inj heq).1
      exact absurd hletter (by decide)
    exact Or.inr ⟨hzero, if_neg hpositive, hname⟩

/-- The characters of a base. -/
theorem part_baseName (base : Fin 32) : Part (baseName base) ∧ '(' ∉ baseName base := by
  obtain ⟨-, hname⟩ | ⟨-, hname, -⟩ := baseName_cases base
  · rw [hname]
    exact ⟨⟨by decide, by decide⟩, by decide⟩
  · rw [hname]
    exact ⟨part_gprName base, not_mem_gprName base (by decide) (by decide)⟩

theorem baseValue_snapshot (regs : Fin 32 → UInt32) (base : Fin 32) :
    baseValue (snapshot regs) (baseName base) = some (baseContent regs base : ℤ) := by
  unfold baseValue baseContent
  obtain ⟨hzero, hname⟩ | ⟨hzero, hname, hne⟩ := baseName_cases base
  · rw [hname, if_pos rfl, if_pos hzero]
    rfl
  · have hword : (regs base).toNat < 2 ^ 32 := UInt32.toNat_lt (regs base)
    have hmod : ((regs base).toNat : ℤ) % 2 ^ 32 = (regs base).toNat := by omega
    rw [hname, if_neg hne, if_neg hzero, valueOf_snapshot, Option.map_some, hmod]

/-- The address of a displacement from a base. -/
theorem computeEffectiveAddress_dForm (regs : Fin 32 → UInt32) (target base : Fin 32) (hlow : -0x8000 ≤ d)
    (hhigh : d ≤ 0x7FFF) (htext : Displacement d text) :
    computeEffectiveAddress limit (dForm target text base) (snapshot regs) =
      some ((baseContent regs base + d) % 2 ^ 32) := by
  have hread : ∃ n, Printed n text ∧ parseInt limit text = some n ∧ signExtend16 n = d := htext.read hlow hhigh
  obtain ⟨n, hprinted, hparse, hextended⟩ := hread
  obtain ⟨hpart, hopen⟩ := part_baseName base
  have hplain : '(' ∉ text := by
    intro hmem
    rcases hprinted.chars _ hmem with hdigit | hminus | hx
    · exact absurd hdigit (by decide)
    · exact absurd hminus (by decide)
    · exact absurd hx (by decide)
  have hall : ∀ c ∈ text, decide (c ≠ '(') = true := fun c hc => decide_eq_true fun heq => hplain (heq ▸ hc)
  have hlast : (text ++ '(' :: (baseName base ++ [')'])).getLast? = some ')' := by
    rw [List.getLast?_append_of_ne_nil _ (List.cons_ne_nil _ _), ← List.cons_append, List.getLast?_concat]
  have htrimmed : Trimmed (text ++ '(' :: (baseName base ++ [')'])) := by
    constructor
    · intro c hc
      rw [List.head?_append_of_ne_nil _ hprinted.ne_nil] at hc
      exact hprinted.unspaced c (List.mem_of_head? hc)
    · intro c hc
      rw [hlast, Option.mem_def, Option.some.injEq] at hc
      rw [← hc]
      decide
  have hrhs : strip (behindComma (dForm target text base)) = text ++ '(' :: (baseName base ++ [')']) := by
    have huncut : ',' ∉ gprName target := (part_gprName target).uncut
    rw [dForm, joinOperands_cons _ (List.cons_ne_nil _ _), behindComma_cons huncut, joinOperands_single,
      strip_spaced htrimmed]
  have hfront : (text ++ '(' :: (baseName base ++ [')'])).takeWhile (· ≠ '(') = text := by
    rw [List.takeWhile_append_of_pos hall]
    simp
  have hback : (text ++ '(' :: (baseName base ++ [')'])).dropWhile (· ≠ '(') = '(' :: (baseName base ++ [')']) := by
    rw [List.dropWhile_append_of_pos hall]
    simp
  have hmem : '(' ∈ text ++ '(' :: (baseName base ++ [')']) := List.mem_append_right text List.mem_cons_self
  unfold computeEffectiveAddress
  dsimp only
  rw [hrhs, if_pos ⟨hmem, hlast⟩, hfront, hback, List.tail_cons, List.dropLast_concat,
    strip_trimmed (trimmed_of_unspaced hprinted.unspaced), strip_trimmed hpart.trimmed, hparse]
  dsimp only
  rw [baseValue_snapshot]
  dsimp only
  rw [hextended]

/-- Two registers side by side have no blank at an end. -/
theorem trimmed_indexed (base index : Fin 32) : Trimmed (joinOperands [baseName base, gprName index]) := by
  have hpart := (part_baseName base).1
  have hne : baseName base ≠ [] := by
    obtain ⟨-, hname⟩ | ⟨-, hname, -⟩ := baseName_cases base
    · rw [hname]
      decide
    · rw [hname]
      exact List.cons_ne_nil _ _
  rw [joinOperands_cons _ (List.cons_ne_nil _ _), joinOperands_single]
  constructor
  · intro c hc
    rw [List.head?_append_of_ne_nil _ hne] at hc
    exact hpart.trimmed.1 c hc
  · intro c hc
    rw [List.getLast?_append_of_ne_nil _ (List.cons_ne_nil _ _), List.getLast?_cons_cons,
      List.getLast?_cons_of_ne_nil (gprName_ne_nil index)] at hc
    exact (trimmed_gprName index).2 c hc

/-- They are in no parentheses. -/
theorem parenthesis_not_mem_indexed (base index : Fin 32) :
    '(' ∉ joinOperands [baseName base, gprName index] := by
  have hbase := (part_baseName base).2
  have hindex : '(' ∉ gprName index := not_mem_gprName index (by decide) (by decide)
  rw [joinOperands_cons _ (List.cons_ne_nil _ _), joinOperands_single]
  intro hmem
  rcases List.mem_append.mp hmem with hfront | hrest
  · exact hbase hfront
  · rcases List.mem_cons.mp hrest with hcomma | hrest
    · exact absurd hcomma (by decide)
    · rcases List.mem_cons.mp hrest with hspace | hrest
      · exact absurd hspace (by decide)
      · exact hindex hrest

/-- The address of two registers. -/
theorem computeEffectiveAddress_xForm (regs : Fin 32 → UInt32) (target base index : Fin 32) :
    computeEffectiveAddress limit (xForm target base index) (snapshot regs) =
      some (((baseContent regs base + (regs index).toNat : ℕ) : ℤ) % 2 ^ 32) := by
  have hparts : ∀ part ∈ [baseName base, gprName index], Part part :=
    List.forall_mem_cons.mpr ⟨(part_baseName base).1, List.forall_mem_singleton.mpr (part_gprName index)⟩
  have hrhs : strip (behindComma (xForm target base index)) = joinOperands [baseName base, gprName index] := by
    have huncut : ',' ∉ gprName target := (part_gprName target).uncut
    rw [xForm, joinOperands_cons _ (List.cons_ne_nil _ _), behindComma_cons huncut,
      strip_spaced (trimmed_indexed base index)]
  have hindexed : ¬('(' ∈ joinOperands [baseName base, gprName index] ∧
      (joinOperands [baseName base, gprName index]).getLast? = some ')') := fun h =>
    parenthesis_not_mem_indexed base index h.1
  have hbase : (if baseName base = "0".toList then some 0 else valueOf (baseName base) (snapshot regs)) =
      some (baseContent regs base) := by
    unfold baseContent
    obtain ⟨hzero, hname⟩ | ⟨hzero, hname, hne⟩ := baseName_cases base
    · rw [hname, if_pos rfl, if_pos hzero]
    · rw [hname, if_neg hne, if_neg hzero, valueOf_snapshot]
  unfold computeEffectiveAddress
  dsimp only
  rw [hrhs, if_neg hindexed, commaParts_joinOperands (List.cons_ne_nil _ _) hparts]
  dsimp only
  rw [hbase, valueOf_snapshot]

end Addresses

/-- Effective addresses are those of the architecture: a displacement or a register on top of the base
register or zero, modulo the size of the address space. -/
theorem effective_address_exact (limit : DigitLimit) (regs : Fin 32 → UInt32) (target base : Fin 32) :
    (∀ d text, -0x8000 ≤ d → d ≤ 0x7FFF → Displacement d text →
      computeEffectiveAddress limit (dForm target text base) (snapshot regs) =
        some ((baseContent regs base + d) % 2 ^ 32)) ∧
    ∀ index : Fin 32, computeEffectiveAddress limit (xForm target base index) (snapshot regs) =
      some (((baseContent regs base + (regs index).toNat : ℕ) : ℤ) % 2 ^ 32) :=
  ⟨fun _ _ hlow hhigh htext => computeEffectiveAddress_dForm regs target base hlow hhigh htext,
    computeEffectiveAddress_xForm regs target base⟩

/-- A negative displacement in its unsigned spelling. -/
theorem effective_address_exact_unsigned : -0x8000 ≤ (-4 : ℤ) ∧ (-4 : ℤ) ≤ 0x7FFF ∧
    Displacement (-4) "0xfffc".toList ∧
    computeEffectiveAddress defaultLimit "r5, 0xfffc(r1)".toList (snapshot fun _ => 0x81560000) =
      some 0x8155FFFC := by
  have htext : Displacement (-4) "0xfffc".toList := Or.inr (by decide)
  have hform : "r5, 0xfffc(r1)".toList = dForm (5 : Fin 32) "0xfffc".toList (1 : Fin 32) := by decide
  have hexact := (effective_address_exact defaultLimit (fun _ => 0x81560000) 5 1).1 (-4) _ (by decide)
    (by decide) htext
  have hvalue : ((baseContent (fun _ => 0x81560000) 1 : ℕ) + (-4 : ℤ)) % 2 ^ 32 = 0x8155FFFC := by decide
  rw [hvalue] at hexact
  rw [hform]
  exact ⟨by decide, by decide, htext, hexact⟩

end DolphinRe.PpcOperands
