import Mathlib.Data.Bool.AllAny
import Mathlib.Logic.Function.Basic
import DolphinRe.PpcDisassembly

/-!
# Pairs of immediate loads

A register is loaded with a high half and then combined with a low half. The
pass keeps the high halves by register name and tags the instruction that
combines one with the value of the pair. Numbers are read in both spellings of
their sixteen bits, and a difference is formed after the sign is extended.
-/

namespace DolphinRe.ImmediatePairs

open PythonText HexNumerals PythonLines RadixNumerals MnemonicKinds PpcOperands PpcDisassembly

section Pass

/-- `str.lower` and `str.isdigit`, as documented on ASCII texts. -/
structure CharTables extends LowerCase where
  /-- Whether a character is a digit. -/
  isDigit : Char → Bool
  /-- The digits of ASCII are the decimal ones. -/
  asciiDigit : ∀ c, c.toNat < 128 → isDigit c = c.isDigit

/-- The ones that know ASCII only. -/
def asciiTables : CharTables := ⟨asciiLower, Char.isDigit, fun _ _ => rfl⟩

variable (tables : CharTables) (limit : DigitLimit)

/-- `_parse_lis`. -/
def parseLis (opStr : Str) : Option Str × ℤ :=
  match commaParts opStr with
  | [dst, imm] =>
    match parseInt limit imm with
    | some value => (some dst, value % 0x10000)
    | none => (none, 0)
  | _ => (none, 0)

/-- `_parse_three_op`. -/
def parseThreeOp (opStr : Str) : Option Str × Option Str × ℤ :=
  match commaParts opStr with
  | [dst, src, imm] =>
    match parseInt limit imm with
    | some value => (some dst, some src, value)
    | none => (some dst, some src, 0)
  | _ => (none, none, 0)

/-- What stands in front of the first comma, if there is one. -/
def firstPart (opStr : Str) : Str := if ',' ∈ opStr then strip (opStr.takeWhile (· ≠ ',')) else []

/-- `_first_destination_register`. -/
def firstDestinationRegister (opStr : Str) : Option Str :=
  match firstPart opStr with
  | 'r' :: digits => if digits ≠ [] ∧ digits.all tables.isDigit then some ('r' :: digits) else none
  | _ => none

/-- The pending registers: where the high half was loaded, and the half. -/
abbrev Pending : Type := Str → Option (ℕ × ℕ)

/-- The value of a pair. -/
def pairValue (mnem : Str) (hi : ℕ) (imm : ℤ) : ℤ :=
  if mnem = "ori".toList then (hi ||| (imm % 0x10000).toNat : ℕ)
  else
    let sext := signExtend16 imm
    let sext := if mnem = "subi".toList then -sext else sext
    (hi + sext) % 2 ^ 32

/-- One turn of the loop. -/
def tagInsn (idx : ℕ) (pending : Pending) (ins : DisasmInstruction) : DisasmInstruction × Pending :=
  let mnem := tables.lower ins.mnemonic
  if mnem = "lis".toList then
    match parseLis limit ins.operands with
    | (some dst, hi) => (ins, Function.update pending dst (some (idx, (hi % 0x10000).toNat <<< 16)))
    | (none, _) => (ins, pending)
  else if mnem = "addi".toList ∨ mnem = "subi".toList ∨ mnem = "ori".toList then
    match parseThreeOp limit ins.operands with
    | (some dst, some src, imm) =>
      match pending dst with
      | some (_, hi) =>
        if src = dst then
          ({ins with kind := .immLoadPair, immValue := some (pairValue mnem hi imm)},
            Function.update pending dst none)
        else (ins, pending)
      | none => (ins, pending)
    | _ => (ins, pending)
  else
    match firstDestinationRegister tables ins.operands with
    | some dst => (ins, Function.update pending dst none)
    | none => (ins, pending)

/-- The loop from one index on. -/
def tagFrom : ℕ → Pending → List DisasmInstruction → List DisasmInstruction
  | _, _, [] => []
  | idx, pending, ins :: insns =>
    (tagInsn tables limit idx pending ins).1 :: tagFrom (idx + 1) (tagInsn tables limit idx pending ins).2 insns

/-- What is pending after some instructions. -/
def pendingAfter : ℕ → Pending → List DisasmInstruction → Pending
  | _, pending, [] => pending
  | idx, pending, ins :: insns => pendingAfter (idx + 1) (tagInsn tables limit idx pending ins).2 insns

/-- `post_process_imm_load_pairs`; the tagged instructions replace the given ones. -/
def postProcessImmLoadPairs (insns : List DisasmInstruction) : List DisasmInstruction :=
  tagFrom tables limit 0 (fun _ => none) insns

end Pass

section Instructions

/-- The operations that combine a low half. -/
inductive PairOp where
  | addi
  | subi
  | ori
  deriving DecidableEq, Repr

/-- Their mnemonics. -/
def PairOp.mnemonic : PairOp → Str
  | .addi => "addi".toList
  | .subi => "subi".toList
  | .ori => "ori".toList

/-- `lis rX, hi`, whatever else is known of the instruction. -/
def loadHigh (raw : DisasmInstruction) (x : ℕ) (hi : Str) : DisasmInstruction :=
  {raw with mnemonic := "lis".toList, operands := joinOperands [gprName x, hi]}

/-- `addi rX, rY, lo`, and the like. -/
def combineLow (raw : DisasmInstruction) (op : PairOp) (x y : ℕ) (lo : Str) : DisasmInstruction :=
  {raw with mnemonic := op.mnemonic, operands := joinOperands [gprName x, gprName y, lo]}

/-- A number printed for a high half, signed or unsigned. -/
def HighHalf (h : ℕ) (n : ℤ) : Prop := h < 0x10000 ∧ (n = h ∨ 0x8000 ≤ h ∧ n = (h : ℤ) - 0x10000)

/-- A number printed for a low half: sums take both spellings, differences the signed one. -/
def PairOp.Spelled : PairOp → ℤ → ℤ → Prop
  | .addi, d, n => -0x8000 ≤ d ∧ d ≤ 0x7FFF ∧ (n = d ∨ n = d % 0x10000)
  | .subi, d, n => -0x7FFF ≤ d ∧ d ≤ 0x8000 ∧ n = d
  | .ori, d, n => 0 ≤ d ∧ d ≤ 0xFFFF ∧ n = d

/-- What the processor computes from the halves. -/
def PairOp.value : PairOp → ℕ → ℤ → ℤ
  | .addi, h, d => (((h <<< 16 : ℕ) : ℤ) + d) % 2 ^ 32
  | .subi, h, d => (((h <<< 16 : ℕ) : ℤ) - d) % 2 ^ 32
  | .ori, h, d => ((h <<< 16 ||| d.toNat : ℕ) : ℤ) % 2 ^ 32

end Instructions

section Steps

variable {tables : CharTables} {limit : DigitLimit} {idx : ℕ} {pending : Pending} {raw : DisasmInstruction}
  {n : ℤ} {text : Str}

theorem lower_lis (tables : CharTables) : tables.lower "lis".toList = "lis".toList := by
  have hascii : ∀ c ∈ "lis".toList, c.toNat < 128 := List.all_iff_forall_prop.mp (by decide +kernel)
  rw [tables.ascii _ hascii]
  decide +kernel

theorem lower_mnemonic (tables : CharTables) (op : PairOp) : tables.lower op.mnemonic = op.mnemonic := by
  have hascii : ∀ c ∈ op.mnemonic, c.toNat < 128 :=
    List.all_iff_forall_prop.mp (by cases op <;> decide +kernel)
  rw [tables.ascii _ hascii]
  cases op <;> decide +kernel

/-- Printed numbers can stand between commas. -/
theorem part_printed (h : Printed n text) : Part text := by
  refine ⟨trimmed_of_unspaced h.unspaced, fun hcomma => ?_⟩
  rcases h.chars _ hcomma with hdigit | hminus | hx
  · exact absurd hdigit (by decide)
  · exact absurd hminus (by decide)
  · exact absurd hx (by decide)

/-- The high half is kept under the name of the register. -/
theorem tagInsn_loadHigh (x : ℕ) (hprinted : Printed n text) (hsmall : n.natAbs < 2 ^ 32) :
    tagInsn tables limit idx pending (loadHigh raw x text) = (loadHigh raw x text,
      Function.update pending (gprName x) (some (idx, (n % 0x10000 % 0x10000).toNat <<< 16))) := by
  have hparts : ∀ part ∈ [gprName x, text], Part part :=
    List.forall_mem_cons.mpr ⟨part_gprName x, List.forall_mem_singleton.mpr (part_printed hprinted)⟩
  have hlis : parseLis limit (joinOperands [gprName x, text]) = (some (gprName x), n % 0x10000) := by
    unfold parseLis
    rw [commaParts_joinOperands (List.cons_ne_nil _ _) hparts]
    dsimp only
    rw [hprinted.parseInt_word hsmall]
  unfold tagInsn loadHigh
  dsimp only
  rw [lower_lis, if_pos rfl, hlis]

/-- A low half is combined with a high half of the register that it is added to, and of no other. -/
theorem tagInsn_combineLow (op : PairOp) (x y : ℕ) (hprinted : Printed n text) (hsmall : n.natAbs < 2 ^ 32) :
    tagInsn tables limit idx pending (combineLow raw op x y text) =
      match pending (gprName x) with
      | some (_, hi) =>
        if gprName y = gprName x then
          ({combineLow raw op x y text with
              kind := .immLoadPair, immValue := some (pairValue op.mnemonic hi n)},
            Function.update pending (gprName x) none)
        else (combineLow raw op x y text, pending)
      | none => (combineLow raw op x y text, pending) := by
  have hparts : ∀ part ∈ [gprName x, gprName y, text], Part part :=
    List.forall_mem_cons.mpr ⟨part_gprName x, List.forall_mem_cons.mpr
      ⟨part_gprName y, List.forall_mem_singleton.mpr (part_printed hprinted)⟩⟩
  have hthree : parseThreeOp limit (joinOperands [gprName x, gprName y, text]) =
      (some (gprName x), some (gprName y), n) := by
    unfold parseThreeOp
    rw [commaParts_joinOperands (List.cons_ne_nil _ _) hparts]
    dsimp only
    rw [hprinted.parseInt_word hsmall]
  have hother : op.mnemonic ≠ "lis".toList := by cases op <;> decide
  have hpair : op.mnemonic = "addi".toList ∨ op.mnemonic = "subi".toList ∨ op.mnemonic = "ori".toList := by
    cases op <;> decide
  unfold tagInsn
  dsimp only [combineLow]
  rw [lower_mnemonic, if_neg hother, if_pos hpair, hthree]

/-- The loop over a list in two parts. -/
theorem tagFrom_append (front back : List DisasmInstruction) :
    tagFrom tables limit idx pending (front ++ back) = tagFrom tables limit idx pending front ++
      tagFrom tables limit (idx + front.length) (pendingAfter tables limit idx pending front) back := by
  induction front generalizing idx pending with
  | nil => rfl
  | cons ins front ih =>
    have hindex : idx + (ins :: front).length = idx + 1 + front.length := by
      rw [List.length_cons]
      omega
    rw [List.cons_append, tagFrom, ih, hindex]
    rfl

theorem pendingAfter_append (front back : List DisasmInstruction) :
    pendingAfter tables limit idx pending (front ++ back) =
      pendingAfter tables limit (idx + front.length) (pendingAfter tables limit idx pending front) back := by
  induction front generalizing idx pending with
  | nil => rfl
  | cons ins front ih =>
    have hindex : idx + (ins :: front).length = idx + 1 + front.length := by
      rw [List.length_cons]
      omega
    rw [List.cons_append, pendingAfter, ih, hindex]
    rfl

@[simp] theorem length_tagFrom (insns : List DisasmInstruction) :
    (tagFrom tables limit idx pending insns).length = insns.length := by
  induction insns generalizing idx pending with
  | nil => rfl
  | cons ins insns ih => rw [tagFrom, List.length_cons, ih, List.length_cons]

/-- The instruction behind some others, after the pass. -/
theorem getElem?_postProcess (front back : List DisasmInstruction) (ins : DisasmInstruction) :
    (postProcessImmLoadPairs tables limit (front ++ ins :: back))[front.length]? =
      some (tagInsn tables limit front.length (pendingAfter tables limit 0 (fun _ => none) front) ins).1 := by
  unfold postProcessImmLoadPairs
  rw [tagFrom_append, List.getElem?_append_right (by simp), length_tagFrom, Nat.sub_self, Nat.zero_add, tagFrom]
  rfl

end Steps

section Values

variable {tables : CharTables} {limit : DigitLimit} {op : PairOp} {h : ℕ} {d m : ℤ}

/-- The value of a pair is the one that the processor computes, but for one difference. -/
theorem pairValue_iff (hh : h < 0x10000) (hd : op.Spelled d m) :
    pairValue op.mnemonic (h <<< 16) m = op.value h d ↔ ¬(op = .subi ∧ d = 0x8000) := by
  have hshift : h <<< 16 = h * 65536 := Nat.shiftLeft_eq h 16
  cases op with
  | addi =>
    obtain ⟨hlow, hhigh, hm⟩ := hd
    have hother : PairOp.addi.mnemonic ≠ "ori".toList := by decide
    have hsum : PairOp.addi.mnemonic ≠ "subi".toList := by decide
    unfold pairValue
    dsimp only
    rw [if_neg hother, if_neg hsum, signExtend16_spelled hlow hhigh hm]
    simp [PairOp.value]
  | subi =>
    obtain ⟨hlow, hhigh, rfl⟩ := hd
    have hother : PairOp.subi.mnemonic ≠ "ori".toList := by decide
    have hdifference : PairOp.subi.mnemonic = "subi".toList := rfl
    unfold pairValue PairOp.value
    dsimp only
    rw [if_neg hother, if_pos hdifference, hshift]
    by_cases hlast : m = 0x8000
    · have hextended : signExtend16 0x8000 = -0x8000 := by decide
      rw [hlast, hextended]
      simp
      omega
    · rw [signExtend16_spelled (by omega) (by omega) (Or.inl rfl)]
      simp [hlast]
      omega
  | ori =>
    obtain ⟨hlow, hhigh, rfl⟩ := hd
    have hsame : m % 0x10000 = m := by omega
    have hsmall : h <<< 16 ||| m.toNat < 2 ^ 32 := by
      refine Nat.or_lt_two_pow ?_ ?_
      · rw [hshift]
        omega
      · omega
    have hmod : ((h <<< 16 ||| m.toNat : ℕ) : ℤ) % (2 ^ 32 : ℤ) = (h <<< 16 ||| m.toNat : ℕ) := by omega
    have hunion : PairOp.ori.mnemonic = "ori".toList := rfl
    unfold pairValue PairOp.value
    dsimp only
    rw [if_pos hunion, hsame, hmod]
    simp

end Values

/-- The value of a pair right behind its first half, wherever the two stand, is what the processor computes
unless 0x8000 is subtracted. -/
theorem pair_value_iff (tables : CharTables) (limit : DigitLimit) (before after : List DisasmInstruction)
    (raw raw' : DisasmInstruction) (x : ℕ) (op : PairOp) {h : ℕ} {d n m : ℤ} {hi lo : Str}
    (hhigh : HighHalf h n) (hhi : Printed n hi) (hlow : op.Spelled d m) (hlo : Printed m lo) :
    (∃ ins, (postProcessImmLoadPairs tables limit
        (before ++ loadHigh raw x hi :: combineLow raw' op x x lo :: after))[before.length + 1]? = some ins ∧
      ins.kind = .immLoadPair ∧ ins.immValue = some (op.value h d)) ↔ ¬(op = .subi ∧ d = 0x8000) := by
  obtain ⟨hbound, hspelled⟩ := hhigh
  have hsmall : n.natAbs < 2 ^ 32 := by omega
  have hlowSmall : m.natAbs < 2 ^ 32 := by
    cases op with
    | addi =>
      obtain ⟨hlower, hupper, hm⟩ := hlow
      omega
    | subi =>
      obtain ⟨hlower, hupper, hm⟩ := hlow
      omega
    | ori =>
      obtain ⟨hlower, hupper, hm⟩ := hlow
      omega
  have hhalf : (n % 0x10000 % 0x10000).toNat = h := by omega
  have hlist : before ++ loadHigh raw x hi :: combineLow raw' op x x lo :: after =
      (before ++ [loadHigh raw x hi]) ++ combineLow raw' op x x lo :: after := by
    rw [List.append_assoc]
    rfl
  have hlength : before.length + 1 = (before ++ [loadHigh raw x hi]).length := by
    rw [List.length_append, List.length_singleton]
  have hpending : ∀ pending : Pending, pendingAfter tables limit (0 + before.length) pending
      [loadHigh raw x hi] (gprName x) = some (before.length, h <<< 16) := by
    intro pending
    rw [pendingAfter, pendingAfter, tagInsn_loadHigh x hhi hsmall, hhalf, Nat.zero_add]
    exact Function.update_self _ _ _
  rw [← pairValue_iff hbound hlow, hlist, hlength, getElem?_postProcess, pendingAfter_append,
    tagInsn_combineLow op x x hlo hlowSmall, hpending]
  dsimp only
  rw [if_pos rfl]
  constructor
  · rintro ⟨ins, hins, -, hvalue⟩
    rw [← Option.some.inj hins] at hvalue
    exact Option.some.inj hvalue
  · intro hvalue
    exact ⟨_, rfl, rfl, congrArg some hvalue⟩

/-- An instruction before its mnemonic and operands are known. -/
def blankInsn (pc : ℤ) : DisasmInstruction where
  pc := pc
  bytesHex := []
  mnemonic := []
  operands := []
  kind := .other

/-- A pair whose low half is negative. -/
theorem pair_value_iff_negative : HighHalf 0x8001 0x8001 ∧ PairOp.addi.Spelled (-4) (-4) ∧
    ∃ ins, (postProcessImmLoadPairs asciiTables defaultLimit
        [loadHigh (blankInsn 0x80001000) 3 "0x8001".toList,
          combineLow (blankInsn 0x80001004) .addi 3 3 "-4".toList])[1]? = some ins ∧
      ins.kind = .immLoadPair ∧ ins.immValue = some 0x8000FFFC := by
  have hhigh : HighHalf 0x8001 0x8001 := ⟨by decide, Or.inl rfl⟩
  have hlow : PairOp.addi.Spelled (-4) (-4) := ⟨by decide, by decide, Or.inl rfl⟩
  exact ⟨hhigh, hlow, (pair_value_iff asciiTables defaultLimit [] [] (blankInsn 0x80001000)
    (blankInsn 0x80001004) 3 .addi hhigh (Printed.hex 0x8001) hlow (Printed.dec (-4))).mpr
      fun hlast => PairOp.noConfusion hlast.1⟩

/-- Subtracting 0x8000 is taken for adding it. -/
theorem subtracted_half_is_added : HighHalf 0x8001 0x8001 ∧ PairOp.subi.Spelled 0x8000 0x8000 ∧
    ((postProcessImmLoadPairs asciiTables defaultLimit
        [loadHigh (blankInsn 0x80001000) 3 "0x8001".toList,
          combineLow (blankInsn 0x80001004) .subi 3 3 "0x8000".toList])[1]?.bind DisasmInstruction.immValue) =
      some 0x80018000 ∧
    PairOp.subi.value 0x8001 0x8000 = 0x80008000 := by
  have hhigh : HighHalf 0x8001 0x8001 := ⟨by decide, Or.inl rfl⟩
  have hlow : PairOp.subi.Spelled 0x8000 0x8000 := ⟨by decide, by decide, rfl⟩
  exact ⟨hhigh, hlow, by decide +kernel, by decide⟩

end DolphinRe.ImmediatePairs
