import DolphinRe.MnemonicKinds
import DolphinRe.PpcOperands
import DolphinRe.Slices

/-!
# Disassembled instructions

The disassembling library decodes words into mnemonics and operand texts. Each
instruction gets the kind of its mnemonic, the target of a branch and, with a
register dump, the effective address of a load or a store.
-/

namespace DolphinRe.PpcDisassembly

open PythonText HexNumerals PacketNumerals PythonLines RadixNumerals RuleLists MnemonicKinds PpcOperands Slices

/-- `DisasmInstruction`. -/
structure DisasmInstruction where
  /-- Its address. -/
  pc : ℤ
  /-- Its word, in hexadecimal. -/
  bytesHex : Str
  /-- The mnemonic, as the library spells it. -/
  mnemonic : Str
  /-- The operands, as one text. -/
  operands : Str
  /-- What kind of instruction it is. -/
  kind : InstructionKind
  /-- Effective address of a load or a store, given the registers. -/
  ea : Option ℤ := none
  /-- The constant that it completes as the second of a pair. -/
  immValue : Option ℤ := none
  /-- Target of a branch to a fixed address. -/
  branchTarget : Option ℤ := none
  deriving DecidableEq, Repr

/-- What the disassembling library yields for an instruction. -/
structure CsInsn where
  /-- Its address. -/
  address : ℤ
  /-- The mnemonic. -/
  mnemonic : Str
  /-- The operands, as one text. -/
  opStr : Str
  deriving DecidableEq, Repr

/-- The disassembling library; it stops at the first word that it cannot decode. -/
structure Capstone where
  /-- Decode the words from an address on. -/
  disasm : List UInt8 → ℤ → List CsInsn
  /-- No instruction lies below the first address. -/
  above : ∀ blob pc, ∀ insn ∈ disasm blob pc, pc ≤ insn.address

/-- `_parse_branch_target`. -/
def parseBranchTarget (opStr : Str) : Option ℤ :=
  let candidate := (commaParts opStr).getLast?.getD []
  if "0x".toList.isPrefixOf candidate then parseHexInt candidate else none

/-- One turn of the loop of `disasm_bytes`; without registers the dictionary is empty. -/
def decodeInsn (lowering : LowerCase) (limit : DigitLimit) (pc : ℤ) (blob : List UInt8)
    (gprs : List (Str × ℕ)) (insn : CsInsn) : DisasmInstruction :=
  let kind := classify lowering insn.mnemonic
  {pc := insn.address
   bytesHex := toHex (slice blob (insn.address - pc).toNat 4)
   mnemonic := insn.mnemonic
   operands := insn.opStr
   kind := kind
   branchTarget := if kind = .branch ∨ kind = .branchCond ∨ kind = .branchLink then parseBranchTarget insn.opStr
     else none
   ea := if (kind = .load ∨ kind = .store) ∧ gprs ≠ [] then computeEffectiveAddress limit insn.opStr gprs
     else none}

/-- `disasm_bytes`. -/
def disasmBytes (cs : Capstone) (lowering : LowerCase) (limit : DigitLimit) (pc : ℤ) (blob : List UInt8)
    (gprs : List (Str × ℕ)) : List DisasmInstruction :=
  if blob = [] then []
  else
    let whole := blob.take (blob.length - blob.length % 4)
    (cs.disasm whole pc).map (decodeInsn lowering limit pc whole gprs)

section Decoded

variable {cs : Capstone} {lowering : LowerCase} {limit : DigitLimit} {pc : ℤ} {blob : List UInt8}
  {gprs : List (Str × ℕ)} {ins : DisasmInstruction}

/-- No instruction is taken for the second half of a pair when it is decoded. -/
theorem classify_ne_immLoadPair (lowering : LowerCase) (mnem : Str) : classify lowering mnem ≠ .immLoadPair := by
  intro hkind
  have hnone : .immLoadPair ∉ rules.map Rule.kind := by decide
  unfold classify at hkind
  rw [kindOf_eq, kindBy] at hkind
  cases hmatch : firstMatch rules (stripDots (lowering.lower mnem)) with
  | none =>
    rw [hmatch] at hkind
    exact InstructionKind.noConfusion hkind
  | some kind =>
    rw [hmatch, Option.getD_some] at hkind
    rw [hkind] at hmatch
    exact hnone (mem_of_firstMatch hmatch)

/-- What is known of every decoded instruction. -/
theorem decoded_of_mem (h : ins ∈ disasmBytes cs lowering limit pc blob gprs) :
    pc ≤ ins.pc ∧ ins.kind = classify lowering ins.mnemonic ∧ ins.immValue = none := by
  unfold disasmBytes at h
  by_cases hempty : blob = []
  · rw [if_pos hempty] at h
    exact absurd h List.not_mem_nil
  · rw [if_neg hempty] at h
    obtain ⟨insn, hinsn, rfl⟩ := List.mem_map.mp h
    exact ⟨cs.above _ pc insn hinsn, rfl, rfl⟩

end Decoded

end DolphinRe.PpcDisassembly
