import DolphinRe.ExecutionTools
import DolphinRe.ImmediatePairs
import DolphinRe.MemoryTools

/-!
# Disassembly of memory and traces of instructions

The disassembly tool reads words, decodes them and marks the pairs of immediate
loads. A trace records the instruction at each program counter, and more state
where that is asked for, and steps until a condition holds, a step fails or
there are enough entries.
-/

namespace DolphinRe.TraceTools

open PythonText GdbPackets GdbWire StopReplies EffectProgram SessionMachine GdbClient SessionTools ExecutionTools
  MemoryTools RadixNumerals MnemonicKinds PpcOperands PpcDisassembly ImmediatePairs

/-- The disassembling library, and what the interpreter knows of letters, digits and numerals. -/
structure Disassembler where
  /-- The disassembling library. -/
  cs : Capstone
  /-- Letters and digits. -/
  tables : CharTables
  /-- The limit on decimal numerals. -/
  limit : DigitLimit

section Disassembly

variable {τ : Type} (d : Disassembler)

/-- `disasm_bytes` and `post_process_imm_load_pairs`. -/
def Disassembler.decode (addr : ℤ) (blob : List UInt8) (gprs : List (Str × ℕ)) : List DisasmInstruction :=
  postProcessImmLoadPairs d.tables d.limit (disasmBytes d.cs d.tables.toLowerCase d.limit addr blob gprs)

/-- The register dump of `disasm`; without one the dictionary is empty. -/
def dumpGprs (withGprs : Bool) : Code τ (List (Str × ℕ)) :=
  if withGprs then
    Program.handle (do let gprs ← getGprs; pure (gprDict gprs)) fun _ => pure []
  else pure []

/-- `disasm`. -/
def disasm (addr count : ℤ) (withGprs : Bool) : Code τ (List DisasmInstruction) :=
  if count ≤ 0 then pure []
  else do
    ensureConnected
    let blob ← memRead addr (count * 4)
    let gprs ← dumpGprs withGprs
    pure (d.decode addr blob gprs)

/-- The disassembler as the step tools see it. -/
def Disassembler.host : Host where
  evalCondition _ _ := true
  disasmBytes addr blob := .ok (d.decode addr blob [])

/-- The step tools call `disasm` for one instruction without registers. -/
theorem disasmOneAt_eq (addr : ℤ) : (disasmOneAt d.host addr : Code τ (Option DisasmInstruction)) =
    Program.handle (do let insns ← disasm d addr 1 false; pure insns.head?) fun _ => pure none := by
  have hbody : ((do
      ensureConnected
      let blob ← memRead addr 4
      let insns ← Program.ofExcept (d.host.disasmBytes addr blob)
      pure insns.head?) : Code τ (Option DisasmInstruction)) =
      (do let insns ← disasm d addr 1 false; pure insns.head?) := by
    unfold disasm
    rw [if_neg (by decide)]
    simp only [Program.bind_eq, Program.bind_assoc, Program.pure_eq]
    rfl
  unfold disasmOneAt
  rw [hbody]

end Disassembly

section Traces

variable {τ : Type} (d : Disassembler)

/-- One entry of a trace. -/
structure TraceEntry where
  /-- Its number, from zero on. -/
  step : ℕ
  /-- The program counter. -/
  pc : ℕ
  /-- The instruction there. -/
  instruction : Option DisasmInstruction
  /-- The general registers, if captured. -/
  gprs : Option (List ℕ)
  /-- The floating point registers, if captured. -/
  fprs : Option (List (ℕ × List UInt8))
  /-- The word at the effective address, if captured. -/
  memValue : Option ℕ
  deriving DecidableEq, Repr

/-- The `gprs` part of an entry. -/
def traceGprs (capture : List String) : Code τ (Option (List ℕ)) :=
  if "gprs" ∈ capture then do
    let gprs ← getGprs
    pure (some gprs)
  else pure none

/-- The `fprs` part of an entry, for floating-point arithmetic only. -/
def traceFprs (capture : List String) (insn : Option DisasmInstruction) :
    Code τ (Option (List (ℕ × List UInt8))) :=
  if "fprs" ∈ capture ∧ insn.any fun insn => insn.kind = .fpArith then do
    let fprs ← getFprs
    pure (some fprs)
  else pure none

/-- The `mem_operands` part of an entry: the word at the effective address, if it can be read. -/
def traceOperand (capture : List String) (insn : Option DisasmInstruction) : Code τ (Option ℕ) :=
  match insn.bind DisasmInstruction.ea with
  | none => pure none
  | some ea =>
    if "mem_operands" ∈ capture then
      Program.handle
        (do
          let (_, _, hex) ← readMem readMemory ea 4
          let blob ← Program.ofExcept (fromHexOrRaise hex)
          pure (some (fromBytesBig blob)))
        fun _ => pure none
    else pure none

/-- The entry for the current program counter. -/
def traceEntry (capture : List String) (i : ℕ) : Code τ TraceEntry := do
  let pc ← getPc
  let insns ← disasm d pc 1 (decide ("gprs" ∈ capture))
  let gprs ← traceGprs capture
  let fprs ← traceFprs capture insns.head?
  let memValue ← traceOperand capture insns.head?
  pure ⟨i, pc, insns.head?, gprs, fprs, memValue⟩

/-- The stop conditions. -/
def stopsAt (untilPc : Option ℤ) (untilBlr : Bool) (pc : ℕ) (insn : Option DisasmInstruction) : Bool :=
  untilPc.any (fun addr => (pc : ℤ) = addr) ||
    (untilBlr && insn.any fun insn =>
      decide (d.tables.lower insn.mnemonic ∈ ["blr".toList, "bctr".toList]))

/-- The loop of `trace_until`; the conditions are tested once the entry is recorded. -/
def traceSteps (untilPc : Option ℤ) (untilBlr : Bool) (capture : List String) :
    ℕ → ℕ → List TraceEntry → Code τ (List TraceEntry)
  | 0, _, timeline => pure timeline
  | n + 1, i, timeline => do
    let entry ← traceEntry d capture i
    if stopsAt d untilPc untilBlr entry.pc entry.instruction then pure (timeline ++ [entry])
    else
      match ← (step d.host).attempt with
      | .ok _ => traceSteps untilPc untilBlr capture n (i + 1) (timeline ++ [entry])
      | .error _ => pure (timeline ++ [entry])

/-- What `trace_until` captures when nothing is named. -/
def stepCaptures (capture : Option (List String)) : List String :=
  if capture.getD [] = [] then ["gprs"] else capture.getD []

/-- `trace_until`. -/
def traceUntil (untilPc : Option ℤ) (untilBlr : Bool) (maxSteps : ℤ) (capture : Option (List String)) :
    Code τ (List TraceEntry) :=
  if maxSteps ≤ 0 then pure []
  else if untilPc = none ∧ untilBlr = false ∧ 10000 < maxSteps then
    throwing (.valueError "trace_until with no until_pc/until_blr is capped at max_steps=10000")
  else traceSteps d untilPc untilBlr (stepCaptures capture) maxSteps.toNat 0 []

end Traces

end DolphinRe.TraceTools
