import DolphinRe.BreakpointTools

/-!
# Execution control, stepping and compound tools

Most tools refuse to run next to a live watcher. The step family sets a
temporary breakpoint through the breakpoint tools and always tries to remove
it again; the tracing tools do the same around a capture.
-/

namespace DolphinRe.ExecutionTools

open PythonText GdbPackets GdbWire StopReplies EffectProgram SessionMachine GdbClient SessionTools
  BreakpointTools
open PpcDisassembly (DisasmInstruction)

section Control

variable {τ : Type}

/-- `_refuse_if_watcher_running`. -/
def refuseIfWatcherRunning (op : String) : Code τ Unit := do
  if ← watcherAlive then
    throwing (.wrongState
      (op ++ " conflicts with the running stop watcher; call stop_capturing() first"))

/-- Read one register under the lock, for a tool of the given name. -/
def getRegister (op : String) (regnum : ℕ) (label : String) : Code τ ℕ := do
  ensureConnected
  refuseIfWatcherRunning op
  match ← locked (readRegister regnum) with
  | some value => pure value
  | none => throwing (.runtimeError ("stub returned no value for " ++ label))

/-- `get_pc`. -/
def getPc : Code τ ℕ := getRegister "get_pc" 0x40 "PC"

/-- `get_lr`. -/
def getLr : Code τ ℕ := getRegister "get_lr" 0x43 "LR"

/-- `get_ctr`. -/
def getCtr : Code τ ℕ := getRegister "get_ctr" 0x44 "CTR"

/-- `get_gprs`. -/
def getGprs : Code τ (List ℕ) := do
  ensureConnected
  refuseIfWatcherRunning "get_gprs"
  let blob ← locked readRegisters
  pure (parseDolphinGprs blob)

/-- The special-purpose registers `get_sprs` reports. -/
def sprs : List (String × ℕ) :=
  [("pc", PC), ("msr", 0x41), ("cr", 0x42), ("lr", LR), ("ctr", 0x44), ("xer", 0x45)]

/-- Read named registers in turn, skipping those the stub does not report. -/
def readSprs : List (String × ℕ) → List (String × ℕ) → Code τ (List (String × ℕ))
  | [], out => pure out
  | (name, regnum) :: rest, out => do
    match ← readRegister regnum with
    | some value => readSprs rest (out ++ [(name, value)])
    | none => readSprs rest out

/-- `get_sprs`. -/
def getSprs : Code τ (List (String × ℕ)) := do
  ensureConnected
  refuseIfWatcherRunning "get_sprs"
  locked (readSprs sprs [])

/-- `get_fprs`; values are kept as the eight bytes received. -/
def getFprs : Code τ (List (ℕ × List UInt8)) := do
  ensureConnected
  refuseIfWatcherRunning "get_fprs"
  locked (readFprs (List.range 32) [])

/-- The frames up from a stack pointer; an unreadable frame ends the walk. -/
def walkStack : ℕ → ℕ → List (ℕ × ℕ) → Code τ (List (ℕ × ℕ))
  | 0, _, out => pure out
  | n + 1, sp, out =>
    if sp = 0 then pure out
    else do
      match ← (memRead sp 8).attempt with
      | .error _ => pure out
      | .ok blob =>
        let prevSp := fromBytesBig (blob.take 4)
        let savedLr := fromBytesBig ((blob.drop 4).take 4)
        if prevSp ≤ sp then pure (out ++ [(sp, savedLr)])
        else walkStack n prevSp (out ++ [(sp, savedLr)])

/-- `get_stack`. -/
def getStack (depth : ℤ) : Code τ (List (ℕ × ℕ)) := do
  ensureConnected
  let gprs ← getGprs
  walkStack depth.toNat ((gprs[1]?).getD 0) []

/-- `is_paused`. -/
def isPaused : Code τ Bool := do
  let state ← access .getState
  pure (decide (state = .connectedPaused))

/-- What `pause` reports: the PC of an already paused target, or the stop reply. -/
inductive PauseReport (τ : Type) where
  | alreadyPaused (pc : ℕ)
  | stopped (raw : Packet τ) (parsed : StopReply)
  deriving DecidableEq, Repr

/-- The error of a failed responsiveness probe in `pause`. -/
def wedgedBeforePause : PyError := .stubWedged
  ("GDB stub stopped responding to qC. Dolphin may be UI-paused, or the stub got tangled by a " ++
    "prior race. Unpause via the UI if applicable, otherwise relaunch Dolphin.")

/-- Interrupt and wait, so many times; only timeouts are retried. -/
def interruptAttempts : ℕ → Code τ (Packet τ)
  | 0 => throwing (.timeout "pause: stub did not respond to interrupt after 2 attempts")
  | n + 1 => do
    match ← (do interrupt; waitForStop (some 2000) : Code τ (Packet τ)).attempt with
    | .ok reply => pure reply
    | .error e => if isTimeout e then interruptAttempts n else throwing e

/-- The part of `pause` that holds the lock. -/
def pauseLocked : Code τ (Packet τ) := do
  if ← probeResponsive 500 then
    let _ ← drainStopReplies 50
    let reply ← interruptAttempts 2
    access .markPaused
    pure reply
  else
    access (.setState .error)
    throwing wedgedBeforePause

/-- `pause`. -/
def pause : Code τ (PauseReport τ) := do
  ensureConnected
  refuseIfWatcherRunning "pause"
  if (← access .getState) = .connectedPaused then
    let pc ← getPc
    pure (.alreadyPaused pc)
  else
    let reply ← locked pauseLocked
    pure (.stopped reply (parseStopReply reply.text))

/-- The part of `resume` that holds the lock. -/
def resumeLocked : Code τ Unit := do
  continueAsync
  access .markRunning

/-- `resume`. -/
def resume : Code τ Unit := do
  ensureConnected
  refuseIfWatcherRunning "resume"
  if (← access .getState) = .connectedRunning then pure ()
  else locked resumeLocked

end Control

section Stepping

variable {τ α : Type}

/-- `disasm(addr, count=1)[0]`, with any failure turned into `None`. -/
def disasmOneAt (host : Host) (addr : ℤ) : Code τ (Option DisasmInstruction) :=
  Program.handle
    (do
      ensureConnected
      let blob ← memRead addr 4
      let insns ← Program.ofExcept (host.disasmBytes addr blob)
      pure insns.head?)
    fun _ => pure none

/-- What the step tools report. -/
structure StepReport (τ : Type) where
  /-- The stop reply. -/
  raw : Packet τ
  /-- The program counter, from the reply or from the register. -/
  pc : ℤ
  /-- The stack pointer, when reported. -/
  sp : Option ℤ
  /-- The instruction at the program counter. -/
  instruction : Option DisasmInstruction
  deriving DecidableEq, Repr

/-- The reported program counter, or a register read when there is none. -/
def pcOf (parsed : StopReply) : Code τ ℤ :=
  match parsed.pc with
  | some pc => pure pc
  | none => do
    let pc ← getPc
    pure pc

/-- The report on a stop. -/
def stepReport (host : Host) (raw : Packet τ) : Code τ (StepReport τ) := do
  let parsed := parseStopReply raw.text
  let pc ← pcOf parsed
  let insn ← disasmOneAt host pc
  pure ⟨raw, pc, parsed.sp, insn⟩

/-- The part of `step` that holds the lock. -/
def stepLocked : Code τ (Packet τ) := do
  let raw ← stepInstruction (some 5000)
  access .markPaused
  pure raw

/-- `step`. -/
def step (host : Host) : Code τ (StepReport τ) := do
  ensureConnected
  refuseIfWatcherRunning "step"
  let raw ← locked stepLocked
  stepReport host raw

/-- Run a body with a temporary breakpoint, and try to remove it in any case. -/
def withTemporary (addr : ℤ) (body : Code τ α) : Code τ α := do
  let bpId ← addBreakpoint addr
  body.ensuring (Program.handle (do let _ ← remove bpId) fun _ => pure ())

/-- Resume and report the next stop. -/
def runToStop (host : Host) (timeout : ℕ) : Code τ (StepReport τ) := do
  resume
  let raw ← awaitStop timeout
  stepReport host raw

/-- Whether an instruction is `bl` with a static target. -/
def isBl (insn : DisasmInstruction) : Bool :=
  String.toLower (String.ofList insn.mnemonic) = "bl" && insn.branchTarget.isSome

/-- `step_over`; a missing instruction is not handled. -/
def stepOver (host : Host) : Code τ (StepReport τ) := do
  ensureConnected
  refuseIfWatcherRunning "step_over"
  let pc ← getPc
  match ← disasmOneAt host pc with
  | none => throwing (.attributeError "'NoneType' object has no attribute 'get'")
  | some insn =>
    if isBl insn then withTemporary (pc + 4) (runToStop host 10000) else step host

/-- `step_out`. -/
def stepOut (host : Host) : Code τ (StepReport τ) := do
  ensureConnected
  refuseIfWatcherRunning "step_out"
  let lr ← getLr
  withTemporary lr (runToStop host 30000)

/-- What `run_until` reports. -/
inductive RunReport (τ : Type) where
  | timedOut
  | hit (raw : Packet τ) (pc : ℤ) (sp : Option ℤ) (reachedTarget : Bool)
  deriving DecidableEq, Repr

/-- The wait of `run_until`, under the lock; a timeout is a result. -/
def awaitTarget (timeout : ℕ) : Code τ (Option (Packet τ)) := do
  match ← (waitForStop (some timeout)).attempt with
  | .ok raw =>
    access .markPaused
    pure (some raw)
  | .error e => if isTimeout e then pure none else throwing e

/-- The body of `run_until`; only a timeout of the wait itself is reported. -/
def runUntilBody (addr : ℤ) (timeout : ℕ) : Code τ (RunReport τ) := do
  resume
  let outcome ← locked (awaitTarget timeout)
  match outcome with
  | none => pure .timedOut
  | some raw =>
    let parsed := parseStopReply raw.text
    let pc ← pcOf parsed
    pure (.hit raw pc parsed.sp (decide (pc = addr)))

/-- `run_until`. -/
def runUntil (addr : ℤ) (timeout : ℕ) : Code τ (RunReport τ) := do
  ensureConnected
  refuseIfWatcherRunning "run_until"
  withTemporary addr (runUntilBody addr timeout)

end Stepping

section Compound

variable {τ : Type}

/-- Capture a breakpoint's hits for a while, then stop capturing and remove it,
whatever fails on the way. -/
def traceHits (bpId : ℕ) (duration : ℕ) (captures : List String) : Code τ (List Capture) :=
  Program.ensuring
    (do
      captureOnHit bpId (some captures) true
      access (.sleep duration)
      getCaptureLog bpId)
    (do
      Program.handle (do let _ ← stopCapturing (some bpId)) fun _ => pure ()
      Program.handle (do let _ ← remove bpId) fun _ => pure ())

/-- The duration check of the tracing tools, in milliseconds. -/
def checkDuration (duration : ℤ) : Except PyError ℕ :=
  if duration ≤ 0 ∨ 600000 < duration then
    .error (.valueError ("duration_s must be in (0, 600]; got " ++ toString duration ++ "ms"))
  else .ok duration.toNat

/-- The captures of the tracing tools when none are named. -/
def traceCaptures (captures : Option (List String)) : List String :=
  if captures.getD [] = [] then ["gprs", "lr"] else captures.getD []

/-- `trace_writes_to`. -/
def traceWritesTo (addr size duration : ℤ) (captures : Option (List String)) :
    Code τ (List Capture) := do
  let duration ← Program.ofExcept (checkDuration duration)
  let bpId ← addWatchpoint addr size "write"
  traceHits bpId duration (traceCaptures captures)

/-- `trace_calls_to`. -/
def traceCallsTo (entryAddr duration : ℤ) (captures : Option (List String)) :
    Code τ (List Capture) := do
  let duration ← Program.ofExcept (checkDuration duration)
  let bpId ← addBreakpoint entryAddr
  traceHits bpId duration (traceCaptures captures)

end Compound

end DolphinRe.ExecutionTools
