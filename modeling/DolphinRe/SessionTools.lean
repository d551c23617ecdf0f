import DolphinRe.GdbClient
import DolphinRe.PpcDisassembly

/-!
# Connection lifecycle, memory access and the stop watcher

`ensure_connected` is the only way into a connected state. Memory goes through
the attached process when there is one and through the stub otherwise. The
watcher's loop body is one program; its loop is the repetition of that program
for as long as it asks to go on.
-/

namespace DolphinRe.SessionTools

open PythonText GdbPackets GdbWire StopReplies EffectProgram SessionMachine GdbClient
open PpcDisassembly (DisasmInstruction)

/-- What the tools take from outside the repository. -/
structure Host where
  /-- Evaluate a filter expression against a capture. -/
  evalCondition : Str → Capture → Bool
  /-- Decode the instructions in the bytes from an address on. -/
  disasmBytes : ℤ → List UInt8 → Except PyError (List DisasmInstruction)

/-- Default host and port, as printed in messages. -/
def endpoint : String := "localhost:55432"

section Lifecycle

variable {τ : Type}

/-- `_try_attach` never raises; failures degrade to reads through the stub. -/
def tryAttach : Code τ Unit := access .tryAttach

/-- Connect and ask why the target halted; the answer is not looked at. -/
def handshake : Code τ Unit := do
  connect
  let _ ← whyHalted
  access (.setState .connectedPaused)

/-- What `ensure_connected` makes of a failed handshake. -/
def reportUnreachable (e : PyError) : Code τ Unit :=
  if e.isOSError || isConnectionLost e then do
    access (.setState .disconnected)
    throwing (.connectionLost
      ("Cannot reach Dolphin GDB stub at " ++ endpoint ++ ": " ++ e.message))
  else throwing e

/-- The resume after a fresh connection; its failure is logged only. -/
def resumeOnConnect : Code τ Unit := do
  if ← access .autoResumeEnabled then
    Program.handle
      (do
        locked continueAsync
        access (.setState .connectedRunning))
      fun _ => pure ()

/-- `ensure_connected`. -/
def ensureConnected : Code τ Unit := do
  if (← access .getState).isConnected then pure ()
  else
    Program.handle handshake reportUnreachable
    tryAttach
    resumeOnConnect

/-- `disconnect` without a detach packet. -/
def disconnect : Code τ Unit := do
  if ← access .isAttached then access .detachProcess
  if ← access .isSockOpen then access .close
  access (.setState .disconnected)
  access .clearBreakpoints

/-- `on_connection_lost`. -/
def onConnectionLost : Code τ Unit := disconnect

/-- `session.watcher is not None and session.watcher.is_alive()`. -/
def watcherAlive : Code τ Bool := do
  match ← access .getWatcher with
  | none => pure false
  | some thread => access (.isAlive thread)

/-- `alloc_bp_id` and `register_bp` with a fresh specification. -/
def registerNew (addr : ℤ) (kind : BpKind) (size : ℤ) : Code τ ℕ := do
  let bpId ← access .allocBpId
  access (.registerBp {bpId := bpId, addr := addr, kind := kind, size := size})
  pure bpId

/-- One tick of the auto-connect worker. -/
def autoConnectTick : Code τ Unit := do
  if (← access .getState) = .disconnected then
    ensureConnected.handle fun _ => pure ()

end Lifecycle

/-- The two emulated memory regions. -/
inductive Region where
  | mem1
  | mem2
  deriving DecidableEq, Repr

/-- First address of MEM1. -/
def MEM1_BASE : ℤ := 0x80000000
/-- First address behind MEM1. -/
def MEM1_END : ℤ := 0x81800000
/-- First address of MEM2. -/
def MEM2_BASE : ℤ := 0x90000000
/-- First address behind MEM2. -/
def MEM2_END : ℤ := 0x94000000

/-- A routed address: region, offset and bytes left in the region. -/
structure RoutedAddress where
  /-- Region. -/
  region : Region
  /-- Offset in the region. -/
  offset : ℤ
  /-- Bytes from the offset to the end of the region. -/
  size : ℤ
  deriving DecidableEq, Repr

/-- An address in messages. -/
def showAddr (addr : ℤ) : String := "0x" ++ String.ofList (formatHex8 addr)

/-- `route`. -/
def route (addr size : ℤ) : Except PyError RoutedAddress :=
  if size ≤ 0 then .error (.valueError ("size must be positive, got " ++ toString size))
  else if MEM1_BASE ≤ addr ∧ addr < MEM1_END then
    if MEM1_END < addr + size then
      .error (.addressOutOfRange
        (showAddr addr ++ "+" ++ toString size ++ " crosses MEM1 end " ++ showAddr MEM1_END))
    else .ok ⟨.mem1, addr - MEM1_BASE, MEM1_END - addr⟩
  else if MEM2_BASE ≤ addr ∧ addr < MEM2_END then
    if MEM2_END < addr + size then
      .error (.addressOutOfRange
        (showAddr addr ++ "+" ++ toString size ++ " crosses MEM2 end " ++ showAddr MEM2_END))
    else .ok ⟨.mem2, addr - MEM2_BASE, MEM2_END - addr⟩
  else .error (.addressOutOfRange (showAddr addr ++ " is not in MEM1 or MEM2"))

section Memory

variable {τ : Type}

/-- `GDBMemoryBackend.read`. -/
def gdbRead (addr size : ℤ) : Code τ (List UInt8) := do
  let _ ← Program.ofExcept (route addr size)
  readMem addr size

/-- `GDBMemoryBackend.write`. -/
def gdbWrite (addr : ℤ) (data : List UInt8) : Code τ Unit := do
  let _ ← Program.ofExcept (route addr data.length)
  writeMem addr data

/-- `session.mem.read`: the attached process if there is one, the stub otherwise. -/
def memRead (addr size : ℤ) : Code τ (List UInt8) := do
  if ← access .isAttached then
    let _ ← Program.ofExcept (route addr size)
    .perform (.hostRead addr size.toNat) .ofExcept
  else gdbRead addr size

/-- `session.mem.write`. -/
def memWrite (addr : ℤ) (data : List UInt8) : Code τ Unit := do
  if ← access .isAttached then
    let _ ← Program.ofExcept (route addr data.length)
    .perform (.hostWrite addr data) .ofExcept
  else gdbWrite addr data

/-- The memory tools' `_read`. -/
def readMemory (addr size : ℤ) : Code τ (List UInt8) := do
  ensureConnected
  memRead addr size

/-- The memory tools' `_write`. -/
def writeMemory (addr : ℤ) (data : List UInt8) : Code τ Unit := do
  ensureConnected
  memWrite addr data

/-- `health`: probe an open socket, and read the PC of an idle paused target. -/
def health : Code τ Unit := do
  if ← access .isSockOpen then
    let alive ← locked (probeResponsive 500)
    if alive then
      if (← access .getState) = .connectedPaused then
        if !(← watcherAlive) then
          Program.handle (do let _ ← locked (readRegister PC)) fun _ => pure ()

end Memory

section Watcher

variable {τ : Type}

/-- `_any_auto_continue`. -/
def anyAutoContinue (breakpoints : List BreakpointSpec) : Bool :=
  breakpoints.any BreakpointSpec.autoContinue

/-- Exceptions after which a capture is kept as it is. -/
def isReadFailure (e : PyError) : Bool := isConnectionLost e || e.isOSError

/-- The `gprs` part of a capture, with the argument registers flattened. -/
def captureGprs (spec : BreakpointSpec) (capture : Capture) : Code τ Capture := do
  if .gprs ∈ spec.captures then
    let gprs := parseDolphinGprs (← readRegisters)
    pure {capture with
      gprs := some gprs
      args := some ((List.range 8).map fun i => gprs[i + 3]?)}
  else pure capture

/-- The `lr` part of a capture. -/
def captureLr (spec : BreakpointSpec) (capture : Capture) : Code τ Capture := do
  if .lr ∈ spec.captures ∨ .stack ∈ spec.captures then
    match ← readRegister LR with
    | some lr => pure {capture with lr := some lr}
    | none => pure capture
  else pure capture

/-- Read floating-point registers; only eight-byte replies are kept. -/
def readFprs : List ℕ → List (ℕ × List UInt8) → Code τ (List (ℕ × List UInt8))
  | [], fprs => pure fprs
  | i :: rest, fprs => do
    match ← readRegisterBytes (0x20 + i) with
    | some raw => if raw.length = 8 then readFprs rest (fprs ++ [(i, raw)]) else readFprs rest fprs
    | none => readFprs rest fprs

/-- The `fprs` part of a capture. -/
def captureFprs (spec : BreakpointSpec) (capture : Capture) : Code τ Capture := do
  if .fprs ∈ spec.captures then
    let fprs ← readFprs (List.range 32) []
    pure {capture with fprs := some fprs}
  else pure capture

/-- Run the parts in order; a lost connection or socket error keeps what was read. -/
def collect : List (Capture → Code τ Capture) → Capture → Code τ Capture
  | [], capture => pure capture
  | part :: parts, capture => do
    match ← (part capture).attempt with
    | .ok capture => collect parts capture
    | .error e => if isReadFailure e then pure capture else throwing e

/-- `_handle_stop`: whether the stop belonged to a capturing breakpoint. -/
def handleStop (host : Host) (raw : Packet τ) : Code τ Bool := do
  match ← access (.matchBp raw) with
  | none => pure false
  | some matchedId =>
    match lookup matchedId (← access .getBreakpoints) with
    | none => pure false
    | some spec =>
      if spec.autoContinue then
        let capture ← collect [captureGprs spec, captureLr spec, captureFprs spec]
          (Capture.ofStop (parseStopReply raw.text))
        -- an empty expression counts as none
        if spec.condition.any fun expr => expr ≠ [] ∧ host.evalCondition expr capture = false then
          pure true
        else do
          access (.appendLog spec.bpId capture raw)
          pure true
      else pure false

/-- What one turn of the watcher's loop decides. -/
inductive Turn where
  /-- The loop goes on. -/
  | again
  /-- `run` returns. -/
  | leave
  deriving DecidableEq, Repr

/-- The part of a turn that holds the lock. -/
def watcherLocked (host : Host) (thread : ℕ) : Code τ Turn := do
  if ← access (.stopRequested thread) then pure .leave
  else
    match ← (waitForStop (some 200)).attempt with
    | .error e =>
      if isTimeout e then pure .again
      else if isConnectionLost e then pure .leave
      else throwing e
    | .ok raw =>
      if ← handleStop host raw then
        match ← continueAsync.attempt with
        | .ok () => pure .again
        | .error e => if isConnectionLost e || e.isOSError then pure .leave else throwing e
      else do
        access (.pushPending raw)
        access .markPaused
        pure .leave

/-- One turn of the loop of `StopWatcher.run`. -/
def watcherTurn (host : Host) (thread : ℕ) : Code τ Turn := do
  if ← access (.stopRequested thread) then pure .leave
  else if anyAutoContinue (← access .getBreakpoints) then locked (watcherLocked host thread)
  else pure .leave

/-- A turn of a live thread; the thread ends when it leaves or raises. -/
def watcherIteration (host : Host) (thread : ℕ) : Code τ Unit := do
  if ← access (.isAlive thread) then
    match ← (watcherTurn host thread).attempt with
    | .ok .again => pure ()
    | _ => access (.exitWatcher thread)

/-- `ensure_watcher_running`. -/
def ensureWatcherRunning : Code τ Unit := do
  if ← watcherAlive then pure () else access .startWatcher

/-- `stop_watcher`: signal, wait briefly, and forget the thread either way. -/
def stopWatcher : Code τ Unit := do
  match ← access .getWatcher with
  | none => pure ()
  | some thread =>
    access (.requestStop thread)
    access (.join thread)
    access .clearWatcher

end Watcher

end DolphinRe.SessionTools
