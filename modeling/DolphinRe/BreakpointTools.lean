import DolphinRe.SessionTools

/-!
# Breakpoint and watchpoint tools

Changes run between a quiescing pause and a resume when the target was
running. The registry is updated after an insertion and before a deletion.
-/

namespace DolphinRe.BreakpointTools

open PythonText GdbPackets GdbWire StopReplies EffectProgram SessionMachine GdbClient SessionTools

section Modify

variable {τ α : Type}

/-- Step 2 of quiescing: consume stops until one was seen and a wait fails, or
until the deadline. -/
def consumeStops : ℕ → Bool → Code τ Unit
  | 0, _ => pure ()
  | n + 1, sawOne => do
    match ← (waitForStop (some 100)).attempt with
    | .ok _ => consumeStops n true
    | .error _ => if sawOne then pure () else consumeStops n false

/-- The reply shapes that end the fence. -/
def isFenceReply (reply : Str) : Bool :=
  startsWith "QC".toList reply || reply = [] || startsWith "E".toList reply

/-- Step 4 of quiescing: drop packets until the fence reply or the deadline. -/
def awaitFence : ℕ → Code τ Unit
  | 0 => pure ()
  | n + 1 => do
    match ← (readPacketFromWire (some 200)).attempt with
    | .error _ => awaitFence n
    | .ok packet => if isFenceReply packet.text then pure () else awaitFence n

/-- The `qC` fence; any failure is logged and ignored. -/
def fence : Code τ Unit :=
  Program.handle
    (do
      sendPacket .currentThread
      let n ← access (.turns 1000)
      awaitFence n)
    fun _ => pure ()

/-- `_quiesce_for_modify`. -/
def quiesceForModify : Code τ Unit := do
  interrupt.handle fun _ => pure ()
  let n ← access (.turns 1000)
  consumeStops n false
  let _ ← drainStopReplies 50
  fence
  access .markPaused

/-- The error of a failed responsiveness probe before a modification. -/
def wedgedBeforeModify : PyError := .stubWedged
  ("GDB stub stopped responding to qC. Dolphin is likely UI-paused or the stub got tangled by a " ++
    "prior race. Unpause via the UI if applicable, otherwise relaunch Dolphin (stub listener is " ++
    "one-shot per launch).")

/-- Entry of `_safe_to_modify` when the target was running. -/
def pauseForModify : Code τ Unit := do
  if ← probeResponsive 500 then
    quiesceForModify
    let _ ← drainStopReplies 100
    access .markPaused
  else
    access (.setState .error)
    throwing wedgedBeforeModify

/-- Exit of `_safe_to_modify` when the target was running. -/
def resumeAfterModify : Code τ Unit := do
  let _ ← drainStopReplies 50
  continueAsync
  access .markRunning

/-- The part of `_safe_to_modify` that holds the lock. -/
def modifyLocked (body : Code τ α) : Code τ α := do
  if (← access .getState) = .connectedRunning then
    pauseForModify
    body.ensuring resumeAfterModify
  else body

/-- `with _safe_to_modify(session): body`. -/
def safeToModify (body : Code τ α) : Code τ α := locked (modifyLocked body)

/-- `add_breakpoint`; it answers with the new id. -/
def addBreakpoint (addr : ℤ) : Code τ ℕ := do
  ensureConnected
  let _ ← safeToModify (addSwBreakpoint addr)
  registerNew addr .swBp 4

/-- The watchpoint kind named by `on`, compared in lower case. -/
def watchKind (on : String) : Except PyError BpKind :=
  if on.toLower = "write" then .ok .writeWp
  else if on.toLower = "read" then .ok .readWp
  else if on.toLower = "access" then .ok .accessWp
  else .error (.valueError
    ("invalid on='" ++ on.toLower ++ "'; expected 'write', 'read', or 'access'"))

/-- The insertion made by `add_watchpoint`; a bad `on` raises inside the context. -/
def insertWatchpoint (addr size : ℤ) (on : String) : Code τ BpKind := do
  let kind ← Program.ofExcept (watchKind on)
  let _ ← setBreak true kind addr size
  pure kind

/-- `add_watchpoint`. -/
def addWatchpoint (addr size : ℤ) (on : String) : Code τ ℕ := do
  ensureConnected
  let kind ← safeToModify (insertWatchpoint addr size on)
  registerNew addr kind size

/-- The deletion packet for a registered breakpoint; breakpoints always cover
four bytes. -/
def deletePoint (spec : BreakpointSpec) : Code τ (Packet τ) :=
  match spec.kind with
  | .swBp => removeSwBreakpoint spec.addr
  | .hwBp => removeHwBreakpoint spec.addr
  | .writeWp => removeWriteWatchpoint spec.addr spec.size
  | .readWp => removeReadWatchpoint spec.addr spec.size
  | .accessWp => removeAccessWatchpoint spec.addr spec.size

/-- The deletion made by `remove`. Stub errors and timeouts are swallowed, since
the registry is already cleared. -/
def deleteFromStub (spec : BreakpointSpec) : Code τ Unit :=
  Program.handle (do let _ ← safeToModify (deletePoint spec))
    fun e => if isStubError e || isTimeout e then pure () else throwing e

/-- `remove`; it answers whether the id was registered. -/
def remove (bpId : ℕ) : Code τ Bool := do
  ensureConnected
  match ← access (.unregisterBp bpId) with
  | none => pure false
  | some spec =>
    deleteFromStub spec
    pure true

/-- The loop of `remove_all`. -/
def removeEach : List ℕ → List ℕ → Code τ (List ℕ)
  | [], removed => pure removed
  | bpId :: rest, removed => do
    if ← remove bpId then removeEach rest (removed ++ [bpId]) else removeEach rest removed

/-- `remove_all`. -/
def removeAll : Code τ (List ℕ) := do
  ensureConnected
  let breakpoints ← access .getBreakpoints
  removeEach (breakpoints.map BreakpointSpec.bpId) []

end Modify

section Hits

variable {τ : Type}

/-- What `wait_for_hit` reports; its signal, pc, sp and watch fields are those
of the parsed reply. -/
structure Hit (τ : Type) where
  /-- The stop reply. -/
  raw : Packet τ
  /-- The parsed stop reply. -/
  parsed : StopReply
  /-- Attribution. -/
  matchedBpId : Option ℕ
  deriving DecidableEq, Repr

/-- Wait for a stop and mark the session paused. -/
def awaitLocked (timeout : ℕ) : Code τ (Packet τ) := do
  let raw ← waitForStop (some timeout)
  access .markPaused
  pure raw

/-- The same under the lock. -/
def awaitStop (timeout : ℕ) : Code τ (Packet τ) := locked (awaitLocked timeout)

/-- `wait_for_hit`. -/
def waitForHit (timeout : ℕ) : Code τ (Hit τ) := do
  ensureConnected
  if ← watcherAlive then
    throwing (.wrongState
      "wait_for_hit conflicts with the running stop watcher; call stop_capturing() first")
  else
    let state ← access .getState
    if state ≠ .connectedRunning then
      throwing (.wrongState
        ("wait_for_hit needs CONNECTED_RUNNING; current state is " ++ state.value))
    else
      let raw ← awaitStop timeout
      let matched ← access (.matchBp raw)
      pure ⟨raw, parseStopReply raw.text, matched⟩

end Hits

section Capturing

variable {τ : Type}

/-- The capture keys a client may name. -/
def captureKey (name : String) : Option CaptureKey :=
  if name = "gprs" then some .gprs
  else if name = "fprs" then some .fprs
  else if name = "lr" then some .lr
  else if name = "stack" then some .stack
  else none

/-- A list of names in messages. -/
def showNames (names : List String) : String :=
  "[" ++ String.intercalate ", " (names.map fun name => "'" ++ name ++ "'") ++ "]"

/-- Check the requested captures; an absent or empty list means the general registers. -/
def checkCaptures (captures : Option (List String)) : Except PyError (List CaptureKey) :=
  let names := if (captures.getD []) = [] then ["gprs"] else captures.getD []
  let unknown := names.filter fun name => (captureKey name).isNone
  if unknown = [] then .ok (names.filterMap captureKey)
  else .error (.captureError
    ("unknown capture keys " ++ showNames (unknown.dedup.mergeSort fun a b => decide (a ≤ b)) ++
      "; allowed: " ++ showNames ["fprs", "gprs", "lr", "stack"]))

/-- The error for an id that is not registered. -/
def notRegistered (bpId : ℕ) : PyError :=
  .breakpointNotFound ("no BP/WP registered with id " ++ toString bpId)

/-- `capture_on_hit`. -/
def captureOnHit (bpId : ℕ) (captures : Option (List String)) (autoResume : Bool) :
    Code τ Unit := do
  ensureConnected
  if (lookup bpId (← access .getBreakpoints)).isNone then throwing (notRegistered bpId)
  else
    let keys ← Program.ofExcept (checkCaptures captures)
    access (.setCaptures bpId keys)
    access (.setAutoContinue bpId true)
    let state ← access .getState
    -- the resume is not made under the lock
    if autoResume ∧ state = .connectedPaused then
      continueAsync
      access .markRunning
    ensureWatcherRunning

/-- `get_capture_log` without a filter. -/
def getCaptureLog (bpId : ℕ) : Code τ (List Capture) := do
  match lookup bpId (← access .getBreakpoints) with
  | none => throwing (notRegistered bpId)
  | some spec => pure spec.log

/-- Clear the flag on every listed breakpoint. -/
def clearAutoContinue : List ℕ → Code τ Unit
  | [] => pure ()
  | bpId :: rest => do
    access (.setAutoContinue bpId false)
    clearAutoContinue rest

/-- The ids whose flag `stop_capturing` clears. -/
def affectedBy (bpId : Option ℕ) (breakpoints : List BreakpointSpec) :
    Except PyError (List ℕ) :=
  match bpId with
  | none => .ok ((breakpoints.filter BreakpointSpec.autoContinue).map BreakpointSpec.bpId)
  | some id => if (lookup id breakpoints).isNone then .error (notRegistered id) else .ok [id]

/-- `stop_capturing`. -/
def stopCapturing (bpId : Option ℕ) : Code τ (List ℕ) := do
  let affected ← Program.ofExcept (affectedBy bpId (← access .getBreakpoints))
  clearAutoContinue affected
  if !anyAutoContinue (← access .getBreakpoints) then stopWatcher
  pure affected

end Capturing

end DolphinRe.BreakpointTools
