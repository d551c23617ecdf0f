import DolphinRe.ToolStructure

/-!
# Which accesses the tools make

Most client code neither touches the registry nor closes the connection, and
sends messages of a few kinds only. These footprints turn a fact about single
accesses into a fact about whole tools.
-/

namespace DolphinRe.Footprints

open PythonText GdbPackets GdbWire StopReplies EffectProgram SessionMachine GdbClient SessionTools
  BreakpointTools ExecutionTools ToolStructure

/-- Accesses that leave the registry alone, do not close the connection, and
send the given messages only. The session state and the socket timeout are
assigned only when `sets` says so, the session is marked running only when
`marks` does, and the lock is taken only when `locks` does. -/
def restrained {τ : Type} (sets marks locks : Bool) (sends : Sent → Prop) : Op τ → Prop
  | .send message => sends message
  | .setState _ => cond sets True False
  | .setTimeout _ => cond sets True False
  | .markRunning => cond marks True False
  | .acquire => cond locks True False
  | .release => cond locks True False
  | .registerBp _ => False
  | .unregisterBp _ => False
  | .clearBreakpoints => False
  | .setCaptures _ _ => False
  | .setAutoContinue _ _ => False
  | .appendLog _ _ _ => False
  | .pushPending _ => False
  | .close => False
  | _ => True

/-- Breakpoint packets. -/
def isModify : Sent → Bool
  | .packet (.setBreak _ _ _ _) => true
  | _ => false

/-- Other messages leave the armed points alone. -/
theorem armedAfter_of_not_modify {message : Sent} (h : isModify message = false)
    (armed : List Point) : armedAfter message armed = armed := by
  cases message with
  | interrupt => rfl
  | packet command => cases command <;> first | rfl | simp [isModify] at h

/-- Accesses that change neither which points are registered nor which are armed. -/
def spares {τ : Type} : Op τ → Prop
  | .send message => isModify message = false
  | .registerBp _ => False
  | .unregisterBp _ => False
  | .clearBreakpoints => False
  | _ => True

/-- Restrained accesses that send no breakpoint packet. -/
abbrev calm {τ : Type} : Op τ → Prop := restrained true true true fun message => isModify message = false

/-- Calm accesses that assign neither the session state nor the timeout. -/
abbrev mild {τ : Type} : Op τ → Prop := restrained false false true fun message => isModify message = false

/-- What a watcher thread does is calm. -/
theorem calm_of_mild {τ : Type} {o : Op τ} (h : mild o) : calm o := by
  cases o <;> first | exact h | trivial

/-- What is calm spares the breakpoints. -/
theorem spares_of_calm {τ : Type} {o : Op τ} (h : calm o) : spares o := by
  cases o <;> first | exact h | trivial

section Accesses

variable {τ α β : Type} {P : Op τ → Prop}

/-- A single access uses itself. -/
theorem uses_access {o : Op τ} (h : P o) : (access o).Uses P := ⟨h, fun _ => trivial⟩

/-- So does one that goes on. -/
theorem uses_then {o : Op τ} (h : P o) {f : o.Answer → Code τ α} (hf : ∀ answer, (f answer).Uses P) :
    ((access o).bind f).Uses P :=
  Program.uses_bind (uses_access h) hf

/-- Sending a message is one access. -/
theorem uses_sendall {message : Sent} (h : P (.send message)) : (sendall message).Uses P :=
  ⟨h, fun r => Program.uses_ofExcept (S := signature τ) P r⟩

/-- So is waiting for its acknowledgement. -/
theorem uses_consumeAck (h : P .consumeAck) : (consumeAck : Code τ Unit).Uses P :=
  ⟨h, fun r => Program.uses_ofExcept (S := signature τ) P r⟩

/-- So is reading a packet. -/
theorem uses_readPacketFromWire {timeout : Option ℕ} (h : P (.readPacketFromWire timeout)) :
    (readPacketFromWire timeout).Uses P :=
  ⟨h, fun r => Program.uses_ofExcept (S := signature τ) P r⟩

/-- So is opening a connection. -/
theorem uses_connect (h : P .connect) : (connect : Code τ Unit).Uses P :=
  ⟨h, fun r => Program.uses_ofExcept (S := signature τ) P r⟩

/-- The lock is taken and given back around the body. -/
theorem uses_locked {body : Code τ α} (hacquire : P .acquire) (hrelease : P .release)
    (hbody : body.Uses P) : (locked body).Uses P :=
  uses_then hacquire fun _ => Program.uses_ensuring hbody (uses_access hrelease)

/-- Calm code spares the points. -/
theorem uses_spares {p : Code τ α} (hp : p.Uses calm) : p.Uses spares :=
  hp.mono fun _ => spares_of_calm

end Accesses

section Client

variable {τ : Type} {sets marks locks : Bool} {sends : Sent → Prop}

/-- A packet is sent and acknowledged. -/
theorem uses_sendPacket {command : Command} (h : sends (.packet command)) :
    (sendPacket command : Code τ Unit).Uses (restrained sets marks locks sends) :=
  Program.uses_bind (uses_sendall h) fun _ => uses_consumeAck trivial

/-- Commands make three kinds of accesses. -/
theorem commands_use {P : Op τ → Prop} {allowed : Command → Prop}
    (hsend : ∀ command, allowed command → P (.send (.packet command))) (hack : P .consumeAck)
    (hread : P (.readPacketFromWire none)) :
    CommandPieces allowed fun _ (p : Code τ _) => p.Uses P where
  parts := Program.uses_compositional (S := signature τ) P
  cmd command hcommand := by
    refine Program.uses_bind ?_ fun _ => uses_readPacketFromWire hread
    exact Program.uses_bind (uses_sendall (hsend command hcommand)) fun _ => uses_consumeAck hack

/-- Commands are restrained. -/
theorem restrained_commands : CommandPieces (fun command => sends (.packet command))
    fun _ (p : Code τ _) => p.Uses (restrained sets marks locks sends) :=
  commands_use (fun _ h => h) trivial trivial

/-- A command is a packet and its reply. -/
theorem uses_cmd {command : Command} (h : sends (.packet command)) :
    (cmd command : Code τ (Packet τ)).Uses (restrained sets marks locks sends) :=
  restrained_commands.cmd command h

/-- A stop comes from the stash or off the wire. -/
theorem uses_waitForStop (timeout : Option ℕ) :
    (waitForStop timeout : Code τ (Packet τ)).Uses (restrained sets marks locks sends) := by
  refine uses_then trivial fun packet => ?_
  cases packet with
  | none => exact uses_readPacketFromWire trivial
  | some packet => trivial

/-- Accesses of a responsiveness probe, its timeouts apart. -/
def probes {τ : Type} : Op τ → Prop
  | .isSockOpen => True
  | .getTimeout => True
  | .send message => message = .packet .currentThread
  | .consumeAck => True
  | .readPacketFromWire _ => True
  | _ => False

/-- A probe asks for the thread and sets the timeout twice. -/
theorem uses_probe {P : Op τ → Prop} (hP : ∀ o, probes o → P o)
    (htimeout : ∀ timeout, P (.setTimeout timeout)) (timeout : ℕ) :
    (probeResponsive timeout : Code τ Bool).Uses P := by
  refine uses_then (hP .isSockOpen trivial) fun isOpen => ?_
  cases isOpen with
  | false => trivial
  | true =>
    refine uses_then (hP .getTimeout trivial) fun old => uses_then (htimeout timeout) fun _ => ?_
    refine Program.uses_ensuring (Program.uses_handle ?_ fun e => ?_) (uses_access (htimeout old))
    · refine Program.uses_bind (Program.uses_bind (uses_sendall (hP _ rfl)) fun _ => ?_) fun _ => ?_
      · exact uses_consumeAck (hP _ trivial)
      · exact Program.uses_bind (uses_readPacketFromWire (hP _ trivial)) fun _ => trivial
    · split_ifs <;> trivial

/-- What a probe does sends one packet. -/
theorem restrained_of_probes (h : sends (.packet .currentThread)) {o : Op τ} (ho : probes o) :
    restrained sets marks locks sends o := by
  cases o with
  | send message =>
    have hmessage : message = .packet .currentThread := ho
    rw [hmessage]
    exact h
  | _ => trivial

/-- A probe only sends that packet. -/
theorem uses_probeResponsive (h : sends (.packet .currentThread)) (timeout : ℕ) :
    (probeResponsive timeout : Code τ Bool).Uses (restrained true marks locks sends) :=
  uses_probe (P := restrained true marks locks sends) (fun _ ho => restrained_of_probes h ho)
    (fun _ => trivial) timeout

/-- Draining the wire reads packets. -/
theorem uses_drainWire {P : Op τ → Prop} (hread : P (.readPacketFromWire (some 20))) (n : ℕ)
    (out : List (Packet τ)) : (drainWire n out).Uses P := by
  induction n generalizing out with
  | zero => trivial
  | succ n ih =>
    refine Program.uses_bind (Program.uses_attempt (uses_readPacketFromWire hread)) fun r => ?_
    cases r with
    | ok packet => exact ih _
    | error e =>
      dsimp only
      split_ifs <;> trivial

/-- Draining the stops takes the stash first. -/
theorem uses_drainStopReplies {P : Op τ → Prop} {maxWait : ℕ} (htake : P .takePending)
    (hturns : P (.turns maxWait)) (hread : P (.readPacketFromWire (some 20))) :
    (drainStopReplies maxWait : Code τ (List (Packet τ))).Uses P :=
  uses_then htake fun out => uses_then hturns fun n => uses_drainWire hread n out

/-- Continuing sends one packet. -/
theorem uses_continueAsync (h : sends (.packet .resume)) :
    (continueAsync : Code τ Unit).Uses (restrained sets marks locks sends) :=
  uses_sendPacket h

/-- Reading a register sends one packet. -/
theorem uses_readRegister (regnum : ℕ) (h : sends (.packet (.readRegister regnum))) :
    (readRegister regnum : Code τ (Option ℕ)).Uses (restrained sets marks locks sends) :=
  restrained_commands.readRegister regnum h

/-- So does reading all of them. -/
theorem uses_readRegisters (h : sends (.packet .readRegisters)) :
    (readRegisters : Code τ (List UInt8)).Uses (restrained sets marks locks sends) :=
  restrained_commands.readRegisters h

end Client

section Tools

variable {τ : Type} {sets marks locks : Bool} {sends : Sent → Prop}

/-- The handshake asks why the target has halted. -/
theorem uses_handshake (h : sends (.packet .whyHalted)) :
    (handshake : Code τ Unit).Uses (restrained true marks locks sends) :=
  Program.uses_bind (uses_connect trivial) fun _ =>
    Program.uses_bind (uses_cmd h) fun _ => uses_access trivial

/-- A failed connection is reported in the session state. -/
theorem uses_reportUnreachable (e : PyError) :
    (reportUnreachable e : Code τ Unit).Uses (restrained true marks locks sends) := by
  unfold reportUnreachable
  split_ifs
  · exact uses_then trivial fun _ => trivial
  · trivial

/-- A target found halted is resumed. -/
theorem uses_resumeOnConnect (h : sends (.packet .resume)) :
    (resumeOnConnect : Code τ Unit).Uses (restrained true marks true sends) := by
  refine uses_then trivial fun enabled => ?_
  split_ifs
  · refine Program.uses_handle ?_ fun _ => trivial
    exact Program.uses_bind (uses_locked trivial trivial (uses_continueAsync h)) fun _ =>
      uses_access trivial
  · trivial

/-- Connecting shakes hands and resumes. -/
theorem uses_ensureConnected (hwhy : sends (.packet .whyHalted)) (hresume : sends (.packet .resume)) :
    (ensureConnected : Code τ Unit).Uses (restrained true marks true sends) := by
  refine uses_then trivial fun state => ?_
  split_ifs
  · trivial
  · refine Program.uses_bind (Program.uses_handle (uses_handshake hwhy) uses_reportUnreachable)
      fun _ => ?_
    exact Program.uses_bind (uses_access trivial) fun _ => uses_resumeOnConnect hresume

/-- Consuming stops sends nothing. -/
theorem uses_consumeStops (n : ℕ) (sawOne : Bool) :
    (consumeStops n sawOne : Code τ Unit).Uses (restrained sets marks locks sends) := by
  induction n generalizing sawOne with
  | zero => trivial
  | succ n ih =>
    refine Program.uses_bind (Program.uses_attempt (uses_waitForStop _)) fun r => ?_
    cases r with
    | ok packet => exact ih _
    | error e =>
      dsimp only
      split_ifs
      · trivial
      · exact ih _

/-- Neither does waiting for the fence. -/
theorem uses_awaitFence (n : ℕ) : (awaitFence n : Code τ Unit).Uses (restrained sets marks locks sends) := by
  induction n with
  | zero => trivial
  | succ n ih =>
    refine Program.uses_bind (Program.uses_attempt (uses_readPacketFromWire trivial)) fun r => ?_
    cases r with
    | error e => exact ih
    | ok packet =>
      dsimp only
      split_ifs
      · trivial
      · exact ih

/-- The fence sends one packet. -/
theorem uses_fence (h : sends (.packet .currentThread)) :
    (fence : Code τ Unit).Uses (restrained sets marks locks sends) :=
  Program.uses_handle
    (Program.uses_bind (uses_sendPacket h) fun _ => uses_then trivial fun n => uses_awaitFence n)
    fun _ => trivial

/-- Quiescing sends an interrupt and a fence. -/
theorem uses_quiesceForModify (hprobe : sends (.packet .currentThread)) (hint : sends .interrupt) :
    (quiesceForModify : Code τ Unit).Uses (restrained sets marks locks sends) := by
  refine Program.uses_bind (Program.uses_handle (uses_sendall hint) fun _ => trivial) fun _ => ?_
  refine uses_then trivial fun n => Program.uses_bind (uses_consumeStops n false) fun _ => ?_
  refine Program.uses_bind (uses_drainStopReplies trivial trivial trivial) fun _ => ?_
  exact Program.uses_bind (uses_fence hprobe) fun _ => uses_access trivial

/-- Pausing for a change probes first. -/
theorem uses_pauseForModify (hprobe : sends (.packet .currentThread)) (hint : sends .interrupt) :
    (pauseForModify : Code τ Unit).Uses (restrained true marks locks sends) := by
  refine Program.uses_bind (uses_probeResponsive hprobe 500) fun responsive => ?_
  split_ifs
  · refine Program.uses_bind (uses_quiesceForModify hprobe hint) fun _ => ?_
    exact Program.uses_bind (uses_drainStopReplies trivial trivial trivial) fun _ => uses_access trivial
  · exact uses_then trivial fun _ => trivial

/-- Afterwards the target is resumed. -/
theorem uses_resumeAfterModify (h : sends (.packet .resume)) :
    (resumeAfterModify : Code τ Unit).Uses (restrained sets true locks sends) :=
  Program.uses_bind (uses_drainStopReplies trivial trivial trivial) fun _ =>
    Program.uses_bind (uses_continueAsync h) fun _ => uses_access trivial

/-- A change is made between the two. -/
theorem uses_modifyLocked {α : Type} {body : Code τ α} (hprobe : sends (.packet .currentThread))
    (hint : sends .interrupt) (hresume : sends (.packet .resume))
    (hbody : body.Uses (restrained true true locks sends)) :
    (modifyLocked body).Uses (restrained true true locks sends) := by
  refine uses_then trivial fun state => ?_
  split_ifs
  · exact Program.uses_bind (uses_pauseForModify hprobe hint) fun _ =>
      Program.uses_ensuring hbody (uses_resumeAfterModify hresume)
  · exact hbody

/-- All of it under the lock. -/
theorem uses_safeToModify {α : Type} {body : Code τ α} (hprobe : sends (.packet .currentThread))
    (hint : sends .interrupt) (hresume : sends (.packet .resume))
    (hbody : body.Uses (restrained true true true sends)) :
    (safeToModify body).Uses (restrained true true true sends) :=
  uses_locked trivial trivial (uses_modifyLocked hprobe hint hresume hbody)

/-- Inserting or deleting a point sends one packet. -/
theorem uses_setBreak {insert : Bool} {kind : BpKind} {addr size : ℤ}
    (h : sends (.packet (.setBreak insert kind addr size))) :
    (setBreak insert kind addr size : Code τ (Packet τ)).Uses (restrained sets marks locks sends) :=
  restrained_commands.setBreak h

/-- So does deleting the point of an entry. -/
theorem uses_deletePoint (spec : BreakpointSpec)
    (h : ∀ kind addr size, sends (.packet (.setBreak false kind addr size))) :
    (deletePoint spec : Code τ (Packet τ)).Uses (restrained sets marks locks sends) :=
  restrained_commands.deletePoint spec h

/-- Removing a point from the stub is such a change. -/
theorem uses_deleteFromStub (spec : BreakpointSpec) (hprobe : sends (.packet .currentThread))
    (hint : sends .interrupt) (hresume : sends (.packet .resume))
    (h : ∀ kind addr size, sends (.packet (.setBreak false kind addr size))) :
    (deleteFromStub spec : Code τ Unit).Uses (restrained true true true sends) := by
  refine Program.uses_handle (Program.uses_bind (uses_safeToModify hprobe hint hresume
    (uses_deletePoint spec h)) fun _ => trivial) fun e => ?_
  split_ifs <;> trivial

/-- Reading memory sends one packet. -/
theorem uses_readMem (addr size : ℤ) (h : sends (.packet (.readMem addr size))) :
    (readMem addr size : Code τ (List UInt8)).Uses (restrained sets marks locks sends) :=
  restrained_commands.readMem addr size h

/-- So does writing it. -/
theorem uses_writeMem (addr : ℤ) (data : List UInt8) (h : sends (.packet (.writeMem addr data))) :
    (writeMem addr data : Code τ Unit).Uses (restrained sets marks locks sends) :=
  restrained_commands.writeMem addr data h

/-- Each attempt to pause sends an interrupt. -/
theorem uses_interruptAttempts (h : sends .interrupt) (n : ℕ) :
    (interruptAttempts n : Code τ (Packet τ)).Uses (restrained sets marks locks sends) := by
  induction n with
  | zero => trivial
  | succ n ih =>
    refine Program.uses_bind (Program.uses_attempt
      (Program.uses_bind (uses_sendall h) fun _ => uses_waitForStop _)) fun r => ?_
    cases r with
    | ok packet => trivial
    | error e =>
      dsimp only
      split_ifs
      · exact ih
      · trivial

/-- Pausing probes and interrupts. -/
theorem uses_pauseLocked (hprobe : sends (.packet .currentThread)) (hint : sends .interrupt) :
    (pauseLocked : Code τ (Packet τ)).Uses (restrained true marks locks sends) := by
  refine Program.uses_bind (uses_probeResponsive hprobe 500) fun responsive => ?_
  split_ifs
  · refine Program.uses_bind (uses_drainStopReplies trivial trivial trivial) fun _ => ?_
    exact Program.uses_bind (uses_interruptAttempts hint 2) fun _ => uses_then trivial fun _ => trivial
  · exact uses_then trivial fun _ => trivial

/-- Resuming sends one packet. -/
theorem uses_resumeLocked (h : sends (.packet .resume)) :
    (resumeLocked : Code τ Unit).Uses (restrained sets true locks sends) :=
  Program.uses_bind (uses_continueAsync h) fun _ => uses_access trivial

/-- So does stepping. -/
theorem uses_stepLocked (h : sends (.packet .step)) :
    (stepLocked : Code τ (Packet τ)).Uses (restrained sets marks locks sends) := by
  refine Program.uses_bind (Program.uses_bind (uses_sendPacket h) fun _ => uses_waitForStop _)
    fun raw => ?_
  exact uses_then trivial fun _ => trivial

/-- The special registers are read one by one. -/
theorem uses_readSprs (regs out : List (String × ℕ))
    (h : ∀ regnum, sends (.packet (.readRegister regnum))) :
    (readSprs regs out : Code τ (List (String × ℕ))).Uses (restrained sets marks locks sends) :=
  restrained_commands.readSprs regs out h

/-- Waiting for a stop sends nothing. -/
theorem uses_awaitLocked (timeout : ℕ) :
    (awaitLocked timeout : Code τ (Packet τ)).Uses (restrained sets marks locks sends) :=
  Program.uses_bind (uses_waitForStop _) fun _ => uses_then trivial fun _ => trivial

/-- Neither does it under the lock. -/
theorem uses_awaitStop (timeout : ℕ) :
    (awaitStop timeout : Code τ (Packet τ)).Uses (restrained sets marks true sends) :=
  uses_locked trivial trivial (uses_awaitLocked timeout)

/-- Nor does waiting for a stop that may not come. -/
theorem uses_awaitTarget (timeout : ℕ) :
    (awaitTarget timeout : Code τ (Option (Packet τ))).Uses (restrained sets marks locks sends) := by
  refine Program.uses_bind (Program.uses_attempt (uses_waitForStop _)) fun r => ?_
  cases r with
  | ok raw => exact uses_then trivial fun _ => trivial
  | error e =>
    dsimp only
    split_ifs <;> trivial

/-- A property of the accesses between the pieces and of calm code is one of the pieces. -/
theorem pieces_of_calm {K : (α : Type) → Code τ α → Prop} (parts : Program.Compositional K)
    (session : ∀ o, isSession o = true → K _ (access o))
    (hcalm : ∀ {α : Type} {p : Code τ α}, p.Uses calm → K α p) : Pieces K where
  parts := parts
  session := session
  connecting := hcalm (uses_ensureConnected rfl rfl)
  readMem addr size := hcalm (uses_readMem addr size rfl)
  writeMem addr data := hcalm (uses_writeMem addr data rfl)
  register regnum := hcalm (uses_locked trivial trivial (uses_readRegister regnum rfl))
  registers := hcalm (uses_locked trivial trivial (uses_readRegisters rfl))
  sprs := hcalm (uses_locked trivial trivial (uses_readSprs _ _ fun _ => rfl))
  fprs := hcalm (uses_locked trivial trivial (restrained_commands.readFprs _ _ fun _ => rfl))
  pausing := hcalm (uses_locked trivial trivial (uses_pauseLocked rfl rfl))
  resuming := hcalm (uses_locked trivial trivial (uses_resumeLocked rfl))
  stepping := hcalm (uses_locked trivial trivial (uses_stepLocked rfl))
  awaiting timeout := hcalm (uses_awaitStop timeout)
  awaitingTarget timeout := hcalm (uses_locked trivial trivial (uses_awaitTarget timeout))

end Tools

section Watcher

variable {τ : Type} {sets marks locks : Bool} {sends : Sent → Prop}

/-- The floating point registers are read one by one. -/
theorem uses_readFprs (regs : List ℕ) (fprs : List (ℕ × List UInt8))
    (h : ∀ regnum, sends (.packet (.readRegister regnum))) :
    (readFprs regs fprs : Code τ (List (ℕ × List UInt8))).Uses (restrained sets marks locks sends) :=
  restrained_commands.readFprs regs fprs h

/-- The registers a capture reads. -/
theorem uses_capturing (spec : BreakpointSpec) (capture : Capture)
    (hall : sends (.packet .readRegisters)) (hone : ∀ regnum, sends (.packet (.readRegister regnum))) :
    (collect [captureGprs spec, captureLr spec, captureFprs spec] capture :
      Code τ Capture).Uses (restrained sets marks locks sends) :=
  restrained_commands.capturing spec capture hall hone

/-- A stop is handled by reads and an entry in a log. -/
theorem uses_handleStop {P : Op τ → Prop} (host : Host) (raw : Packet τ)
    (hmild : ∀ o, mild o → P o) (happend : ∀ bpId capture raw, P (.appendLog bpId capture raw)) :
    (handleStop host raw).Uses P := by
  refine uses_then (hmild (.matchBp raw) trivial) fun matched => ?_
  cases matched with
  | none => trivial
  | some matchedId =>
    refine uses_then (hmild .getBreakpoints trivial) fun breakpoints => ?_
    cases lookup matchedId breakpoints with
    | none => trivial
    | some spec =>
      dsimp only
      split_ifs
      · have hreads : (collect [captureGprs spec, captureLr spec, captureFprs spec]
            (Capture.ofStop (parseStopReply raw.text)) : Code τ Capture).Uses mild :=
          uses_capturing spec _ rfl fun _ => rfl
        refine Program.uses_bind (hreads.mono hmild) fun capture => ?_
        split_ifs
        · trivial
        · exact uses_then (happend _ _ _) fun _ => trivial
      · trivial

/-- A turn of the watcher makes mild accesses and log entries. -/
theorem uses_watcherTurn {P : Op τ → Prop} (host : Host) (thread : ℕ) (hmild : ∀ o, mild o → P o)
    (happend : ∀ bpId capture raw, P (.appendLog bpId capture raw))
    (hpush : ∀ raw, P (.pushPending raw)) : (watcherTurn host thread : Code τ Turn).Uses P := by
  have hwait : (waitForStop (some 200) : Code τ (Packet τ)).Uses mild := uses_waitForStop _
  have hresume : (continueAsync : Code τ Unit).Uses mild := uses_continueAsync rfl
  refine uses_then (hmild (.stopRequested thread) trivial) fun stopped => ?_
  split_ifs
  · trivial
  · refine uses_then (hmild .getBreakpoints trivial) fun breakpoints => ?_
    split_ifs
    · refine uses_locked (hmild .acquire trivial) (hmild .release trivial)
        (uses_then (hmild (.stopRequested thread) trivial) fun stopped => ?_)
      split_ifs
      · trivial
      · refine Program.uses_bind (Program.uses_attempt (hwait.mono hmild)) fun r => ?_
        cases r with
        | error e =>
          dsimp only
          split_ifs <;> trivial
        | ok raw =>
          refine Program.uses_bind (uses_handleStop host raw hmild happend) fun handled => ?_
          split_ifs
          · refine Program.uses_bind (Program.uses_attempt (hresume.mono hmild)) fun r => ?_
            cases r with
            | ok u => trivial
            | error e =>
              dsimp only
              split_ifs <;> trivial
          · exact uses_then (hpush raw) fun _ =>
              uses_then (hmild .markPaused trivial) fun _ => trivial
    · trivial

/-- A turn of a watcher thread is mild, but for what it logs and puts back. -/
theorem uses_watcherIteration {P : Op τ → Prop} (host : Host) (thread : ℕ)
    (hmild : ∀ o, mild o → P o) (happend : ∀ bpId capture raw, P (.appendLog bpId capture raw))
    (hpush : ∀ raw, P (.pushPending raw)) : (watcherIteration host thread : Code τ Unit).Uses P := by
  refine uses_then (hmild (.isAlive thread) trivial) fun alive => ?_
  split_ifs
  · refine Program.uses_bind (Program.uses_attempt (uses_watcherTurn host thread hmild happend hpush))
      fun r => ?_
    split
    · trivial
    · exact uses_access (hmild (.exitWatcher thread) trivial)
  · trivial

/-- A tick of the worker spares the breakpoints. -/
theorem uses_autoConnectTick : (autoConnectTick : Code τ Unit).Uses spares := by
  refine uses_then trivial fun state => ?_
  split_ifs
  · exact Program.uses_handle (uses_spares (uses_ensureConnected rfl rfl)) fun _ => trivial
  · trivial

end Watcher

end DolphinRe.Footprints
