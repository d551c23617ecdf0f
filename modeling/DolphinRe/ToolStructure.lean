import DolphinRe.ExecutionTools

/-!
# The tools as compositions

The tools are put together from single accesses to the session, bodies that
hold the lock, and commands. A compositional property of these pieces is one
of every tool, whatever the property is.
-/

namespace DolphinRe.ToolStructure

open PythonText GdbPackets GdbWire StopReplies EffectProgram SessionMachine GdbClient SessionTools
  BreakpointTools ExecutionTools

/-- Accesses to the session and the host that the tools make between their other pieces. -/
def isSession {τ : Type} : Op τ → Bool
  | .getState => true
  | .getBreakpoints => true
  | .matchBp _ => true
  | .setCaptures _ _ => true
  | .setAutoContinue _ _ => true
  | .isAttached => true
  | .hostRead _ _ => true
  | .hostWrite _ _ => true
  | .sleep _ => true
  | .getWatcher => true
  | .isAlive _ => true
  | .startWatcher => true
  | .requestStop _ => true
  | .join _ => true
  | .clearWatcher => true
  | _ => false

variable {τ : Type}

/-- What is required of queries: commands whose replies raise nothing. -/
structure QueryPieces (allowed : Command → Prop) (K : (α : Type) → Code τ α → Prop) : Prop where
  /-- It holds of a value. -/
  done : ∀ {α : Type} (a : α), K α (Program.done a)
  /-- It holds of a composition. -/
  bind : ∀ {α β : Type} {p : Code τ α} {f : α → Code τ β}, K α p → (∀ a, K β (f a)) → K β (p.bind f)
  /-- It holds of the exchange of a command. -/
  cmd : ∀ command, allowed command → K _ (cmd command)

section Queries

variable {K : (α : Type) → Code τ α → Prop} {allowed : Command → Prop} (h : QueryPieces allowed K)

include h

/-- Reading a register is one query. -/
theorem QueryPieces.readRegister (regnum : ℕ) (hone : allowed (.readRegister regnum)) :
    K _ (readRegister regnum) :=
  h.bind (h.cmd _ hone) fun _ => h.done _

/-- Reading the special registers is a query for each. -/
theorem QueryPieces.readSprs (regs out : List (String × ℕ))
    (hone : ∀ regnum, allowed (.readRegister regnum)) : K _ (readSprs regs out) := by
  induction regs generalizing out with
  | nil => exact h.done out
  | cons reg regs ih =>
    refine h.bind (h.readRegister _ (hone _)) fun value => ?_
    cases value with
    | none => exact ih out
    | some value => exact ih _

/-- So is reading the floating point registers. -/
theorem QueryPieces.readFprs (regs : List ℕ) (fprs : List (ℕ × List UInt8))
    (hone : ∀ regnum, allowed (.readRegister regnum)) : K _ (readFprs regs fprs) := by
  induction regs generalizing fprs with
  | nil => exact h.done fprs
  | cons i regs ih =>
    have hbytes : K _ (readRegisterBytes (0x20 + i)) := h.bind (h.cmd _ (hone _)) fun _ => h.done _
    refine h.bind hbytes fun raw => ?_
    cases raw with
    | none => exact ih fprs
    | some raw =>
      dsimp only
      split_ifs
      · exact ih _
      · exact ih fprs

/-- Capturing the link register is one query at most. -/
theorem QueryPieces.captureLr (spec : BreakpointSpec) (capture : Capture)
    (hone : ∀ regnum, allowed (.readRegister regnum)) : K _ (captureLr spec capture) := by
  unfold SessionTools.captureLr
  split_ifs
  · refine h.bind (h.readRegister LR (hone LR)) fun lr => ?_
    cases lr with
    | none => exact h.done capture
    | some lr => exact h.done _
  · exact h.done capture

/-- Capturing the floating point registers is a query for each. -/
theorem QueryPieces.captureFprs (spec : BreakpointSpec) (capture : Capture)
    (hone : ∀ regnum, allowed (.readRegister regnum)) : K _ (captureFprs spec capture) := by
  unfold SessionTools.captureFprs
  split_ifs
  · exact h.bind (h.readFprs _ _ hone) fun _ => h.done _
  · exact h.done capture

end Queries

/-- What is required of the commands that are answered. -/
structure CommandPieces (allowed : Command → Prop) (K : (α : Type) → Code τ α → Prop) : Prop where
  /-- It holds of what is composed of such parts. -/
  parts : Program.Compositional K
  /-- It holds of the exchange of a command. -/
  cmd : ∀ command, allowed command → K _ (cmd command)

section Commands

variable {K : (α : Type) → Code τ α → Prop} {allowed : Command → Prop} (h : CommandPieces allowed K)

include h

/-- Commands make queries. -/
theorem CommandPieces.queries : QueryPieces allowed K := ⟨h.parts.done, h.parts.bind, h.cmd⟩

/-- Reading a register is one command. -/
theorem CommandPieces.readRegister (regnum : ℕ) (hone : allowed (.readRegister regnum)) :
    K _ (readRegister regnum) :=
  h.queries.readRegister regnum hone

/-- So is reading all of them, with an error when the reply is one. -/
theorem CommandPieces.readRegisters (hall : allowed .readRegisters) : K _ readRegisters :=
  h.parts.bind (h.cmd _ hall) fun _ => h.parts.bind (h.parts.ofExcept _) fun _ => h.parts.ofExcept _

/-- So is reading memory. -/
theorem CommandPieces.readMem (addr size : ℤ) (hread : allowed (.readMem addr size)) :
    K _ (readMem addr size) :=
  h.parts.bind (h.cmd _ hread) fun _ => h.parts.bind (h.parts.ofExcept _) fun _ => h.parts.ofExcept _

/-- So is writing memory. -/
theorem CommandPieces.writeMem (addr : ℤ) (data : List UInt8) (hwrite : allowed (.writeMem addr data)) :
    K _ (writeMem addr data) := by
  refine h.parts.bind (h.cmd _ hwrite) fun reply => h.parts.bind (h.parts.ofExcept _) fun _ => ?_
  split_ifs
  · exact h.parts.raise _
  · exact h.parts.done ()

/-- So is inserting or deleting a point. -/
theorem CommandPieces.setBreak {insert : Bool} {kind : BpKind} {addr size : ℤ}
    (hset : allowed (.setBreak insert kind addr size)) : K _ (setBreak insert kind addr size) := by
  refine h.parts.bind (h.cmd _ hset) fun reply => ?_
  split_ifs
  · exact h.parts.raise _
  · exact h.parts.raise _
  · exact h.parts.done _

/-- A watchpoint is inserted once its kind is known. -/
theorem CommandPieces.insertWatchpoint {addr size : ℤ} {on : String}
    (hset : ∀ kind, allowed (.setBreak true kind addr size)) : K _ (insertWatchpoint addr size on) :=
  h.parts.bind (h.parts.ofExcept _) fun kind => h.parts.bind (h.setBreak (hset kind)) fun _ =>
    h.parts.done kind

/-- The entry says which point is deleted. -/
theorem CommandPieces.deletePoint (spec : BreakpointSpec)
    (hset : ∀ kind addr size, allowed (.setBreak false kind addr size)) : K _ (deletePoint spec) := by
  unfold BreakpointTools.deletePoint
  cases spec.kind <;> exact h.setBreak (hset _ _ _)

/-- Reading the special registers is a command for each. -/
theorem CommandPieces.readSprs (regs out : List (String × ℕ))
    (hone : ∀ regnum, allowed (.readRegister regnum)) : K _ (readSprs regs out) :=
  h.queries.readSprs regs out hone

/-- So is reading the floating point registers. -/
theorem CommandPieces.readFprs (regs : List ℕ) (fprs : List (ℕ × List UInt8))
    (hone : ∀ regnum, allowed (.readRegister regnum)) : K _ (readFprs regs fprs) :=
  h.queries.readFprs regs fprs hone

/-- Capturing the general registers is one command at most. -/
theorem CommandPieces.captureGprs (spec : BreakpointSpec) (capture : Capture)
    (hall : allowed .readRegisters) : K _ (captureGprs spec capture) := by
  unfold SessionTools.captureGprs
  split_ifs
  · exact h.parts.bind (h.readRegisters hall) fun _ => h.parts.done _
  · exact h.parts.done capture

/-- Captures are collected one after the other. -/
theorem CommandPieces.collect {parts : List (Capture → Code τ Capture)}
    (hparts : ∀ part ∈ parts, ∀ capture, K _ (part capture)) (capture : Capture) :
    K _ (collect parts capture) := by
  induction parts generalizing capture with
  | nil => exact h.parts.done capture
  | cons part parts ih =>
    refine h.parts.bind (h.parts.attempt (hparts part List.mem_cons_self capture)) fun r => ?_
    cases r with
    | ok capture => exact ih (fun q hq => hparts q (List.mem_cons_of_mem _ hq)) capture
    | error e =>
      dsimp only
      split_ifs
      · exact h.parts.done capture
      · exact h.parts.raise e

/-- The registers a capture reads. -/
theorem CommandPieces.capturing (spec : BreakpointSpec) (capture : Capture)
    (hall : allowed .readRegisters) (hone : ∀ regnum, allowed (.readRegister regnum)) :
    K _ (SessionTools.collect [SessionTools.captureGprs spec, SessionTools.captureLr spec,
      SessionTools.captureFprs spec] capture) := by
  refine h.collect (fun part hpart capture => ?_) capture
  simp only [List.mem_cons, List.not_mem_nil, or_false] at hpart
  rcases hpart with rfl | rfl | rfl
  · exact h.captureGprs spec capture hall
  · exact h.queries.captureLr spec capture hone
  · exact h.queries.captureFprs spec capture hone

end Commands

/-- Accesses to the session and the host that change no registered breakpoint. -/
def isReading {τ : Type} : Op τ → Bool
  | .setCaptures _ _ => false
  | .setAutoContinue _ _ => false
  | o => isSession o

/-- What is required of the calls that change no breakpoint. -/
structure Calls (K : (α : Type) → Code τ α → Prop) : Prop where
  /-- It holds of what is composed of such parts. -/
  parts : Program.Compositional K
  /-- Accesses that read the session. -/
  session : ∀ o, isReading o = true → K _ (access o)
  /-- Connecting where there is no connection. -/
  connecting : K _ ensureConnected
  /-- Reads of memory over the connection. -/
  readMem : ∀ addr size, K _ (readMem addr size)
  /-- Reads of a register. -/
  register : ∀ regnum, K _ (locked (readRegister regnum))
  /-- Resuming the target. -/
  resuming : K _ (locked resumeLocked)
  /-- Stepping it. -/
  stepping : K _ (locked stepLocked)
  /-- Waiting for a stop. -/
  awaiting : ∀ timeout, K _ (awaitStop timeout)
  /-- Waiting for a stop on the way to an address. -/
  awaitingTarget : ∀ timeout, K _ (locked (awaitTarget timeout))

section Calling

variable {K : (α : Type) → Code τ α → Prop} (h : Calls K)

include h

/-- Looking for a live watcher reads the session. -/
theorem Calls.watcherAlive : K _ watcherAlive := by
  refine h.parts.bind (h.session .getWatcher rfl) fun thread => ?_
  cases thread with
  | none => exact h.parts.done false
  | some thread => exact h.session (.isAlive thread) rfl

/-- So does refusing to run next to one. -/
theorem Calls.refuseIfWatcherRunning (op : String) : K _ (refuseIfWatcherRunning op) := by
  refine h.parts.bind h.watcherAlive fun alive => ?_
  split_ifs
  · exact h.parts.raise _
  · exact h.parts.done ()

/-- Memory is read from the attached process or over the connection. -/
theorem Calls.memRead (addr size : ℤ) : K _ (memRead addr size) := by
  refine h.parts.bind (h.session .isAttached rfl) fun attached => ?_
  split_ifs
  · refine h.parts.bind (h.parts.ofExcept _) fun _ => ?_
    exact h.parts.bind (h.session (.hostRead addr size.toNat) rfl) fun r => h.parts.ofExcept r
  · exact h.parts.bind (h.parts.ofExcept _) fun _ => h.readMem addr size

/-- The register tools refuse, connect and read. -/
theorem Calls.getRegister (op : String) (regnum : ℕ) (label : String) :
    K _ (getRegister op regnum label) := by
  refine h.parts.bind h.connecting fun _ => h.parts.bind (h.refuseIfWatcherRunning op) fun _ => ?_
  refine h.parts.bind (h.register regnum) fun value => ?_
  cases value with
  | some value => exact h.parts.done value
  | none => exact h.parts.raise _

/-- `resume` connects, looks at the state and resumes. -/
theorem Calls.resume : K _ resume := by
  refine h.parts.bind h.connecting fun _ => h.parts.bind (h.refuseIfWatcherRunning _) fun _ => ?_
  refine h.parts.bind (h.session .getState rfl) fun state => ?_
  split_ifs
  · exact h.parts.done ()
  · exact h.resuming

/-- Disassembling one instruction reads memory, and raises nothing. -/
theorem Calls.disasmOneAt (host : Host) (addr : ℤ) : K _ (disasmOneAt host addr) := by
  refine h.parts.handle ?_ fun _ => h.parts.done none
  refine h.parts.bind h.connecting fun _ => h.parts.bind (h.memRead addr 4) fun _ => ?_
  exact h.parts.bind (h.parts.ofExcept _) fun _ => h.parts.done _

/-- The program counter is reported or read. -/
theorem Calls.pcOf (parsed : StopReply) : K _ (pcOf parsed) := by
  unfold ExecutionTools.pcOf
  cases parsed.pc with
  | some pc => exact h.parts.done pc
  | none => exact h.parts.bind (h.getRegister _ _ _) fun _ => h.parts.done _

/-- A report is made of the reply, the program counter and the instruction. -/
theorem Calls.stepReport (host : Host) (raw : Packet τ) : K _ (stepReport host raw) :=
  h.parts.bind (h.pcOf _) fun _ => h.parts.bind (h.disasmOneAt host _) fun _ => h.parts.done _

/-- `step` refuses, connects, steps and reports. -/
theorem Calls.step (host : Host) : K _ (step host) :=
  h.parts.bind h.connecting fun _ => h.parts.bind (h.refuseIfWatcherRunning _) fun _ =>
    h.parts.bind h.stepping fun raw => h.stepReport host raw

/-- Running to a stop resumes, waits and reports. -/
theorem Calls.runToStop (host : Host) (timeout : ℕ) : K _ (runToStop host timeout) :=
  h.parts.bind h.resume fun _ => h.parts.bind (h.awaiting timeout) fun raw => h.stepReport host raw

/-- The same within a time limit. -/
theorem Calls.runUntilBody (addr : ℤ) (timeout : ℕ) : K _ (runUntilBody addr timeout) := by
  refine h.parts.bind h.resume fun _ => h.parts.bind (h.awaitingTarget timeout) fun outcome => ?_
  cases outcome with
  | none => exact h.parts.done _
  | some raw => exact h.parts.bind (h.pcOf _) fun _ => h.parts.done _

/-- Looking at a capture log reads the registry. -/
theorem Calls.getCaptureLog (bpId : ℕ) : K _ (getCaptureLog bpId) := by
  refine h.parts.bind (h.session .getBreakpoints rfl) fun breakpoints => ?_
  cases lookup bpId breakpoints with
  | none => exact h.parts.raise _
  | some spec => exact h.parts.done spec.log

/-- A watcher is asked to stop and waited for. -/
theorem Calls.stopWatcher : K _ stopWatcher := by
  refine h.parts.bind (h.session .getWatcher rfl) fun thread => ?_
  cases thread with
  | none => exact h.parts.done ()
  | some thread =>
    refine h.parts.bind (h.session (.requestStop thread) rfl) fun _ => ?_
    exact h.parts.bind (h.session (.join thread) rfl) fun _ => h.session .clearWatcher rfl

/-- A watcher is started where none is alive. -/
theorem Calls.ensureWatcherRunning : K _ ensureWatcherRunning := by
  refine h.parts.bind h.watcherAlive fun alive => ?_
  split_ifs
  · exact h.parts.done ()
  · exact h.session .startWatcher rfl

end Calling

/-- What is required of the pieces. -/
structure Pieces (K : (α : Type) → Code τ α → Prop) : Prop where
  /-- It holds of what is composed of such parts. -/
  parts : Program.Compositional K
  /-- Accesses to the session. -/
  session : ∀ o, isSession o = true → K _ (access o)
  /-- Connecting where there is no connection. -/
  connecting : K _ ensureConnected
  /-- Reads of memory over the connection. -/
  readMem : ∀ addr size, K _ (readMem addr size)
  /-- Writes of memory over the connection. -/
  writeMem : ∀ addr data, K _ (writeMem addr data)
  /-- Reads of a register. -/
  register : ∀ regnum, K _ (locked (readRegister regnum))
  /-- Reads of all general registers. -/
  registers : K _ (locked readRegisters)
  /-- Reads of the special registers. -/
  sprs : K _ (locked (readSprs sprs []))
  /-- Reads of the floating point registers. -/
  fprs : K _ (locked (readFprs (List.range 32) []))
  /-- Pausing the target. -/
  pausing : K _ (locked pauseLocked)
  /-- Resuming it. -/
  resuming : K _ (locked resumeLocked)
  /-- Stepping it. -/
  stepping : K _ (locked stepLocked)
  /-- Waiting for a stop. -/
  awaiting : ∀ timeout, K _ (awaitStop timeout)
  /-- Waiting for a stop on the way to an address. -/
  awaitingTarget : ∀ timeout, K _ (locked (awaitTarget timeout))

section Execution

variable {K : (α : Type) → Code τ α → Prop} (h : Pieces K)

include h

/-- The pieces make calls that change no breakpoint. -/
theorem Pieces.calls : Calls K where
  parts := h.parts
  session o ho := h.session o (by cases o <;> first | exact ho | rfl)
  connecting := h.connecting
  readMem := h.readMem
  register := h.register
  resuming := h.resuming
  stepping := h.stepping
  awaiting := h.awaiting
  awaitingTarget := h.awaitingTarget

/-- Looking for a live watcher reads the session. -/
theorem Pieces.watcherAlive : K _ watcherAlive := h.calls.watcherAlive

/-- So does refusing to run next to one. -/
theorem Pieces.refuseIfWatcherRunning (op : String) : K _ (refuseIfWatcherRunning op) :=
  h.calls.refuseIfWatcherRunning op

/-- Memory is read from the attached process or over the connection. -/
theorem Pieces.memRead (addr size : ℤ) : K _ (memRead addr size) := h.calls.memRead addr size

/-- It is written in the same way. -/
theorem Pieces.memWrite (addr : ℤ) (data : List UInt8) : K _ (memWrite addr data) := by
  refine h.parts.bind (h.session .isAttached rfl) fun attached => ?_
  split_ifs
  · refine h.parts.bind (h.parts.ofExcept _) fun _ => ?_
    exact h.parts.bind (h.session (.hostWrite addr data) rfl) fun r => h.parts.ofExcept r
  · exact h.parts.bind (h.parts.ofExcept _) fun _ => h.writeMem addr data

/-- The memory tools connect before they read. -/
theorem Pieces.readMemory (addr size : ℤ) : K _ (readMemory addr size) :=
  h.parts.bind h.connecting fun _ => h.memRead addr size

/-- They connect before they write. -/
theorem Pieces.writeMemory (addr : ℤ) (data : List UInt8) : K _ (writeMemory addr data) :=
  h.parts.bind h.connecting fun _ => h.memWrite addr data

/-- The register tools refuse, connect and read. -/
theorem Pieces.getRegister (op : String) (regnum : ℕ) (label : String) :
    K _ (getRegister op regnum label) :=
  h.calls.getRegister op regnum label

/-- `get_gprs` does so for the general registers. -/
theorem Pieces.getGprs : K _ getGprs :=
  h.parts.bind h.connecting fun _ => h.parts.bind (h.refuseIfWatcherRunning _) fun _ =>
    h.parts.bind h.registers fun _ => h.parts.done _

/-- `get_sprs` does so for the special registers. -/
theorem Pieces.getSprs : K _ getSprs :=
  h.parts.bind h.connecting fun _ => h.parts.bind (h.refuseIfWatcherRunning _) fun _ => h.sprs

/-- `get_fprs` does so for the floating point registers. -/
theorem Pieces.getFprs : K _ getFprs :=
  h.parts.bind h.connecting fun _ => h.parts.bind (h.refuseIfWatcherRunning _) fun _ => h.fprs

/-- The walk over the stack reads one frame after the other. -/
theorem Pieces.walkStack (n sp : ℕ) (out : List (ℕ × ℕ)) : K _ (walkStack n sp out) := by
  induction n generalizing sp out with
  | zero => exact h.parts.done out
  | succ n ih =>
    unfold ExecutionTools.walkStack
    split_ifs
    · exact h.parts.done out
    · refine h.parts.bind (h.parts.attempt (h.memRead sp 8)) fun r => ?_
      cases r with
      | error e => exact h.parts.done out
      | ok blob =>
        dsimp only
        split_ifs
        · exact h.parts.done _
        · exact ih _ _

/-- `get_stack` reads the stack pointer and walks. -/
theorem Pieces.getStack (depth : ℤ) : K _ (getStack depth) :=
  h.parts.bind h.connecting fun _ => h.parts.bind h.getGprs fun _ => h.walkStack _ _ _

/-- `is_paused` looks at the state. -/
theorem Pieces.isPaused : K _ isPaused :=
  h.parts.bind (h.session .getState rfl) fun _ => h.parts.done _

/-- `pause` refuses, connects, pauses and reports. -/
theorem Pieces.pause : K _ pause := by
  refine h.parts.bind h.connecting fun _ => h.parts.bind (h.refuseIfWatcherRunning _) fun _ => ?_
  refine h.parts.bind (h.session .getState rfl) fun state => ?_
  split_ifs
  · exact h.parts.bind (h.getRegister _ _ _) fun _ => h.parts.done _
  · exact h.parts.bind h.pausing fun _ => h.parts.done _

/-- `resume` is a call that changes no breakpoint. -/
theorem Pieces.resume : K _ resume := h.calls.resume

/-- So is disassembling one instruction. -/
theorem Pieces.disasmOneAt (host : Host) (addr : ℤ) : K _ (disasmOneAt host addr) :=
  h.calls.disasmOneAt host addr

/-- So is finding the program counter. -/
theorem Pieces.pcOf (parsed : StopReply) : K _ (pcOf parsed) := h.calls.pcOf parsed

/-- So is a report on a stop. -/
theorem Pieces.stepReport (host : Host) (raw : Packet τ) : K _ (stepReport host raw) :=
  h.calls.stepReport host raw

/-- So is `step`. -/
theorem Pieces.step (host : Host) : K _ (step host) := h.calls.step host

/-- So is running to a stop. -/
theorem Pieces.runToStop (host : Host) (timeout : ℕ) : K _ (runToStop host timeout) :=
  h.calls.runToStop host timeout

/-- So is running within a time limit. -/
theorem Pieces.runUntilBody (addr : ℤ) (timeout : ℕ) : K _ (runUntilBody addr timeout) :=
  h.calls.runUntilBody addr timeout

/-- `wait_for_hit` connects, looks at the state, waits and matches the stop. -/
theorem Pieces.waitForHit (timeout : ℕ) : K _ (waitForHit timeout) := by
  refine h.parts.bind h.connecting fun _ => h.parts.bind h.watcherAlive fun alive => ?_
  split_ifs
  · exact h.parts.raise _
  · refine h.parts.bind (h.session .getState rfl) fun state => ?_
    split_ifs
    · exact h.parts.raise _
    · refine h.parts.bind (h.awaiting timeout) fun raw => ?_
      exact h.parts.bind (h.session (.matchBp raw) rfl) fun _ => h.parts.done _

/-- `get_capture_log` is a call that changes no breakpoint. -/
theorem Pieces.getCaptureLog (bpId : ℕ) : K _ (getCaptureLog bpId) := h.calls.getCaptureLog bpId

/-- Captures are turned off entry by entry. -/
theorem Pieces.clearAutoContinue (affected : List ℕ) : K _ (clearAutoContinue affected) := by
  induction affected with
  | nil => exact h.parts.done ()
  | cons bpId affected ih => exact h.parts.bind (h.session (.setAutoContinue bpId false) rfl) fun _ => ih

/-- Stopping the watcher changes no breakpoint. -/
theorem Pieces.stopWatcher : K _ stopWatcher := h.calls.stopWatcher

/-- `stop_capturing` turns captures off, and stops a watcher without work. -/
theorem Pieces.stopCapturing (bpId : Option ℕ) : K _ (stopCapturing bpId) := by
  refine h.parts.bind (h.session .getBreakpoints rfl) fun breakpoints => ?_
  refine h.parts.bind (h.parts.ofExcept _) fun affected => ?_
  refine h.parts.bind (h.clearAutoContinue affected) fun _ => ?_
  refine h.parts.bind (h.session .getBreakpoints rfl) fun breakpoints => ?_
  split_ifs
  · exact h.parts.bind h.stopWatcher fun _ => h.parts.done affected
  · exact h.parts.done affected

/-- Starting a watcher changes no breakpoint. -/
theorem Pieces.ensureWatcherRunning : K _ ensureWatcherRunning := h.calls.ensureWatcherRunning

/-- Captures, given what their resume does. -/
theorem Pieces.captureOnHit (hresume : K Unit resumeLocked) (bpId : ℕ)
    (captures : Option (List String)) (autoResume : Bool) :
    K _ (captureOnHit bpId captures autoResume) := by
  refine h.parts.bind h.connecting fun _ => h.parts.bind (h.session .getBreakpoints rfl) fun _ => ?_
  split_ifs
  · exact h.parts.raise _
  · refine h.parts.bind (h.parts.ofExcept _) fun keys => ?_
    refine h.parts.bind (h.session (.setCaptures bpId keys) rfl) fun _ => ?_
    refine h.parts.bind (h.session (.setAutoContinue bpId true) rfl) fun _ => ?_
    refine h.parts.bind (h.session .getState rfl) fun state => ?_
    split_ifs
    · have hsplit := h.parts.bind hresume fun _ => h.ensureWatcherRunning
      simp only [resumeLocked, Program.bind_eq, Program.bind_assoc] at hsplit
      exact hsplit
    · exact h.ensureWatcherRunning

/-- The health check, given its probe. -/
theorem Pieces.health (hopen : K _ (access .isSockOpen)) (hprobe : K _ (locked (probeResponsive 500))) :
    K _ health := by
  refine h.parts.bind hopen fun isOpen => ?_
  split_ifs
  · refine h.parts.bind hprobe fun alive => ?_
    split_ifs
    · refine h.parts.bind (h.session .getState rfl) fun state => ?_
      split_ifs
      · refine h.parts.bind h.watcherAlive fun watched => ?_
        split_ifs
        · exact h.parts.handle (h.parts.bind (h.register _) fun _ => h.parts.done ()) fun _ =>
            h.parts.done ()
        · exact h.parts.done ()
      · exact h.parts.done ()
    · exact h.parts.done ()
  · exact h.parts.done ()

end Execution

section Temporaries

variable {K : (α : Type) → Code τ α → Prop} (h : Pieces K)
  (hadd : ∀ addr, K _ (addBreakpoint addr)) (hremove : ∀ bpId, K _ (remove bpId))

include h hadd hremove

/-- A temporary breakpoint is added before the body and removed behind it. -/
theorem Pieces.withTemporary {α : Type} (addr : ℤ) {body : Code τ α} (hbody : K α body) :
    K α (withTemporary addr body) := by
  refine h.parts.bind (hadd addr) fun bpId => ?_
  refine h.parts.ensuring hbody (h.parts.handle ?_ fun _ => h.parts.done ())
  exact h.parts.bind (hremove bpId) fun _ => h.parts.done ()

/-- `step_over` looks at the instruction, and steps or runs behind the call. -/
theorem Pieces.stepOver (host : Host) : K _ (stepOver host) := by
  refine h.parts.bind h.connecting fun _ => h.parts.bind (h.refuseIfWatcherRunning _) fun _ => ?_
  refine h.parts.bind (h.getRegister _ _ _) fun pc => h.parts.bind (h.disasmOneAt host _) fun insn => ?_
  cases insn with
  | none => exact h.parts.raise _
  | some insn =>
    dsimp only
    split_ifs
    · exact h.withTemporary hadd hremove _ (h.runToStop host _)
    · exact h.step host

/-- `step_out` runs to the return address. -/
theorem Pieces.stepOut (host : Host) : K _ (stepOut host) :=
  h.parts.bind h.connecting fun _ => h.parts.bind (h.refuseIfWatcherRunning _) fun _ =>
    h.parts.bind (h.getRegister _ _ _) fun _ =>
      h.withTemporary hadd hremove _ (h.runToStop host _)

/-- `run_until` runs to the given address. -/
theorem Pieces.runUntil (addr : ℤ) (timeout : ℕ) : K _ (runUntil addr timeout) :=
  h.parts.bind h.connecting fun _ => h.parts.bind (h.refuseIfWatcherRunning _) fun _ =>
    h.withTemporary hadd hremove _ (h.runUntilBody addr timeout)

end Temporaries

/-- Accesses to the registry. -/
def isRegistry : Op τ → Bool
  | .allocBpId => true
  | .registerBp _ => true
  | .unregisterBp _ => true
  | _ => false

/-- What is required of the pieces of the tools that change breakpoints. -/
structure ModifyPieces (K : (α : Type) → Code τ α → Prop) : Prop extends Pieces K where
  /-- Accesses to the registry. -/
  registry : ∀ o, isRegistry o = true → K _ (access o)
  /-- Inserting a breakpoint. -/
  inserting : ∀ addr, K _ (safeToModify (addSwBreakpoint addr))
  /-- Inserting a watchpoint. -/
  insertingWatch : ∀ addr size on, K _ (safeToModify (insertWatchpoint addr size on))
  /-- Deleting either. -/
  deleting : ∀ spec, K _ (safeToModify (deletePoint spec))

section Changes

variable {K : (α : Type) → Code τ α → Prop} (h : ModifyPieces K)

include h

/-- An entry is registered under a new id. -/
theorem ModifyPieces.registerNew (addr : ℤ) (kind : BpKind) (size : ℤ) :
    K _ (registerNew addr kind size) := by
  refine h.parts.bind (h.registry .allocBpId rfl) fun bpId => ?_
  exact h.parts.bind (h.registry (.registerBp _) rfl) fun _ => h.parts.done bpId

/-- `add_breakpoint` inserts and registers. -/
theorem ModifyPieces.addBreakpoint (addr : ℤ) : K _ (addBreakpoint addr) :=
  h.parts.bind h.connecting fun _ => h.parts.bind (h.inserting addr) fun _ => h.registerNew _ _ _

/-- So does `add_watchpoint`. -/
theorem ModifyPieces.addWatchpoint (addr size : ℤ) (on : String) : K _ (addWatchpoint addr size on) :=
  h.parts.bind h.connecting fun _ => h.parts.bind (h.insertingWatch addr size on) fun _ =>
    h.registerNew _ _ _

/-- `remove` unregisters and deletes. -/
theorem ModifyPieces.remove (bpId : ℕ) : K _ (remove bpId) := by
  refine h.parts.bind h.connecting fun _ => ?_
  refine h.parts.bind (h.registry (.unregisterBp bpId) rfl) fun found => ?_
  cases found with
  | none => exact h.parts.done false
  | some spec =>
    refine h.parts.bind (h.parts.handle (h.parts.bind (h.deleting spec) fun _ => h.parts.done ())
      fun e => ?_) fun _ => h.parts.done true
    split_ifs
    · exact h.parts.done ()
    · exact h.parts.raise e

end Changes

section Compound

variable {K : (α : Type) → Code τ α → Prop} (h : Pieces K)
  (hremove : ∀ bpId, K _ (remove bpId))

include h hremove

/-- Several entries are removed one after the other. -/
theorem Pieces.removeEach (bpIds removed : List ℕ) : K _ (removeEach bpIds removed) := by
  induction bpIds generalizing removed with
  | nil => exact h.parts.done removed
  | cons bpId bpIds ih =>
    refine h.parts.bind (hremove bpId) fun gone => ?_
    split_ifs
    · exact ih _
    · exact ih _

/-- `remove_all` removes what is listed. -/
theorem Pieces.removeAll : K _ removeAll :=
  h.parts.bind h.connecting fun _ => h.parts.bind (h.session .getBreakpoints rfl) fun _ =>
    h.removeEach hremove _ _

/-- The tracing tools around a capture. -/
theorem Pieces.traceHits (hcapture : ∀ bpId captures autoResume,
      K _ (BreakpointTools.captureOnHit bpId captures autoResume))
    (bpId duration : ℕ) (captures : List String) : K _ (traceHits bpId duration captures) := by
  refine h.parts.ensuring ?_ ?_
  · refine h.parts.bind (hcapture _ _ _) fun _ => ?_
    exact h.parts.bind (h.session (.sleep duration) rfl) fun _ => h.getCaptureLog bpId
  · refine h.parts.bind (h.parts.handle (h.parts.bind (h.stopCapturing _) fun _ => h.parts.done ())
      fun _ => h.parts.done ()) fun _ => ?_
    exact h.parts.handle (h.parts.bind (hremove bpId) fun _ => h.parts.done ()) fun _ => h.parts.done ()

end Compound

end DolphinRe.ToolStructure
