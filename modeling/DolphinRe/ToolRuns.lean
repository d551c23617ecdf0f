import DolphinRe.Footprints
import DolphinRe.Interference
import DolphinRe.ToolStructure

/-!
# Runs of the tools next to the background threads

A run is a list of tool calls of the foreground. Whole turns of the watcher
threads and ticks of the auto-connect worker run wherever the foreground does
not hold the lock, except inside a command that has been sent.
-/

namespace DolphinRe.ToolRuns

open PythonText GdbPackets GdbWire GdbTokens StopReplies EffectProgram SessionMachine GdbClient
  SessionTools BreakpointTools ExecutionTools Footprints ToolStructure Interference

section Scheduling

/-- Where the background threads may run, and the accesses to `gdb_lock`. -/
def threads (τ : Type) : Scheduling (signature τ) where
  yields
    | .consumeAck => false
    | .readPacketFromWire _ => false
    | _ => true
  locks
    | .acquire => true
    | _ => false
  unlocks
    | .release => true
    | _ => false

variable {τ : Type} {sets marks : Bool} {sends : Sent → Prop}

/-- Code without locks leaves the lock alone. -/
theorem plain_of_restrained {o : Op τ} (h : restrained sets marks false sends o) : (threads τ).plain o := by
  cases o <;> first | exact ⟨rfl, rfl⟩ | exact h.elim

/-- Code that takes no lock. -/
theorem uses_plain {α : Type} {p : Code τ α} (hp : p.Uses (restrained true true false fun _ => True)) :
    p.Uses (threads τ).plain :=
  hp.mono fun _ => plain_of_restrained

/-- So do accesses to the session. -/
theorem plain_of_session {o : Op τ} (h : isSession o = true) : (threads τ).plain o := by
  cases o <;> first | exact ⟨rfl, rfl⟩ | simp [isSession] at h

/-- So do those to the registry. -/
theorem plain_of_registry {o : Op τ} (h : isRegistry o = true) : (threads τ).plain o := by
  cases o <;> first | exact ⟨rfl, rfl⟩ | simp [isRegistry] at h

/-- Waiting for an acknowledgement lets nobody in. -/
theorem silent_consumeAck : (consumeAck : Code τ Unit).Uses (threads τ).silent :=
  uses_consumeAck ⟨⟨rfl, rfl⟩, rfl⟩

/-- Neither does reading a packet. -/
theorem silent_readPacketFromWire (timeout : Option ℕ) :
    (readPacketFromWire timeout : Code τ (Packet τ)).Uses (threads τ).silent :=
  uses_readPacketFromWire ⟨⟨rfl, rfl⟩, rfl⟩

/-- A single access is a command. -/
theorem isCommand_access {o : Op τ} (h : (threads τ).plain o) : IsCommand (threads τ) (access o) :=
  ⟨h, fun _ => trivial⟩

/-- So is a packet with its acknowledgement. -/
theorem isCommand_sendPacket (command : Command) :
    IsCommand (threads τ) (sendPacket command : Code τ Unit) := by
  refine isCommand_bind ⟨⟨rfl, rfl⟩, fun r => ?_⟩ fun _ => silent_consumeAck
  exact Program.uses_ofExcept (S := signature τ) _ r

/-- So is a command with its reply. -/
theorem isCommand_cmd (command : Command) :
    IsCommand (threads τ) (cmd command : Code τ (Packet τ)) :=
  isCommand_bind (isCommand_sendPacket command) fun _ => silent_readPacketFromWire none

/-- So is a read of memory. -/
theorem isCommand_readMem (addr size : ℤ) :
    IsCommand (threads τ) (readMem addr size : Code τ (List UInt8)) := by
  refine isCommand_bind (isCommand_cmd _) fun reply => ?_
  exact Program.uses_bind (Program.uses_ofExcept (S := signature τ) _ _) fun _ =>
    Program.uses_ofExcept (S := signature τ) _ _

/-- So is a write. -/
theorem isCommand_writeMem (addr : ℤ) (data : List UInt8) :
    IsCommand (threads τ) (writeMem addr data : Code τ Unit) := by
  refine isCommand_bind (isCommand_cmd _) fun reply => ?_
  refine Program.uses_bind (Program.uses_ofExcept (S := signature τ) _ _) fun _ => ?_
  split_ifs <;> trivial

end Scheduling

section Background

variable {τ C W : Type}

/-- Any number of turns of watcher threads. -/
def watching (M : Machine (signature τ) C W) (host : Host) : W → W → Prop :=
  Relation.ReflTransGen fun w v => ∃ thread r, (watcherIteration host thread).Reaches M w r v

/-- Any number of turns of watcher threads and ticks of the auto-connect worker. -/
def background (M : Machine (signature τ) C W) (host : Host) : W → W → Prop :=
  Relation.ReflTransGen fun w v =>
    (∃ thread r, (watcherIteration host thread).Reaches M w r v) ∨
      ∃ r, autoConnectTick.Reaches M w r v

variable {M : Machine (signature τ) C W} {host : Host} {I : W → Prop}

/-- What each turn of a watcher keeps, the watchers keep. -/
theorem stable_watching (h : ∀ thread, (watcherIteration host thread).Keeps M I) :
    Stable (watching M host) I := by
  intro w v hw hsteps
  induction hsteps with
  | refl => exact hw
  | tail _ hlast ih =>
    obtain ⟨thread, r, hreaches⟩ := hlast
    exact Program.reaches_of_wp (h thread _ ih) hreaches

/-- With the ticks of the worker, the background keeps it. -/
theorem stable_background (h : ∀ thread, (watcherIteration host thread).Keeps M I)
    (htick : autoConnectTick.Keeps M I) : Stable (background M host) I := by
  intro w v hw hsteps
  induction hsteps with
  | refl => exact hw
  | tail _ hlast ih =>
    rcases hlast with ⟨thread, r, hreaches⟩ | ⟨r, hreaches⟩
    · exact Program.reaches_of_wp (h thread _ ih) hreaches
    · exact Program.reaches_of_wp (htick _ ih) hreaches

end Background

section Actions

variable {τ : Type}

/-- Tool calls of the foreground; `idle` lets time pass. -/
inductive Action where
  | ensureConnected
  | pause
  | resume
  | isPaused
  | getPc
  | getLr
  | getCtr
  | getGprs
  | getSprs
  | getFprs
  | getStack (depth : ℤ)
  | step
  | stepOver
  | stepOut
  | runUntil (addr : ℤ) (timeout : ℕ)
  | addBreakpoint (addr : ℤ)
  | addWatchpoint (addr size : ℤ) (on : String)
  | remove (bpId : ℕ)
  | removeAll
  | waitForHit (timeout : ℕ)
  | captureOnHit (bpId : ℕ) (captures : Option (List String)) (autoResume : Bool)
  | getCaptureLog (bpId : ℕ)
  | stopCapturing (bpId : Option ℕ)
  | readMemory (addr size : ℤ)
  | writeMemory (addr : ℤ) (data : List UInt8)
  | health
  | idle (duration : ℕ)
  deriving DecidableEq, Repr

/-- One call, with its result dropped. -/
def Action.code (host : Host) : Action → Code τ Unit
  | .ensureConnected => SessionTools.ensureConnected
  | .pause => do let _ ← ExecutionTools.pause
  | .resume => ExecutionTools.resume
  | .isPaused => do let _ ← ExecutionTools.isPaused
  | .getPc => do let _ ← ExecutionTools.getPc
  | .getLr => do let _ ← ExecutionTools.getLr
  | .getCtr => do let _ ← ExecutionTools.getCtr
  | .getGprs => do let _ ← ExecutionTools.getGprs
  | .getSprs => do let _ ← ExecutionTools.getSprs
  | .getFprs => do let _ ← ExecutionTools.getFprs
  | .getStack depth => do let _ ← ExecutionTools.getStack depth
  | .step => do let _ ← ExecutionTools.step host
  | .stepOver => do let _ ← ExecutionTools.stepOver host
  | .stepOut => do let _ ← ExecutionTools.stepOut host
  | .runUntil addr timeout => do let _ ← ExecutionTools.runUntil addr timeout
  | .addBreakpoint addr => do let _ ← BreakpointTools.addBreakpoint addr
  | .addWatchpoint addr size on => do let _ ← BreakpointTools.addWatchpoint addr size on
  | .remove bpId => do let _ ← BreakpointTools.remove bpId
  | .removeAll => do let _ ← BreakpointTools.removeAll
  | .waitForHit timeout => do let _ ← BreakpointTools.waitForHit timeout
  | .captureOnHit bpId captures autoResume =>
    BreakpointTools.captureOnHit bpId captures autoResume
  | .getCaptureLog bpId => do let _ ← BreakpointTools.getCaptureLog bpId
  | .stopCapturing bpId => do let _ ← BreakpointTools.stopCapturing bpId
  | .readMemory addr size => do let _ ← SessionTools.readMemory addr size
  | .writeMemory addr data => SessionTools.writeMemory addr data
  | .health => SessionTools.health
  | .idle duration => access (.sleep duration)

variable {K : (α : Type) → Code τ α → Prop}

/-- A property of the pieces, of the changes to the registry, of captures and of the health check
is one of every call. -/
theorem action_of_changes (h : Pieces K) (hadd : ∀ addr, K _ (addBreakpoint addr))
    (haddWatch : ∀ addr size on, K _ (addWatchpoint addr size on)) (hremove : ∀ bpId, K _ (remove bpId))
    (hcapture : ∀ bpId captures autoResume, K _ (captureOnHit bpId captures autoResume))
    (host : Host) (action : Action) (hhealth : action = .health → K _ health) :
    K _ (action.code host) := by
  have hdrop : ∀ {α : Type} {p : Code τ α}, K _ p → K _ (p.bind fun _ => Program.done ()) :=
    fun hp => h.parts.bind hp fun _ => h.parts.done ()
  cases action with
  | ensureConnected => exact h.connecting
  | pause => exact hdrop h.pause
  | resume => exact h.resume
  | isPaused => exact hdrop h.isPaused
  | getPc => exact hdrop (h.getRegister _ _ _)
  | getLr => exact hdrop (h.getRegister _ _ _)
  | getCtr => exact hdrop (h.getRegister _ _ _)
  | getGprs => exact hdrop h.getGprs
  | getSprs => exact hdrop h.getSprs
  | getFprs => exact hdrop h.getFprs
  | getStack depth => exact hdrop (h.getStack depth)
  | step => exact hdrop (h.step host)
  | stepOver => exact hdrop (h.stepOver hadd hremove host)
  | stepOut => exact hdrop (h.stepOut hadd hremove host)
  | runUntil addr timeout => exact hdrop (h.runUntil hadd hremove addr timeout)
  | addBreakpoint addr => exact hdrop (hadd addr)
  | addWatchpoint addr size on => exact hdrop (haddWatch addr size on)
  | remove bpId => exact hdrop (hremove bpId)
  | removeAll => exact hdrop (h.removeAll hremove)
  | waitForHit timeout => exact hdrop (h.waitForHit timeout)
  | captureOnHit bpId captures autoResume => exact hcapture bpId captures autoResume
  | getCaptureLog bpId => exact hdrop (h.getCaptureLog bpId)
  | stopCapturing bpId => exact hdrop (h.stopCapturing bpId)
  | readMemory addr size => exact hdrop (h.readMemory addr size)
  | writeMemory addr data => exact h.writeMemory addr data
  | health => exact hhealth rfl
  | idle duration => exact h.session (.sleep duration) rfl

/-- The same for changes put together from pieces. -/
theorem action_of_pieces (h : ModifyPieces K)
    (hcapture : ∀ bpId captures autoResume, K _ (captureOnHit bpId captures autoResume))
    (host : Host) (action : Action) (hhealth : action = .health → K _ health) :
    K _ (action.code host) :=
  action_of_changes h.toPieces h.addBreakpoint h.addWatchpoint h.remove hcapture host action hhealth

end Actions

section Sharing

variable {τ N L : Type} {link : Link τ N L} {M : Machine (signature τ) (Choice τ N) (World τ L)}
  {others : World τ L → World τ L → Prop} {I : World τ L → Prop}

/-- What the pieces of the tools must keep when they run undisturbed. -/
structure Atoms (M : Machine (signature τ) (Choice τ N) (World τ L)) (I : World τ L → Prop) :
    Prop where
  /-- Single accesses to the session. -/
  session : ∀ o, isSession o = true → (access o).Keeps M I
  /-- Single accesses to the registry. -/
  registry : ∀ o, isRegistry o = true → (access o).Keeps M I
  /-- Reads of memory over the connection. -/
  readMem : ∀ addr size, (readMem addr size).Keeps M I
  /-- Writes of memory over the connection. -/
  writeMem : ∀ addr data, (writeMem addr data).Keeps M I
  /-- Reads of a register. -/
  register : ∀ regnum, (readRegister regnum).Keeps M I
  /-- Reads of all general registers. -/
  registers : readRegisters.Keeps M I
  /-- Reads of the special registers. -/
  sprs : (readSprs sprs []).Keeps M I
  /-- Reads of the floating point registers. -/
  fprs : (readFprs (List.range 32) []).Keeps M I
  /-- Pausing the target. -/
  pausing : pauseLocked.Keeps M I
  /-- Resuming it. -/
  resuming : resumeLocked.Keeps M I
  /-- Stepping it. -/
  stepping : stepLocked.Keeps M I
  /-- Waiting for a stop. -/
  awaiting : ∀ timeout, (awaitLocked timeout).Keeps M I
  /-- Waiting for a stop on the way to an address. -/
  awaitingTarget : ∀ timeout, (awaitTarget timeout).Keeps M I
  /-- Inserting a breakpoint. -/
  inserting : ∀ addr, (modifyLocked (addSwBreakpoint addr)).Keeps M I
  /-- Inserting a watchpoint. -/
  insertingWatch : ∀ addr size on, (modifyLocked (insertWatchpoint addr size on)).Keeps M I
  /-- Deleting either. -/
  deleting : ∀ spec, (modifyLocked (deletePoint spec)).Keeps M I

/-- What is kept by the pieces is kept by the tools when nothing else runs. -/
theorem Atoms.undisturbed (h : Atoms M I) (hM : M.step = World.step link)
    (hconnecting : ensureConnected.Keeps M I) : ModifyPieces fun _ (p : Code τ _) => p.Keeps M I where
  parts := Program.keeps_compositional _ _
  session := h.session
  registry := h.registry
  connecting := hconnecting
  readMem := h.readMem
  writeMem := h.writeMem
  register regnum w hw := wp_locked hM (h.register regnum w hw)
  registers w hw := wp_locked hM (h.registers w hw)
  sprs w hw := wp_locked hM (h.sprs w hw)
  fprs w hw := wp_locked hM (h.fprs w hw)
  pausing w hw := wp_locked hM (h.pausing w hw)
  resuming w hw := wp_locked hM (h.resuming w hw)
  stepping w hw := wp_locked hM (h.stepping w hw)
  awaiting timeout w hw := wp_locked hM (h.awaiting timeout w hw)
  awaitingTarget timeout w hw := wp_locked hM (h.awaitingTarget timeout w hw)
  inserting addr w hw := wp_locked hM (h.inserting addr w hw)
  insertingWatch addr size on w hw := wp_locked hM (h.insertingWatch addr size on w hw)
  deleting spec w hw := wp_locked hM (h.deleting spec w hw)

/-- The tools on a machine whose world is shared with other threads. -/
abbrev sharing (M : Machine (signature τ) (Choice τ N) (World τ L))
    (others : World τ L → World τ L → Prop) :
    Machine (signature τ) (Choice τ N × World τ L) (World τ L × Bool) :=
  Machine.shared M (threads τ) others

/-- A single access is not disturbed. -/
theorem atomic_access (hI : Stable others I) {o : Op τ} (ho : (threads τ).plain o) :
    Atomic M (threads τ) others I (access o) :=
  atomic_command hI (isCommand_access ho)

/-- A locked body. -/
theorem atomic_lockedBody (hI : Stable others I) {α : Type} {body : Code τ α}
    (hplain : body.Uses (restrained true true false fun _ => True)) :
    Atomic M (threads τ) others I (locked body) :=
  atomic_locked hI rfl rfl rfl (uses_plain hplain)

/-- Code under the lock is not disturbed. -/
theorem keeps_locked (hM : M.step = World.step link) (hI : Stable others I) {α : Type}
    {body : Code τ α} (hplain : body.Uses (restrained true true false fun _ => True))
    (hbody : body.Keeps M I) : (locked body).Keeps (sharing M others) (Free I) :=
  (atomic_lockedBody hI hplain).keeps fun w hw => wp_locked hM (hbody w hw)

/-- What is kept undisturbed is kept next to other threads that keep it. -/
theorem Atoms.pieces (h : Atoms M I) (hM : M.step = World.step link) (hI : Stable others I)
    (hconnecting : ensureConnected.Keeps (sharing M others) (Free I)) :
    ModifyPieces fun _ (p : Code τ _) => p.Keeps (sharing M others) (Free I) where
  parts := Program.keeps_compositional _ _
  session o ho := (atomic_access hI (plain_of_session ho)).keeps (h.session o ho)
  registry o ho := (atomic_access hI (plain_of_registry ho)).keeps (h.registry o ho)
  connecting := hconnecting
  readMem addr size := (atomic_command hI (isCommand_readMem addr size)).keeps (h.readMem addr size)
  writeMem addr data := (atomic_command hI (isCommand_writeMem addr data)).keeps (h.writeMem addr data)
  register regnum := keeps_locked hM hI (uses_readRegister regnum trivial) (h.register regnum)
  registers := keeps_locked hM hI (uses_readRegisters trivial) h.registers
  sprs := keeps_locked hM hI (uses_readSprs _ _ fun _ => trivial) h.sprs
  fprs := keeps_locked hM hI (uses_readFprs _ _ fun _ => trivial) h.fprs
  pausing := keeps_locked hM hI (uses_pauseLocked trivial trivial) h.pausing
  resuming := keeps_locked hM hI (uses_resumeLocked trivial) h.resuming
  stepping := keeps_locked hM hI (uses_stepLocked trivial) h.stepping
  awaiting timeout := keeps_locked hM hI (uses_awaitLocked timeout) (h.awaiting timeout)
  awaitingTarget timeout := keeps_locked hM hI (uses_awaitTarget timeout) (h.awaitingTarget timeout)
  inserting addr := keeps_locked hM hI
    (uses_modifyLocked trivial trivial trivial (uses_setBreak trivial)) (h.inserting addr)
  insertingWatch addr size on := by
    refine keeps_locked hM hI (uses_modifyLocked trivial trivial trivial ?_)
      (h.insertingWatch addr size on)
    refine Program.uses_bind (Program.uses_ofExcept (S := signature τ) _ _) fun kind => ?_
    exact Program.uses_bind (uses_setBreak trivial) fun _ => trivial
  deleting spec := keeps_locked hM hI
    (uses_modifyLocked trivial trivial trivial (uses_deletePoint spec fun _ _ _ => trivial))
    (h.deleting spec)

/-- Every call gives the lock back. -/
theorem free_ensureConnected (hM : M.step = World.step link) :
    ensureConnected.Keeps (sharing M others) (Free fun _ => True) := by
  have hI : Stable others fun _ => True := fun _ _ _ _ => trivial
  have hparts : Program.Compositional (S := signature τ) (ε := PyError) fun _ p =>
      p.Keeps (sharing M others) (Free fun _ => True) := Program.keeps_compositional _ _
  have hop : ∀ o, (threads τ).plain o →
      (access o).Keeps (sharing M others) (Free fun _ => True) := fun o ho =>
    (atomic_access hI ho).keeps fun _ _ => Program.wp_true _ _
  have hplain : ∀ {α : Type} {p : Code τ α}, p.Uses (restrained true true false fun _ => True) →
      p.Keeps (sharing M others) (Free fun _ => True) := fun hp =>
    hparts.of_uses hop (uses_plain hp)
  refine hparts.bind (hop _ ⟨rfl, rfl⟩) fun state => ?_
  split_ifs
  · exact hparts.done ()
  · refine hparts.bind (hparts.handle (hplain (uses_handshake trivial))
      fun e => hplain (uses_reportUnreachable e)) fun _ => ?_
    refine hparts.bind (hop _ ⟨rfl, rfl⟩) fun _ => hparts.bind (hop _ ⟨rfl, rfl⟩) fun enabled => ?_
    split_ifs
    · refine hparts.handle (hparts.bind ?_ fun _ => hplain (uses_access trivial)) fun _ => hparts.done ()
      exact keeps_locked hM hI (uses_continueAsync trivial) fun _ _ => Program.wp_true _ _
    · exact hparts.done ()

/-- Every call gives the lock back. -/
theorem free_action (hM : M.step = World.step link) (host : Host) (action : Action) :
    (action.code host).Keeps (sharing M others) (Free fun _ => True) := by
  have hI : Stable others fun _ => True := fun _ _ _ _ => trivial
  have htrue : ∀ {α : Type} (p : Code τ α), p.Keeps M fun _ => True := fun _ _ _ => Program.wp_true _ _
  have hatoms : Atoms M fun _ => True := by constructor <;> intros <;> exact htrue _
  have hpieces := hatoms.pieces hM hI (free_ensureConnected hM)
  refine action_of_pieces hpieces (hpieces.captureOnHit ?_) host action fun _ => ?_
  · refine hpieces.parts.bind ((atomic_command hI (isCommand_sendPacket _)).keeps (htrue _)) fun _ => ?_
    exact (atomic_access hI ⟨rfl, rfl⟩).keeps (htrue _)
  · refine hpieces.health ((atomic_access hI ⟨rfl, rfl⟩).keeps (htrue _)) ?_
    exact keeps_locked hM hI (uses_probeResponsive trivial _) (htrue _)

/-- A run of calls next to other threads; calls may raise, and each runs on a
machine of its own. -/
def Runs (machineOf : Action → Machine (signature τ) (Choice τ N) (World τ L))
    (others : World τ L → World τ L → Prop) (host : Host) :
    List Action → World τ L → World τ L → Prop
  | [], w, v => others w v
  | action :: actions, w, v => ∃ before r after, others w before ∧
      (action.code host : Code τ Unit).Reaches (sharing (machineOf action) others) (before, false) r
        (after, false) ∧
      Runs machineOf others host actions after v

variable {machineOf : Action → Machine (signature τ) (Choice τ N) (World τ L)} {host : Host}

/-- What the other threads and every call keep holds after a run. -/
theorem Runs.keeps (hI : Stable others I)
    (haction : ∀ action : Action, (action.code host : Code τ Unit).Keeps
      (sharing (machineOf action) others) (Free I))
    {actions : List Action} {w v : World τ L} (hw : I w)
    (h : Runs machineOf others host actions w v) : I v := by
  induction actions generalizing w with
  | nil => exact hI _ _ hw h
  | cons action actions ih =>
    obtain ⟨before, r, after, hothers, hreaches, hrest⟩ := h
    have hbefore : I before := hI _ _ hw hothers
    have hafter := Program.reaches_of_wp (haction action (before, false) ⟨rfl, hbefore⟩) hreaches
    exact ih hafter.2 hrest

/-- A call along an admitted script, with nothing in between, begins a run. -/
theorem runs_cons [Inhabited N] {action : Action} {actions : List Action}
    (hM : (machineOf action).step = World.step link) {script : List (Choice τ N)}
    {w before v : World τ L} (hothers : others w before)
    (hfollows : (action.code host : Code τ Unit).Follows (machineOf action) script before)
    (hrest : Runs machineOf others host actions
      ((action.code host : Code τ Unit).run (machineOf action) script before).2.1 v) :
    Runs machineOf others host (action :: actions) w v := by
  obtain ⟨held, hreaches⟩ := reaches_shared (Program.reaches_run hfollows) false
  have hfree := Program.reaches_of_wp (free_action hM host action (before, false) ⟨rfl, trivial⟩) hreaches
  have hheld : held = false := hfree.1
  subst hheld
  exact ⟨_, _, _, hothers, hreaches, hrest⟩

/-- What the other threads did before a run belongs to it. -/
theorem Runs.after_others (htrans : ∀ w u v, others w u → others u v → others w v)
    {actions : List Action} {w u v : World τ L} (hothers : others w u)
    (h : Runs machineOf others host actions u v) : Runs machineOf others host actions w v := by
  cases actions with
  | nil => exact htrans w u v hothers h
  | cons action actions =>
    obtain ⟨before, r, after, hbefore, hreaches, hrest⟩ := h
    exact ⟨before, r, after, htrans w u before hothers hbefore, hreaches, hrest⟩

end Sharing

section Scripts

variable {τ N L : Type} {link : Link τ N L} {M V : Machine (signature τ) (Choice τ N) (World τ L)}
  {host : Host} [Inhabited N]

/-- One part of a scripted run. -/
inductive Part (τ N : Type) where
  /-- A call of the foreground. -/
  | call (action : Action) (script : List (Choice τ N))
  /-- A turn of a watcher thread. -/
  | turn (thread : ℕ) (script : List (Choice τ N))

/-- The calls of a scripted run. -/
def calls : List (Part τ N) → List Action
  | [] => []
  | .call action _ :: parts => action :: calls parts
  | .turn _ _ :: parts => calls parts

/-- The world after a scripted run, of calls on one machine and turns on another. -/
def played (M V : Machine (signature τ) (Choice τ N) (World τ L)) (host : Host) :
    List (Part τ N) → World τ L → World τ L
  | [], w => w
  | .call action script :: parts, w =>
    played M V host parts ((action.code host : Code τ Unit).run M script w).2.1
  | .turn thread script :: parts, w =>
    played M V host parts ((watcherIteration host thread : Code τ Unit).run V script w).2.1

/-- Both machines admit their scripts. -/
def Admitted (M V : Machine (signature τ) (Choice τ N) (World τ L)) (host : Host) :
    List (Part τ N) → World τ L → Prop
  | [], _ => True
  | .call action script :: parts, w => (action.code host : Code τ Unit).Follows M script w ∧
    Admitted M V host parts ((action.code host : Code τ Unit).run M script w).2.1
  | .turn thread script :: parts, w =>
    (watcherIteration host thread : Code τ Unit).Follows V script w ∧
      Admitted M V host parts ((watcherIteration host thread : Code τ Unit).run V script w).2.1

/-- Whether the scripts are admitted can be computed when admission can. -/
def decideAdmitted (M V : Machine (signature τ) (Choice τ N) (World τ L))
    [∀ o c w, Decidable (M.admits o c w)] [∀ o c w, Decidable (V.admits o c w)] (host : Host) :
    (parts : List (Part τ N)) → (w : World τ L) → Decidable (Admitted M V host parts w)
  | [], _ => isTrue trivial
  | .call action script :: parts, w =>
    @instDecidableAnd _ _ inferInstance
      (decideAdmitted M V host parts ((action.code host : Code τ Unit).run M script w).2.1)
  | .turn thread script :: parts, w =>
    @instDecidableAnd _ _ inferInstance
      (decideAdmitted M V host parts ((watcherIteration host thread : Code τ Unit).run V script w).2.1)

instance [∀ o c w, Decidable (M.admits o c w)] [∀ o c w, Decidable (V.admits o c w)]
    (parts : List (Part τ N)) (w : World τ L) : Decidable (Admitted M V host parts w) :=
  decideAdmitted M V host parts w

/-- An admitted script is a run of its calls next to watcher threads. -/
theorem runs_of_admitted (hM : M.step = World.step link) {parts : List (Part τ N)} {w : World τ L}
    (h : Admitted M V host parts w) :
    Runs (fun _ => M) (watching V host) host (calls parts) w (played M V host parts w) := by
  induction parts generalizing w with
  | nil => exact Relation.ReflTransGen.refl
  | cons part parts ih =>
    cases part with
    | call action script => exact runs_cons hM Relation.ReflTransGen.refl h.1 (ih h.2)
    | turn thread script =>
      have hturn : watching V host w ((watcherIteration host thread : Code τ Unit).run V script w).2.1 :=
        Relation.ReflTransGen.single ⟨thread, _, Program.reaches_run h.1⟩
      exact Runs.after_others (fun _ _ _ => Relation.ReflTransGen.trans) hturn (ih h.2)

end Scripts

end DolphinRe.ToolRuns
