import DolphinRe.EffectProgram
import DolphinRe.GdbTokens
import DolphinRe.StopReplies

/-!
# The session, its stub and one step of either

The world holds the session object, the client end of the connection, the
target behind the stub and the watcher threads. An operation is one access to
them that the client makes. The environment decides how the stub acts and
answers, what the network delivers, and how time and the host behave; nothing
is assumed of it here, and every statement restricts the choices it admits.
-/

namespace DolphinRe.SessionMachine

open PythonText GdbPackets GdbWire GdbTokens StopReplies EffectProgram

/-- Connection state of the session. -/
inductive SessionState where
  | disconnected
  | connectedPaused
  | connectedRunning
  | error
  deriving DecidableEq, Repr

/-- `SessionState.value`. -/
def SessionState.value : SessionState → String
  | .disconnected => "disconnected"
  | .connectedPaused => "connected_paused"
  | .connectedRunning => "connected_running"
  | .error => "error"

/-- The two states in which `ensure_connected` returns at once. -/
def SessionState.isConnected : SessionState → Bool
  | .connectedPaused => true
  | .connectedRunning => true
  | _ => false

/-- One stop watcher thread. -/
structure WatcherThread where
  /-- `_stop_event`. -/
  stopRequested : Bool
  /-- Cleared when `run` returns. -/
  alive : Bool
  deriving DecidableEq, Repr

/-- What happened on the connection and in the capture logs. -/
inductive Obs (τ : Type) where
  /-- A packet or the interrupt byte left the client; the target obeyed it or not. -/
  | sent (message : Sent) (obeyed : Bool)
  /-- An acknowledgement was consumed. -/
  | acked (tag : τ)
  /-- Waiting for an acknowledgement failed. -/
  | ackFault (error : PyError)
  /-- A packet was read off the wire. -/
  | got (packet : Packet τ)
  /-- Reading a packet off the wire failed. -/
  | readFault (error : PyError)
  /-- A hit taken from a stop reply was recorded under a breakpoint. -/
  | logged (bpId : ℕ) (raw : Packet τ)
  /-- A stop reply was handed over to the foreground. -/
  | surfaced (raw : Packet τ)
  deriving DecidableEq, Repr

/-- The session with everything it touches. -/
structure World (τ L : Type) where
  /-- `session.state`. -/
  state : SessionState
  /-- Whether a process backend is attached. -/
  attached : Bool
  /-- Whether `DOLPHIN_NO_AUTO_RESUME` is unset. -/
  autoResume : Bool
  /-- `session.breakpoints`, in insertion order. -/
  breakpoints : List BreakpointSpec
  /-- `session._next_id`. -/
  nextId : ℕ
  /-- `session.watcher`, by thread number. -/
  watcher : Option ℕ
  /-- Whether `stub.sock` is set. -/
  sockOpen : Bool
  /-- `stub.sock.gettimeout()`, in milliseconds. -/
  sockTimeout : ℕ
  /-- `stub._pending_replies`. -/
  pendingReplies : List (Packet τ)
  /-- Receive buffer and wire. -/
  link : L
  /-- Whether the target CPU runs. -/
  running : Bool
  /-- Points armed in the stub. -/
  armed : List Point
  /-- Number of packets the stub has received. -/
  commands : ℕ
  /-- Every watcher thread started so far. -/
  watchers : List WatcherThread
  /-- Everything the stub has sent so far. -/
  emitted : List (Token τ)
  /-- What happened so far. -/
  trace : List (Obs τ)
  deriving DecidableEq, Repr

/-- Primitive accesses of the client. -/
inductive Op (τ : Type) where
  | getState
  | setState (state : SessionState)
  | markRunning
  | markPaused
  | autoResumeEnabled
  | getBreakpoints
  /-- `_match_bp(parse_stop_reply(raw), session)`. -/
  | matchBp (raw : Packet τ)
  | allocBpId
  | registerBp (spec : BreakpointSpec)
  | unregisterBp (bpId : ℕ)
  | clearBreakpoints
  | setCaptures (bpId : ℕ) (captures : List CaptureKey)
  | setAutoContinue (bpId : ℕ) (enabled : Bool)
  /-- `spec.log.append(capture)` for a hit read from `raw`. -/
  | appendLog (bpId : ℕ) (capture : Capture) (raw : Packet τ)
  | isAttached
  | tryAttach
  | detachProcess
  | hostRead (addr : ℤ) (size : ℕ)
  | hostWrite (addr : ℤ) (data : List UInt8)
  | acquire
  | release
  | isSockOpen
  | getTimeout
  | setTimeout (timeout : ℕ)
  | connect
  | close
  | send (message : Sent)
  | consumeAck
  /-- `_read_packet_from_wire(timeout)`, in milliseconds. -/
  | readPacketFromWire (timeout : Option ℕ)
  | popPending
  | takePending
  | pushPending (raw : Packet τ)
  /-- Turns of a loop that fit before its deadline of so many milliseconds. -/
  | turns (budget : ℕ)
  | sleep (duration : ℕ)
  | getWatcher
  | isAlive (thread : ℕ)
  | startWatcher
  | requestStop (thread : ℕ)
  | stopRequested (thread : ℕ)
  | join (thread : ℕ)
  | clearWatcher
  | exitWatcher (thread : ℕ)

/-- The answer to each access. -/
@[reducible] def Op.Answer {τ : Type} : Op τ → Type
  | .getState => SessionState
  | .autoResumeEnabled => Bool
  | .getBreakpoints => List BreakpointSpec
  | .matchBp _ => Option ℕ
  | .allocBpId => ℕ
  | .unregisterBp _ => Option BreakpointSpec
  | .isAttached => Bool
  | .hostRead _ _ => Except PyError (List UInt8)
  | .hostWrite _ _ => Except PyError Unit
  | .isSockOpen => Bool
  | .getTimeout => ℕ
  | .connect => Except PyError Unit
  | .send _ => Except PyError Unit
  | .consumeAck => Except PyError Unit
  | .readPacketFromWire _ => Except PyError (Packet τ)
  | .popPending => Option (Packet τ)
  | .takePending => List (Packet τ)
  | .turns _ => ℕ
  | .getWatcher => Option ℕ
  | .isAlive _ => Bool
  | .stopRequested _ => Bool
  | _ => Unit

/-- Accesses at which the stub, the network, the host or the clock decide. -/
def Op.external {τ : Type} : Op τ → Bool
  | .tryAttach => true
  | .hostRead _ _ => true
  | .hostWrite _ _ => true
  | .connect => true
  | .send _ => true
  | .consumeAck => true
  | .readPacketFromWire _ => true
  | .turns _ => true
  | .sleep _ => true
  | .join _ => true
  | _ => false

/-- The operations of the client. -/
@[reducible] def signature (τ : Type) : Signature := ⟨Op τ, Op.Answer, Op.external⟩

/-- Something the stub does of its own accord: it sends a token, and may halt
the target as it does so. -/
structure StubAct (τ : Type) where
  /-- What it sends. -/
  token : Token τ
  /-- Whether the target halts. -/
  halts : Bool := false
  deriving DecidableEq, Repr

/-- Everything the environment decides at one access. -/
structure Choice (τ N : Type) where
  /-- What the stub does first. -/
  acts : List (StubAct τ) := []
  /-- What the network delivers to a read. -/
  net : N
  /-- Whether a send fails. -/
  sendFails : Bool := false
  /-- Whether the target carries a message out. -/
  obeyed : Bool := true
  /-- What the stub sends on a message. -/
  response : List (Token τ) := []
  /-- Whether a connection attempt is refused. -/
  refused : Bool := false
  /-- Whether the emulator process can be attached. -/
  attaches : Bool := false
  /-- Result of a host memory access; `none` when it fails. -/
  host : Option (List UInt8) := none
  /-- Loop turns before a deadline. -/
  turns : ℕ := 0
  deriving DecidableEq, Repr

instance {τ N : Type} [Inhabited N] : Inhabited (Choice τ N) := ⟨{net := default}⟩

section Steps

variable {τ N L : Type}

/-- `session.breakpoints[spec.bp_id] = spec`. -/
def register (spec : BreakpointSpec) (breakpoints : List BreakpointSpec) : List BreakpointSpec :=
  if breakpoints.any (·.bpId = spec.bpId) then
    breakpoints.map fun old => if old.bpId = spec.bpId then spec else old
  else breakpoints ++ [spec]

/-- `session.breakpoints.get(bp_id)`. -/
def lookup (bpId : ℕ) (breakpoints : List BreakpointSpec) : Option BreakpointSpec :=
  breakpoints.find? (·.bpId = bpId)

/-- The registry without one id. -/
def unregister (bpId : ℕ) (breakpoints : List BreakpointSpec) : List BreakpointSpec :=
  breakpoints.filter (·.bpId ≠ bpId)

/-- Change the registered breakpoint with an id, if there is one. -/
def amend (bpId : ℕ) (f : BreakpointSpec → BreakpointSpec) (breakpoints : List BreakpointSpec) :
    List BreakpointSpec :=
  breakpoints.map fun spec => if spec.bpId = bpId then f spec else spec

/-- Insert a point; inserting twice is idempotent. -/
def arm (point : Point) (armed : List Point) : List Point :=
  if point ∈ armed then armed else armed ++ [point]

/-- Delete a point. -/
def disarm (point : Point) (armed : List Point) : List Point := armed.filter (· ≠ point)

/-- Effect of an obeyed breakpoint packet on the armed points, by its text. -/
def setPoint (payload : Str) (armed : List Point) : List Point :=
  match readPoint payload with
  | some (true, point) => arm point armed
  | some (false, point) => disarm point armed
  | none => armed

/-- Whether the target runs once it has obeyed a message. -/
def runningAfter : Sent → Bool → Bool
  | .interrupt, _ => false
  | .packet .resume, _ => true
  | .packet .detach, _ => true
  | .packet .step, _ => false
  | .packet _, running => running

/-- The armed points once the stub has obeyed a message. -/
def armedAfter : Sent → List Point → List Point
  | .packet (.setBreak insert kind addr size), armed =>
    setPoint (Command.setBreak insert kind addr size).payload armed
  | _, armed => armed

namespace World

/-- The stub sends tokens; without a connection they go nowhere. -/
def emit (link : Link τ N L) (tokens : List (Token τ)) (w : World τ L) : World τ L :=
  if w.sockOpen then {w with link := link.emit tokens w.link, emitted := w.emitted ++ tokens} else w

/-- The stub acts of its own accord. -/
def act (link : Link τ N L) (w : World τ L) (a : StubAct τ) : World τ L :=
  {w.emit link [a.token] with running := w.running && !a.halts}

/-- The stub acts any number of times. -/
def absorb (link : Link τ N L) (acts : List (StubAct τ)) (w : World τ L) : World τ L :=
  acts.foldl (act link) w

/-- `close()`. -/
def closed (link : Link τ N L) (w : World τ L) : World τ L :=
  {w with sockOpen := false, link := link.fresh}

/-- Append to the trace. -/
def note (event : Obs τ) (w : World τ L) : World τ L := {w with trace := w.trace ++ [event]}

/-- `GDBStub.default_timeout`, in milliseconds. -/
def defaultTimeout : ℕ := 5000

/-- `connect()`: a connected client returns at once. -/
def connect (link : Link τ N L) (c : Choice τ N) (w : World τ L) :
    Except PyError Unit × World τ L :=
  if w.sockOpen then (.ok (), w)
  else if c.refused then (.error (.osError "connection refused"), w)
  else (.ok (), {w with sockOpen := true, sockTimeout := defaultTimeout, link := link.fresh})

/-- What a failed send raises. -/
def sendError : Sent → PyError
  | .packet _ => .connectionLost "send failed"
  | .interrupt => .connectionLost "interrupt send failed"

/-- Number of packets in a message. -/
def packets : Sent → ℕ
  | .packet _ => 1
  | .interrupt => 0

/-- A message has left the client: the target may obey it, and the stub answers. -/
def delivered (link : Link τ N L) (message : Sent) (c : Choice τ N) (w : World τ L) : World τ L :=
  {w with
    running := if c.obeyed then runningAfter message w.running else w.running
    armed := if c.obeyed then armedAfter message w.armed else w.armed
    commands := w.commands + packets message
    link := link.emit c.response w.link
    emitted := w.emitted ++ c.response
    trace := w.trace ++ [.sent message c.obeyed]}

/-- `sendall` of a framed packet or of the interrupt byte. -/
def send (link : Link τ N L) (message : Sent) (c : Choice τ N) (w : World τ L) :
    Except PyError Unit × World τ L :=
  if w.sockOpen then
    if c.sendFails then (.error (sendError message), w.closed link)
    else (.ok (), w.delivered link message c)
  else (.error (.connectionLost "GDB socket is not connected"), w)

/-- The connection is lost exactly when `ConnectionLost` is raised. -/
def losesConnection {α : Type} : Except PyError α → Bool
  | .error (.connectionLost _) => true
  | _ => false

/-- The record of an acknowledgement read. -/
def ackEvent : Except PyError τ → Obs τ
  | .ok tag => .acked tag
  | .error e => .ackFault e

/-- The record of a packet read. -/
def readEvent : Except PyError (Packet τ) → Obs τ
  | .ok packet => .got packet
  | .error e => .readFault e

/-- `_consume_ack`: frames met on the way are stashed even when it fails later. -/
def consumeAck (link : Link τ N L) (c : Choice τ N) (w : World τ L) :
    Except PyError Unit × World τ L :=
  if w.sockOpen then
    match link.consumeAck c.net w.link with
    | (outcome, packets, left) =>
      (outcome.map fun _ => (), {w with
        pendingReplies := w.pendingReplies ++ packets
        link := left
        sockOpen := !losesConnection outcome
        trace := w.trace ++ [ackEvent outcome]})
  else (.error (.connectionLost "GDB socket is not connected"), w)

/-- `_read_packet_from_wire`. -/
def readPacket (link : Link τ N L) (c : Choice τ N) (w : World τ L) :
    Except PyError (Packet τ) × World τ L :=
  if w.sockOpen then
    match link.readPacket c.net w.link with
    | (outcome, left) =>
      (outcome, {w with
        link := left
        sockOpen := !losesConnection outcome
        trace := w.trace ++ [readEvent outcome]})
  else (.error (.connectionLost "GDB socket is not connected"), w)

/-- Change one watcher thread. -/
def onThread (thread : ℕ) (f : WatcherThread → WatcherThread) (w : World τ L) : World τ L :=
  {w with watchers := w.watchers.modify thread f}

/-- Whether a thread still runs. -/
def threadAlive (thread : ℕ) (w : World τ L) : Bool :=
  (w.watchers[thread]?).any WatcherThread.alive

/-- `ReadProcessMemory` yields exactly the requested bytes or fails. -/
def hostRead (addr : ℤ) (size : ℕ) (c : Choice τ N) : Except PyError (List UInt8) :=
  match c.host with
  | some blob =>
    if blob.length = size then .ok blob
    else .error (.osError ("ReadProcessMemory(" ++ toString addr ++ ") failed"))
  | none => .error (.osError ("ReadProcessMemory(" ++ toString addr ++ ") failed"))

/-- `WriteProcessMemory` succeeds or fails. -/
def hostWrite (addr : ℤ) (c : Choice τ N) : Except PyError Unit :=
  match c.host with
  | some _ => .ok ()
  | none => .error (.osError ("WriteProcessMemory(" ++ toString addr ++ ") failed"))

/-- One access, after the stub's own acts where the client waits for anything. -/
def step (link : Link τ N L) (o : Op τ) (c : Choice τ N) (w : World τ L) : o.Answer × World τ L :=
  match o with
  | .getState => (w.state, w)
  | .setState state => ((), {w with state := state})
  | .markRunning =>
    ((), if w.state = .connectedPaused then {w with state := .connectedRunning} else w)
  | .markPaused =>
    ((), if w.state = .connectedRunning then {w with state := .connectedPaused} else w)
  | .autoResumeEnabled => (w.autoResume, w)
  | .getBreakpoints => (w.breakpoints, w)
  | .matchBp raw => (StopReplies.matchBp (parseStopReply raw.text) w.breakpoints, w)
  | .allocBpId => (w.nextId, {w with nextId := w.nextId + 1})
  | .registerBp spec => ((), {w with breakpoints := register spec w.breakpoints})
  | .unregisterBp bpId =>
    (lookup bpId w.breakpoints, {w with breakpoints := unregister bpId w.breakpoints})
  | .clearBreakpoints => ((), {w with breakpoints := []})
  | .setCaptures bpId captures => ((), {w with
      breakpoints := amend bpId (fun spec => {spec with captures := captures}) w.breakpoints})
  | .setAutoContinue bpId enabled => ((), {w with
      breakpoints := amend bpId (fun spec => {spec with autoContinue := enabled}) w.breakpoints})
  | .appendLog bpId capture raw => ((), ({w with
      breakpoints :=
        amend bpId (fun spec => {spec with log := spec.log ++ [capture]}) w.breakpoints}).note
          (.logged bpId raw))
  | .isAttached => (w.attached, w)
  | .tryAttach => ((), {w.absorb link c.acts with attached := c.attaches})
  | .detachProcess => ((), {w with attached := false})
  | .hostRead addr size => (hostRead addr size c, w.absorb link c.acts)
  | .hostWrite addr _ => (hostWrite addr c, w.absorb link c.acts)
  | .acquire => ((), w)
  | .release => ((), w)
  | .isSockOpen => (w.sockOpen, w)
  | .getTimeout => (w.sockTimeout, w)
  | .setTimeout timeout => ((), {w with sockTimeout := timeout})
  | .connect => (w.absorb link c.acts).connect link c
  | .close => ((), if w.sockOpen then w.closed link else w)
  | .send message => (w.absorb link c.acts).send link message c
  | .consumeAck => (w.absorb link c.acts).consumeAck link c
  | .readPacketFromWire _ => (w.absorb link c.acts).readPacket link c
  | .popPending => (w.pendingReplies.head?, {w with pendingReplies := w.pendingReplies.tail})
  | .takePending => (w.pendingReplies, {w with pendingReplies := []})
  | .pushPending raw =>
    ((), {w with pendingReplies := w.pendingReplies ++ [raw]}.note (.surfaced raw))
  | .turns _ => (c.turns, w.absorb link c.acts)
  | .sleep _ => ((), w.absorb link c.acts)
  | .getWatcher => (w.watcher, w)
  | .isAlive thread => (w.threadAlive thread, w)
  | .startWatcher => ((), {w with
      watcher := some w.watchers.length
      watchers := w.watchers ++ [⟨false, true⟩]})
  | .requestStop thread => ((), w.onThread thread fun t => {t with stopRequested := true})
  | .stopRequested thread => ((w.watchers[thread]?).any WatcherThread.stopRequested, w)
  | .join _ => ((), w.absorb link c.acts)
  | .clearWatcher => ((), {w with watcher := none})
  | .exitWatcher thread => ((), w.onThread thread fun t => {t with alive := false})

end World

/-- The machine of the client over a link; every choice is admitted. -/
def machine (link : Link τ N L) : Machine (signature τ) (Choice τ N) (World τ L) where
  step := World.step link
  admits _ _ _ := True

/-- Every script is admitted there. -/
theorem follows_machine [Inhabited N] (link : Link τ N L) {ε α : Type}
    (p : Program (signature τ) ε α) (script : List (Choice τ N)) (w : World τ L) :
    p.Follows (machine link) script w := by
  induction p generalizing script w with
  | done a => trivial
  | raise e => trivial
  | perform o next ih => exact ⟨trivial, ih _ _ _⟩

end Steps

section Frames

variable {τ N L : Type}

namespace World

/-- What no act of the stub changes, no sequence of acts changes. -/
theorem absorb_const {α : Type} {f : World τ L → α} {link : Link τ N L}
    (h : ∀ w a, f (act link w a) = f w) (acts : List (StubAct τ)) (w : World τ L) :
    f (w.absorb link acts) = f w := by
  induction acts generalizing w with
  | nil => rfl
  | cons a acts ih => exact (ih (act link w a)).trans (h w a)

/-- Sending tokens touches the link and the record of what was sent only. -/
theorem emit_const {α : Type} {f : World τ L → α} {link : Link τ N L} {w : World τ L}
    (h : ∀ l e, f {w with link := l, emitted := e} = f w) (tokens : List (Token τ)) :
    f (w.emit link tokens) = f w := by
  unfold emit
  split_ifs
  · exact h _ _
  · rfl

variable (link : Link τ N L) (acts : List (StubAct τ)) (tokens : List (Token τ)) (w : World τ L)

@[simp] theorem emit_running : (w.emit link tokens).running = w.running :=
  emit_const (fun _ _ => rfl) tokens

@[simp] theorem emit_state : (w.emit link tokens).state = w.state :=
  emit_const (fun _ _ => rfl) tokens

@[simp] theorem emit_attached : (w.emit link tokens).attached = w.attached :=
  emit_const (fun _ _ => rfl) tokens

@[simp] theorem emit_autoResume : (w.emit link tokens).autoResume = w.autoResume :=
  emit_const (fun _ _ => rfl) tokens

@[simp] theorem emit_breakpoints : (w.emit link tokens).breakpoints = w.breakpoints :=
  emit_const (fun _ _ => rfl) tokens

@[simp] theorem emit_nextId : (w.emit link tokens).nextId = w.nextId :=
  emit_const (fun _ _ => rfl) tokens

@[simp] theorem emit_watcher : (w.emit link tokens).watcher = w.watcher :=
  emit_const (fun _ _ => rfl) tokens

@[simp] theorem emit_sockOpen : (w.emit link tokens).sockOpen = w.sockOpen :=
  emit_const (fun _ _ => rfl) tokens

@[simp] theorem emit_sockTimeout : (w.emit link tokens).sockTimeout = w.sockTimeout :=
  emit_const (fun _ _ => rfl) tokens

@[simp] theorem emit_pendingReplies : (w.emit link tokens).pendingReplies = w.pendingReplies :=
  emit_const (fun _ _ => rfl) tokens

@[simp] theorem emit_armed : (w.emit link tokens).armed = w.armed :=
  emit_const (fun _ _ => rfl) tokens

@[simp] theorem emit_commands : (w.emit link tokens).commands = w.commands :=
  emit_const (fun _ _ => rfl) tokens

@[simp] theorem emit_watchers : (w.emit link tokens).watchers = w.watchers :=
  emit_const (fun _ _ => rfl) tokens

@[simp] theorem emit_trace : (w.emit link tokens).trace = w.trace :=
  emit_const (fun _ _ => rfl) tokens

@[simp] theorem absorb_state : (w.absorb link acts).state = w.state :=
  absorb_const (fun w a => emit_state link [a.token] w) acts w

@[simp] theorem absorb_attached : (w.absorb link acts).attached = w.attached :=
  absorb_const (fun w a => emit_attached link [a.token] w) acts w

@[simp] theorem absorb_autoResume : (w.absorb link acts).autoResume = w.autoResume :=
  absorb_const (fun w a => emit_autoResume link [a.token] w) acts w

@[simp] theorem absorb_breakpoints : (w.absorb link acts).breakpoints = w.breakpoints :=
  absorb_const (fun w a => emit_breakpoints link [a.token] w) acts w

@[simp] theorem absorb_nextId : (w.absorb link acts).nextId = w.nextId :=
  absorb_const (fun w a => emit_nextId link [a.token] w) acts w

@[simp] theorem absorb_watcher : (w.absorb link acts).watcher = w.watcher :=
  absorb_const (fun w a => emit_watcher link [a.token] w) acts w

@[simp] theorem absorb_sockOpen : (w.absorb link acts).sockOpen = w.sockOpen :=
  absorb_const (fun w a => emit_sockOpen link [a.token] w) acts w

@[simp] theorem absorb_sockTimeout : (w.absorb link acts).sockTimeout = w.sockTimeout :=
  absorb_const (fun w a => emit_sockTimeout link [a.token] w) acts w

@[simp] theorem absorb_pendingReplies : (w.absorb link acts).pendingReplies = w.pendingReplies :=
  absorb_const (fun w a => emit_pendingReplies link [a.token] w) acts w

@[simp] theorem absorb_armed : (w.absorb link acts).armed = w.armed :=
  absorb_const (fun w a => emit_armed link [a.token] w) acts w

@[simp] theorem absorb_commands : (w.absorb link acts).commands = w.commands :=
  absorb_const (fun w a => emit_commands link [a.token] w) acts w

@[simp] theorem absorb_watchers : (w.absorb link acts).watchers = w.watchers :=
  absorb_const (fun w a => emit_watchers link [a.token] w) acts w

@[simp] theorem absorb_trace : (w.absorb link acts).trace = w.trace :=
  absorb_const (fun w a => emit_trace link [a.token] w) acts w

/-- A target that runs after the stub's acts ran before them. -/
theorem running_of_absorb (h : (w.absorb link acts).running = true) : w.running = true := by
  induction acts generalizing w with
  | nil => exact h
  | cons a acts ih =>
    have hact : (w.running && !a.halts) = true := ih (act link w a) h
    rw [Bool.and_eq_true] at hact
    exact hact.1

/-- Over the token link, a connected client has the new tokens behind the unread ones. -/
theorem absorb_open {w : World τ (List (Token τ))} (h : w.sockOpen = true)
    (acts : List (StubAct τ)) :
    (w.absorb (tokenLink τ) acts).link = w.link ++ acts.map StubAct.token ∧
      (w.absorb (tokenLink τ) acts).emitted = w.emitted ++ acts.map StubAct.token := by
  induction acts generalizing w with
  | nil => simp [absorb]
  | cons a acts ih =>
    have hrest := ih (w := act (tokenLink τ) w a) (by simpa [act] using h)
    simpa [absorb, act, emit, h, tokenLink] using hrest

/-- Without a connection, what the stub sends is gone. -/
theorem absorb_closed {w : World τ L} (h : w.sockOpen = false) (acts : List (StubAct τ)) :
    (w.absorb link acts).link = w.link ∧ (w.absorb link acts).emitted = w.emitted := by
  induction acts generalizing w with
  | nil => exact ⟨rfl, rfl⟩
  | cons a acts ih =>
    have hrest := ih (w := act link w a) (by simpa [act] using h)
    simpa [absorb, act, emit, h] using hrest

variable {link : Link τ N L} {c : Choice τ N} {w : World τ L}

/-- A successful send delivers the message over an open connection. -/
theorem send_ok {message : Sent} (h : (w.send link message c).1 = .ok ()) :
    w.sockOpen = true ∧ (w.send link message c).2 = w.delivered link message c := by
  unfold send at h ⊢
  split_ifs at h ⊢ with hopen hfails
  exact ⟨hopen, rfl⟩

/-- An acknowledgement read over an open connection. -/
theorem consumeAck_open (h : w.sockOpen = true) : w.consumeAck link c =
    ((link.consumeAck c.net w.link).1.map fun _ => (), {w with
      pendingReplies := w.pendingReplies ++ (link.consumeAck c.net w.link).2.1
      link := (link.consumeAck c.net w.link).2.2
      sockOpen := !losesConnection (link.consumeAck c.net w.link).1
      trace := w.trace ++ [ackEvent (link.consumeAck c.net w.link).1]}) := by
  rw [consumeAck, if_pos h]

/-- A packet read over an open connection. -/
theorem readPacket_open (h : w.sockOpen = true) : w.readPacket link c =
    ((link.readPacket c.net w.link).1, {w with
      link := (link.readPacket c.net w.link).2
      sockOpen := !losesConnection (link.readPacket c.net w.link).1
      trace := w.trace ++ [readEvent (link.readPacket c.net w.link).1]}) := by
  rw [readPacket, if_pos h]

/-- Without a connection an acknowledgement read raises at once. -/
theorem consumeAck_closed (h : w.sockOpen = false) : w.consumeAck link c =
    (.error (.connectionLost "GDB socket is not connected"), w) := by
  rw [consumeAck, if_neg (by simp [h])]

/-- Without a connection a packet read raises at once. -/
theorem readPacket_closed (h : w.sockOpen = false) : w.readPacket link c =
    (.error (.connectionLost "GDB socket is not connected"), w) := by
  rw [readPacket, if_neg (by simp [h])]

/-- What an access records. -/
def recorded (link : Link τ N L) (c : Choice τ N) (w : World τ L) : Op τ → List (Obs τ)
  | .send message => if w.sockOpen && !c.sendFails then [.sent message c.obeyed] else []
  | .consumeAck =>
    if w.sockOpen then [ackEvent (link.consumeAck c.net (w.absorb link c.acts).link).1] else []
  | .readPacketFromWire _ =>
    if w.sockOpen then [readEvent ((w.absorb link c.acts).readPacket link c).1] else []
  | .appendLog bpId _ raw => [.logged bpId raw]
  | .pushPending raw => [.surfaced raw]
  | _ => []

/-- The records of a send. -/
theorem send_trace (message : Sent) : (w.send link message c).2.trace =
    w.trace ++ if w.sockOpen && !c.sendFails then [.sent message c.obeyed] else [] := by
  unfold send
  cases hopen : w.sockOpen <;> cases hfails : c.sendFails <;> simp [closed, delivered]

/-- The records of a wait for an acknowledgement. -/
theorem consumeAck_trace : (w.consumeAck link c).2.trace =
    w.trace ++ if w.sockOpen then [ackEvent (link.consumeAck c.net w.link).1] else [] := by
  cases hopen : w.sockOpen with
  | false => simp [consumeAck_closed hopen]
  | true => simp [consumeAck_open hopen]

/-- The records of a packet read. -/
theorem readPacket_trace : (w.readPacket link c).2.trace =
    w.trace ++ if w.sockOpen then [readEvent (w.readPacket link c).1] else [] := by
  cases hopen : w.sockOpen with
  | false => simp [readPacket_closed hopen]
  | true => simp [readPacket_open hopen]

/-- Connecting records nothing. -/
theorem connect_trace : (w.connect link c).2.trace = w.trace := by
  unfold connect
  split_ifs <;> rfl

/-- Every access only adds to the trace, and this is what. -/
theorem step_trace (link : Link τ N L) (o : Op τ) (c : Choice τ N) (w : World τ L) :
    (step link o c w).2.trace = w.trace ++ recorded link c w o := by
  cases o with
  | send message =>
    have hsend : ((w.absorb link c.acts).send link message c).2.trace = _ := send_trace message
    rwa [absorb_trace, absorb_sockOpen] at hsend
  | consumeAck =>
    have hack : ((w.absorb link c.acts).consumeAck link c).2.trace = _ := consumeAck_trace
    rwa [absorb_trace, absorb_sockOpen] at hack
  | readPacketFromWire timeout =>
    have hread : ((w.absorb link c.acts).readPacket link c).2.trace = _ := readPacket_trace
    rwa [absorb_trace, absorb_sockOpen] at hread
  | connect =>
    have hconnect : ((w.absorb link c.acts).connect link c).2.trace = _ := connect_trace
    exact hconnect.trans ((absorb_trace link c.acts w).trans (List.append_nil _).symm)
  | appendLog bpId capture raw => rfl
  | pushPending raw => rfl
  | markRunning | markPaused | close =>
    simp only [step, recorded, List.append_nil]
    split_ifs <;> rfl
  | _ => first
    | exact (List.append_nil _).symm
    | exact (absorb_trace link c.acts w).trans (List.append_nil _).symm

end World

end Frames

end DolphinRe.SessionMachine
