import DolphinRe.FirstVisits
import DolphinRe.SteppedTarget

/-!
# A target that runs to its breakpoints

A deterministic machine executes instructions by itself once it has been told
to continue, and halts in the first state that triggers one of the points armed
in its stub. The stub answers register reads of a halted target and accepts
changes of its points; it reports each halt once. Nothing is assumed of a
target that is disturbed while it runs.
-/

namespace DolphinRe.RunningTarget

open PythonText GdbPackets GdbWire GdbTokens StopReplies EffectProgram SessionMachine GdbClient SessionTools
  ExecutionTools LinkRefinement DataReplies MemoryPackets WatcherSurvival SteppedTarget FirstVisits

section Targets

/-- A machine with a debugger stub. -/
structure Debuggee (σ : Type) where
  /-- The program counter. -/
  pc : σ → UInt32
  /-- The general registers. -/
  gprs : σ → Fin 32 → UInt32
  /-- The memory, where there is any. -/
  memory : σ → ℤ → Option UInt8
  /-- The bytes of a numbered register, if the stub reports it. -/
  register : σ → ℕ → Option (List UInt8)
  /-- The state after the instruction at the program counter. -/
  exec : σ → σ
  /-- Whether a point fires on the way into a state. -/
  triggers : Point → σ → Bool
  /-- Where the target halts when it runs with points armed. -/
  run : List Point → σ → Option σ
  /-- What is reported of a halt. -/
  stopReply : σ → Str
  /-- The program counter is reported under its number. -/
  register_pc : ∀ s, register s PC = some (bigEndian (pc s))
  /-- Breakpoints fire where their instruction is next. -/
  triggers_pc : ∀ point s, BpKind.isBreakpoint point.kind = true →
    triggers point s = decide (point.addr = (pc s).toNat)
  /-- The target halts in the first state that triggers a point. -/
  run_iff : ∀ points s s', run points s = some s' ↔
    FirstVisit exec (fun x => points.any fun point => triggers point x) s s'
  /-- A program counter in a report is the target's own. -/
  stopReply_pc : ∀ s pc', (parseStopReply (stopReply s)).pc = some pc' → pc' = (pc s).toNat

/-- What a target does. -/
inductive Phase (σ : Type) where
  | halted (s : σ)
  | running (s : σ)
  /-- Nothing is known of it. -/
  | unknown

/-- What a target does, and the points armed in its stub. -/
structure Stage (σ : Type) where
  /-- The points armed. -/
  points : List Point
  /-- Whether it runs or has halted, and where. -/
  phase : Phase σ

variable {σ τ N L : Type}

namespace Debuggee

variable (d : Debuggee σ)

/-- Whether a state triggers one of the points. -/
def halts (points : List Point) (s : σ) : Bool := points.any fun point => d.triggers point s

/-- Where a target that leaves a state halts next. -/
abbrev HaltsFirst (points : List Point) (s s' : σ) : Prop := FirstVisit d.exec (d.halts points) s s'

/-- The value of a numbered register. -/
def value (s : σ) (regnum : ℕ) : Option ℕ := (d.register s regnum).map fromBytesBig

/-- The target as long as it is halted in a state. -/
def frozen (s : σ) : Target Unit where
  pc _ := d.pc s
  gprs _ := d.gprs s
  memory _ := d.memory s
  next _ := .error .unsent
  stopReply _ := d.stopReply s

/-- Whether a text answers a command to a halted target. -/
def answers (s : σ) : Command → Str → Bool
  | .readRegister regnum, text => registerReply text = d.register s regnum
  | .setBreak _ _ _ _, text => text = "OK".toList
  | command, text => (d.frozen s).answers () command text

/-- The stage once a command has been obeyed. -/
def obey (stage : Stage σ) (command : Command) : Stage σ :=
  match stage.phase, command with
  | .halted _, .readRegister _ => stage
  | .halted _, .readRegisters => stage
  | .halted _, .readMem _ _ => stage
  | .halted _, .setBreak _ _ _ _ => {stage with points := armedAfter (.packet command) stage.points}
  | .halted s, .step => {stage with phase := .halted (d.exec s)}
  | .halted s, .resume => {stage with phase := .running s}
  | _, _ => {stage with phase := .unknown}

/-- The stage once a packet has come from a target: one that runs has halted. -/
def arrive (stage : Stage σ) : Stage σ :=
  match stage.phase with
  | .running s =>
    match d.run stage.points s with
    | some s' => {stage with phase := .halted s'}
    | none => {stage with phase := .unknown}
  | _ => stage

/-- The stage after an event on the connection. -/
def onEvent (stage : Stage σ) : Obs τ → Stage σ
  | .sent (.packet command) obeyed =>
    if obeyed then d.obey stage command else {stage with phase := .unknown}
  | .sent .interrupt _ => {stage with phase := .unknown}
  | .ackFault _ => {stage with phase := .unknown}
  | .got _ => d.arrive stage
  | _ => stage

/-- The stage after some events. -/
def after (stage : Stage σ) (trace : List (Obs τ)) : Stage σ := trace.foldl d.onEvent stage

/-- A halted target answers commands, and has nothing else to say. -/
def replies (s : σ) (last : Option Command) : Except PyError (Packet τ) → Bool
  | .ok packet => last.any fun command => command.answered && d.answers s command packet.text
  | .error e => isTimeout e && !last.any Command.answered

/-- A halted target takes messages, acknowledges and answers them, and its memory can be seen. -/
def serves (s : σ) (link : Link τ N L) (o : Op τ) (c : Choice τ N) (w : World τ L) : Bool :=
  match o with
  | .send message => (World.send link message c w).1 = .ok ()
  | .consumeAck => (World.consumeAck link c w).1 = .ok () && (link.consumeAck c.net w.link).2.1.isEmpty
  | .readPacketFromWire _ => d.replies s (lastCommand w.trace) (World.readPacket link c w).1
  | .hostRead addr size => (d.frozen s).copies (.ok ()) addr size (World.hostRead addr size c)
  | _ => true

/-- A target that runs has acknowledged the command to do so, and reports where it halts. -/
def proceeds (points : List Point) (s : σ) (link : Link τ N L) (o : Op τ) (c : Choice τ N)
    (w : World τ L) : Bool :=
  match o with
  | .consumeAck => c.acts.isEmpty && (World.consumeAck link c w).1 = .ok () &&
      (link.consumeAck c.net w.link).2.1.isEmpty
  | .readPacketFromWire _ =>
    match (World.readPacket link c (w.absorb link c.acts)).1 with
    | .ok packet => c.acts.any StubAct.halts && (d.run points s).any fun s' => packet.text = d.stopReply s'
    | .error e => c.acts.isEmpty && isTimeout e
  | _ => c.acts.isEmpty

/-- What the stub and the network do at an access. -/
def allows (link : Link τ N L) (start : Stage σ) (o : Op τ) (c : Choice τ N) (w : World τ L) : Bool :=
  match (d.after start w.trace).phase with
  | .halted s => c.acts.isEmpty && c.obeyed && d.serves s link o c w
  | .running s => c.obeyed && d.proceeds (d.after start w.trace).points s link o c w
  | .unknown => true

/-- The client next to the target. -/
def machine (link : Link τ N L) (start : Stage σ) : Machine (signature τ) (Choice τ N) (World τ L) :=
  (SessionMachine.machine link).restrict fun o c w => d.allows link start o c w = true

instance (link : Link τ N L) (start : Stage σ) (o : Op τ) (c : Choice τ N) (w : World τ L) :
    Decidable ((d.machine link start).admits o c w) :=
  inferInstanceAs (Decidable (True ∧ d.allows link start o c w = true))

/-- An open connection without unread stops to a target in a stage. -/
structure At (start stage : Stage σ) (w : World τ L) : Prop where
  /-- The connection is open. -/
  opened : w.sockOpen = true
  /-- Nothing is stashed. -/
  settled : w.pendingReplies = []
  /-- What has been sent so far has brought the target there. -/
  current : d.after start w.trace = stage

end Debuggee

end Targets

section Stages

variable {σ τ N L : Type} {d : Debuggee σ} {link : Link τ N L} {start stage : Stage σ} {points : List Point}
  {s s' : σ} {w v : World τ L}

/-- The last event is the last to move the target. -/
theorem after_concat (d : Debuggee σ) (stage : Stage σ) (trace : List (Obs τ)) (event : Obs τ) :
    d.after stage (trace ++ [event]) = d.onEvent (d.after stage trace) event := by
  rw [Debuggee.after, List.foldl_append, List.foldl_cons, List.foldl_nil]
  rfl

/-- The same connection after an event that moves the target. -/
theorem Debuggee.At.event (h : d.At start stage w) (event : Obs τ) (hopen : v.sockOpen = true)
    (hpending : v.pendingReplies = []) (htrace : v.trace = w.trace ++ [event]) :
    d.At start (d.onEvent stage event) v where
  opened := hopen
  settled := hpending
  current := by rw [htrace, after_concat, h.current]

/-- The target does not notice what leaves the connection as it is. -/
theorem Debuggee.At.same (h : d.At start stage w) (hopen : v.sockOpen = w.sockOpen)
    (hpending : v.pendingReplies = w.pendingReplies) (htrace : v.trace = w.trace) :
    d.At start stage v where
  opened := hopen.trans h.opened
  settled := hpending.trans h.settled
  current := by rw [htrace, h.current]

/-- What a halted target admits. -/
theorem serves_of_admits (hw : d.At start ⟨points, .halted s⟩ w) {o : Op τ} {c : Choice τ N}
    (h : (d.machine link start).admits o c w) :
    c.acts = [] ∧ c.obeyed = true ∧ d.serves s link o c w = true := by
  have hallowed : d.allows link start o c w = true := h.2
  unfold Debuggee.allows at hallowed
  rw [hw.current] at hallowed
  dsimp only at hallowed
  rw [Bool.and_eq_true, Bool.and_eq_true, List.isEmpty_iff] at hallowed
  exact ⟨hallowed.1.1, hallowed.1.2, hallowed.2⟩

/-- What a target that runs admits. -/
theorem proceeds_of_admits (hw : d.At start ⟨points, .running s⟩ w) {o : Op τ} {c : Choice τ N}
    (h : (d.machine link start).admits o c w) : d.proceeds points s link o c w = true := by
  have hallowed : d.allows link start o c w = true := h.2
  unfold Debuggee.allows at hallowed
  rw [hw.current] at hallowed
  dsimp only at hallowed
  rw [Bool.and_eq_true] at hallowed
  exact hallowed.2

/-- A stub that does nothing on its own changes nothing. -/
theorem absorb_of_nil {c : Choice τ N} (h : c.acts = []) : w.absorb link c.acts = w := by
  rw [h]
  rfl

/-- What the stub sends of its own and the halt that comes with it leave the rest as it is. -/
theorem withoutQueries_absorb (link : Link τ N L) (acts : List (StubAct τ)) (w : World τ L) :
    withoutQueries (w.absorb link acts) =
      {withoutQueries w with running := (w.absorb link acts).running} := by
  simp only [withoutQueries, withLink, World.absorb_state, World.absorb_attached, World.absorb_autoResume,
    World.absorb_breakpoints, World.absorb_nextId, World.absorb_watcher, World.absorb_sockOpen,
    World.absorb_sockTimeout, World.absorb_pendingReplies, World.absorb_armed, World.absorb_watchers,
    World.absorb_trace]

/-- A stub that halts its target leaves it halted. -/
theorem running_absorb_of_halts (link : Link τ N L) {acts : List (StubAct τ)} (h : acts.any StubAct.halts = true)
    (w : World τ L) : (w.absorb link acts).running = false := by
  induction acts generalizing w with
  | nil => simp at h
  | cons a acts ih =>
    change ((World.act link w a).absorb link acts).running = false
    cases hhalts : a.halts with
    | false =>
      rw [List.any_cons, hhalts, Bool.false_or] at h
      exact ih h _
    | true =>
      have hstopped : (World.act link w a).running = false := by
        simp only [World.act, hhalts, Bool.not_true, Bool.and_false]
      refine Bool.eq_false_iff.mpr fun hrunning => ?_
      rw [World.running_of_absorb link acts _ hrunning] at hstopped
      cases hstopped

end Stages

section Messages

variable {σ τ N L : Type} {d : Debuggee σ} {link : Link τ N L} {start stage : Stage σ} {points : List Point}
  {s s' : σ} {w v : World τ L}

/-- What a message does, apart from what is on the wire. -/
def obeyed (command : Command) (w : World τ Unit) : World τ Unit :=
  {w with
    running := runningAfter (.packet command) w.running
    armed := armedAfter (.packet command) w.armed
    trace := if isQuery command then w.trace else w.trace ++ [.sent (.packet command) true]}

/-- A command that is obeyed leaves what it says. -/
theorem withoutQueries_delivered {command : Command} {c : Choice τ N} (hobeyed : c.obeyed = true)
    (w : World τ L) :
    withoutQueries (w.delivered link (.packet command) c) = obeyed command (withoutQueries w) := by
  have htrace : (w.trace ++ [Obs.sent (.packet command) true]).filter isAct =
      if isQuery command then w.trace.filter isAct
      else w.trace.filter isAct ++ [.sent (.packet command) true] := by
    rw [List.filter_append]
    cases hquery : isQuery command with
    | true =>
      rw [if_pos rfl, List.filter_cons_of_neg (by simp only [isAct, hquery, Bool.not_true,
        Bool.false_eq_true, not_false_eq_true]), List.filter_nil, List.append_nil]
    | false =>
      rw [if_neg Bool.false_ne_true, List.filter_cons_of_pos (by simp only [isAct, hquery, Bool.not_false]),
        List.filter_nil]
  simp only [withoutQueries, withLink, World.delivered, hobeyed, if_true, htrace, obeyed]

/-- A command reaches a halted target. -/
theorem wp_sendall_halted (command : Command) (hw : d.At start ⟨points, .halted s⟩ w) :
    (sendall (.packet command)).wp (d.machine link start) (fun r v =>
      r = .ok () ∧ d.At start (d.obey ⟨points, .halted s⟩ command) v ∧ lastCommand v.trace = some command ∧
        withoutQueries v = obeyed command (withoutQueries w)) w := by
  rw [wp_sendall]
  intro c hadmitted
  obtain ⟨hacts, hobeyed, hserved⟩ := serves_of_admits hw hadmitted
  change (World.send link (.packet command) c (w.absorb link c.acts)).1 = .ok () ∧
    d.At start _ (World.send link (.packet command) c (w.absorb link c.acts)).2 ∧
    lastCommand (World.send link (.packet command) c (w.absorb link c.acts)).2.trace = some command ∧
    withoutQueries (World.send link (.packet command) c (w.absorb link c.acts)).2 = _
  rw [absorb_of_nil hacts]
  have hsent : (World.send link (.packet command) c w).1 = .ok () := of_decide_eq_true hserved
  rw [(World.send_ok hsent).2]
  have hmoved : d.At start (d.onEvent ⟨points, .halted s⟩ (Obs.sent (.packet command) true : Obs τ))
      (w.delivered link (.packet command) c) := by
    refine hw.event _ hw.opened hw.settled ?_
    simp only [World.delivered, hobeyed]
  refine ⟨hsent, hmoved, by simp [World.delivered, lastCommand], ?_⟩
  exact withoutQueries_delivered hobeyed w

/-- The outcome of a read of the acknowledgement that comes at once. -/
theorem consumeAck_prompt {c : Choice τ N} (hopen : w.sockOpen = true) (hpending : w.pendingReplies = [])
    (hok : (World.consumeAck link c w).1 = .ok ()) (hnone : (link.consumeAck c.net w.link).2.1 = []) :
    ∃ tag, (World.consumeAck link c w).2.trace = w.trace ++ [.acked tag] ∧
      (World.consumeAck link c w).2.sockOpen = true ∧ (World.consumeAck link c w).2.pendingReplies = [] ∧
      withoutQueries (World.consumeAck link c w).2 = withoutQueries w := by
  rw [World.consumeAck_open hopen] at hok ⊢
  dsimp only at hok ⊢
  cases hread : (link.consumeAck c.net w.link).1 with
  | error e =>
    rw [hread] at hok
    cases hok
  | ok tag =>
    have hstays : (!World.losesConnection (Except.ok tag : Except PyError τ)) = w.sockOpen := by
      rw [hopen]
      rfl
    refine ⟨tag, rfl, rfl, by rw [hpending, hnone]; rfl, ?_⟩
    simp only [withoutQueries, withLink, hnone, List.append_nil, hstays, filter_isAct_concat (isAct_ackEvent _)]

/-- It is acknowledged. -/
theorem wp_consumeAck_halted {last : Option Command} (hlast : lastCommand w.trace = last)
    (hw : d.At start ⟨points, .halted s⟩ w) : (consumeAck : Code τ Unit).wp (d.machine link start) (fun r v =>
      r = .ok () ∧ d.At start ⟨points, .halted s⟩ v ∧ lastCommand v.trace = last ∧
        withoutQueries v = withoutQueries w) w := by
  rw [wp_consumeAck]
  intro c hadmitted
  obtain ⟨hacts, -, hserved⟩ := serves_of_admits hw hadmitted
  change (World.consumeAck link c (w.absorb link c.acts)).1 = .ok () ∧
    d.At start _ (World.consumeAck link c (w.absorb link c.acts)).2 ∧
    lastCommand (World.consumeAck link c (w.absorb link c.acts)).2.trace = last ∧
    withoutQueries (World.consumeAck link c (w.absorb link c.acts)).2 = withoutQueries w
  rw [absorb_of_nil hacts]
  unfold Debuggee.serves at hserved
  rw [Bool.and_eq_true, List.isEmpty_iff] at hserved
  have hok : (World.consumeAck link c w).1 = .ok () := of_decide_eq_true hserved.1
  obtain ⟨tag, htrace, hopen, hpending, hsame⟩ := consumeAck_prompt hw.opened hw.settled hok hserved.2
  refine ⟨hok, hw.event _ hopen hpending htrace, ?_, hsame⟩
  rw [htrace]
  simpa [lastCommand] using hlast

/-- A command to run is acknowledged before the target halts. -/
theorem wp_consumeAck_running (hw : d.At start ⟨points, .running s⟩ w) :
    (consumeAck : Code τ Unit).wp (d.machine link start) (fun r v =>
      r = .ok () ∧ d.At start ⟨points, .running s⟩ v ∧ withoutQueries v = withoutQueries w) w := by
  rw [wp_consumeAck]
  intro c hadmitted
  have hproceeds := proceeds_of_admits hw hadmitted
  unfold Debuggee.proceeds at hproceeds
  rw [Bool.and_eq_true, Bool.and_eq_true, List.isEmpty_iff, List.isEmpty_iff] at hproceeds
  change (World.consumeAck link c (w.absorb link c.acts)).1 = .ok () ∧
    d.At start _ (World.consumeAck link c (w.absorb link c.acts)).2 ∧
    withoutQueries (World.consumeAck link c (w.absorb link c.acts)).2 = withoutQueries w
  rw [absorb_of_nil hproceeds.1.1]
  have hok : (World.consumeAck link c w).1 = .ok () := of_decide_eq_true hproceeds.1.2
  obtain ⟨tag, htrace, hopen, hpending, hsame⟩ := consumeAck_prompt hw.opened hw.settled hok hproceeds.2
  exact ⟨hok, hw.event _ hopen hpending htrace, hsame⟩

/-- A command that is answered is answered from the state of the target. -/
theorem wp_readPacketFromWire_halted (timeout : Option ℕ) {command : Command} (hanswered : command.answered = true)
    (hlast : lastCommand w.trace = some command) (hw : d.At start ⟨points, .halted s⟩ w) :
    (readPacketFromWire timeout : Code τ (Packet τ)).wp (d.machine link start) (fun r v =>
      (∃ packet, r = .ok packet ∧ d.answers s command packet.text = true) ∧
        d.At start ⟨points, .halted s⟩ v ∧ withoutQueries v = withoutQueries w) w := by
  rw [wp_readPacketFromWire]
  intro c hadmitted
  obtain ⟨hacts, -, hserved⟩ := serves_of_admits hw hadmitted
  change (∃ packet, (World.readPacket link c (w.absorb link c.acts)).1 = .ok packet ∧ _) ∧
    d.At start _ (World.readPacket link c (w.absorb link c.acts)).2 ∧
    withoutQueries (World.readPacket link c (w.absorb link c.acts)).2 = withoutQueries w
  rw [absorb_of_nil hacts]
  unfold Debuggee.serves at hserved
  dsimp only at hserved
  rw [hlast] at hserved
  rw [World.readPacket_open hw.opened] at hserved ⊢
  dsimp only at hserved ⊢
  cases hread : (link.readPacket c.net w.link).1 with
  | error e =>
    rw [hread] at hserved
    simp [Debuggee.replies, hanswered] at hserved
  | ok packet =>
    rw [hread] at hserved
    have hanswer : d.answers s command packet.text = true := by
      simpa [Debuggee.replies, hanswered] using hserved
    have hopen : (!World.losesConnection (Except.ok packet : Except PyError (Packet τ))) = w.sockOpen := by
      rw [hw.opened]
      rfl
    refine ⟨⟨packet, rfl, hanswer⟩, hw.event (.got packet) rfl hw.settled rfl, ?_⟩
    simp only [withoutQueries, withLink, hopen, filter_isAct_concat (isAct_readEvent _)]

/-- Commands that a halted target answers without moving. -/
def stays : Command → Bool
  | .setBreak _ _ _ _ => true
  | command => isQuery command

/-- The stage after such a command. -/
def staying (points : List Point) (s : σ) (command : Command) : Stage σ :=
  ⟨armedAfter (.packet command) points, .halted s⟩

/-- A halted target answers the commands that do not move it. -/
theorem wp_cmd (command : Command) (hstays : stays command = true) (hw : d.At start ⟨points, .halted s⟩ w) :
    (cmd command : Code τ (Packet τ)).wp (d.machine link start) (fun r v =>
      (∃ packet, r = .ok packet ∧ d.answers s command packet.text = true) ∧
        d.At start (staying points s command) v ∧ withoutQueries v = obeyed command (withoutQueries w)) w := by
  have hanswered : command.answered = true := by
    cases command <;> first | rfl | cases hstays
  have hobey : d.obey ⟨points, .halted s⟩ command = staying points s command := by
    cases command <;> first | rfl | cases hstays
  unfold cmd sendPacket
  rw [Program.bind_eq, Program.bind_eq, Program.wp_bind, Program.wp_bind]
  refine Program.wp_mono ?_ (wp_sendall_halted command hw)
  rintro r₁ v₁ ⟨rfl, hv₁, hlast₁, hsame₁⟩
  rw [hobey] at hv₁
  rw [Program.onValue_ok]
  refine Program.wp_mono ?_ (wp_consumeAck_halted hlast₁ hv₁)
  rintro r₂ v₂ ⟨rfl, hv₂, hlast₂, hsame₂⟩
  rw [Program.onValue_ok]
  refine Program.wp_mono ?_ (wp_readPacketFromWire_halted none hanswered hlast₂ hv₂)
  rintro r₃ v₃ ⟨hpacket, hv₃, hsame₃⟩
  exact ⟨hpacket, hv₃, hsame₃.trans (hsame₂.trans hsame₁)⟩

/-- A halted target runs once it is told to. -/
theorem wp_continueAsync (hw : d.At start ⟨points, .halted s⟩ w) :
    (continueAsync : Code τ Unit).wp (d.machine link start) (fun r v =>
      r = .ok () ∧ d.At start ⟨points, .running s⟩ v ∧
        withoutQueries v = obeyed .resume (withoutQueries w)) w := by
  unfold continueAsync sendPacket
  rw [Program.bind_eq, Program.wp_bind]
  refine Program.wp_mono ?_ (wp_sendall_halted .resume hw)
  rintro r₁ v₁ ⟨rfl, hv₁, -, hsame₁⟩
  rw [Program.onValue_ok]
  refine Program.wp_mono ?_ (wp_consumeAck_running hv₁)
  rintro r₂ v₂ ⟨rfl, hv₂, hsame₂⟩
  exact ⟨rfl, hv₂, hsame₂.trans hsame₁⟩

/-- A wait for the stop of a target that runs: it goes on running, or has halted. -/
def Waited (d : Debuggee σ) (start : Stage σ) (points : List Point) (s : σ) (w : World τ L)
    (r : Except PyError (Packet τ)) (v : World τ L) : Prop :=
  (∃ e, isTimeout e = true ∧ r = .error e ∧ d.At start ⟨points, .running s⟩ v ∧
      withoutQueries v = withoutQueries w) ∨
    ∃ raw s', d.run points s = some s' ∧ raw.text = d.stopReply s' ∧ r = .ok raw ∧
      d.At start ⟨points, .halted s'⟩ v ∧ withoutQueries v = {withoutQueries w with running := false}

/-- While the target runs, a read waits for its halt. -/
theorem wp_readPacketFromWire_running (timeout : Option ℕ) (hw : d.At start ⟨points, .running s⟩ w) :
    (readPacketFromWire timeout : Code τ (Packet τ)).wp (d.machine link start)
      (Waited d start points s w) w := by
  rw [wp_readPacketFromWire]
  intro c hadmitted
  have hproceeds := proceeds_of_admits hw hadmitted
  unfold Debuggee.proceeds at hproceeds
  dsimp only at hproceeds
  change Waited d start points s w (World.readPacket link c (w.absorb link c.acts)).1
    (World.readPacket link c (w.absorb link c.acts)).2
  have hopen : (w.absorb link c.acts).sockOpen = true := by
    rw [World.absorb_sockOpen]
    exact hw.opened
  rw [World.readPacket_open hopen] at hproceeds ⊢
  dsimp only at hproceeds ⊢
  cases hread : (link.readPacket c.net (w.absorb link c.acts).link).1 with
  | error e =>
    rw [hread] at hproceeds
    dsimp only at hproceeds
    rw [Bool.and_eq_true, List.isEmpty_iff] at hproceeds
    have hstays : World.losesConnection (Except.error e : Except PyError (Packet τ)) = false := by
      obtain ⟨message, rfl⟩ := eq_of_isTimeout hproceeds.2
      rfl
    rw [absorb_of_nil hproceeds.1, hstays]
    refine Or.inl ⟨e, hproceeds.2, rfl, hw.event (.readFault e) rfl hw.settled rfl, ?_⟩
    simp only [withoutQueries, withLink, filter_isAct_concat (isAct_readEvent _), hw.opened, Bool.not_false]
  | ok packet =>
    rw [hread] at hproceeds
    dsimp only at hproceeds
    rw [Bool.and_eq_true] at hproceeds
    cases hrun : d.run points s with
    | none =>
      rw [hrun] at hproceeds
      exact absurd hproceeds.2 Bool.false_ne_true
    | some s' =>
      rw [hrun, Option.any_some] at hproceeds
      have harrived : d.onEvent ⟨points, .running s⟩ (Obs.got packet) = ⟨points, .halted s'⟩ := by
        simp only [Debuggee.onEvent, Debuggee.arrive, hrun]
      have hpending := (World.absorb_pendingReplies link c.acts w).trans hw.settled
      have htrace := congrArg (· ++ [Obs.got packet]) (World.absorb_trace link c.acts w)
      refine Or.inr ⟨packet, s', hrun, of_decide_eq_true hproceeds.2, rfl, ?_, ?_⟩
      · rw [← harrived]
        exact hw.event _ rfl hpending htrace
      · have hsame := withoutQueries_absorb link c.acts w
        rw [running_absorb_of_halts link hproceeds.1 w] at hsame
        rw [← hsame]
        simp only [withoutQueries, withLink, filter_isAct_concat (isAct_readEvent _), hopen,
          World.losesConnection, Bool.not_false]

/-- So does waiting for a stop. -/
theorem wp_waitForStop (timeout : Option ℕ) (hw : d.At start ⟨points, .running s⟩ w) :
    (waitForStop timeout : Code τ (Packet τ)).wp (d.machine link start) (Waited d start points s w) w :=
  wp_readPacket_settled rfl hw.settled (wp_readPacketFromWire_running timeout hw)

end Messages

section Observing

variable {τ N L α β : Type} {M : Machine (signature τ) (Choice τ N) (World τ L)} {H : World τ L → Prop}
  {w : World τ L}

/-- The program ends with a result of a kind; a condition stays, and nothing but queries is made. -/
def Observes (M : Machine (signature τ) (Choice τ N) (World τ L)) (H : World τ L → Prop) (p : Code τ α)
    (good : Except PyError α → Prop) : Prop :=
  ∀ w, H w → p.wp M (fun r v => good r ∧ H v ∧ withoutQueries v = withoutQueries w) w

/-- A value observes nothing. -/
theorem observes_done {a : α} {good : Except PyError α → Prop} (h : good (.ok a)) :
    Observes M H (.done a : Code τ α) good := fun _ hw => ⟨h, hw, rfl⟩

/-- Neither does an outcome. -/
theorem observes_ofExcept (r : Except PyError α) :
    Observes M H (Program.ofExcept r : Code τ α) (· = r) := by
  intro w hw
  rw [Program.wp_ofExcept]
  exact ⟨rfl, hw, rfl⟩

/-- Observations one after the other. -/
theorem Observes.bind {p : Code τ α} {f : α → Code τ β} {good : Except PyError α → Prop}
    {fine : Except PyError β → Prop} (hp : Observes M H p good)
    (hf : ∀ a, good (.ok a) → Observes M H (f a) fine) (herror : ∀ e, good (.error e) → fine (.error e)) :
    Observes M H (p.bind f) fine := by
  intro w hw
  rw [Program.wp_bind]
  refine Program.wp_mono ?_ (hp w hw)
  rintro r v ⟨hr, hv, hsame⟩
  cases r with
  | error e => exact ⟨herror e hr, hv, hsame⟩
  | ok a =>
    rw [Program.onValue_ok]
    refine Program.wp_mono ?_ (hf a hr v hv)
    exact fun r u hu => ⟨hu.1, hu.2.1, hu.2.2.trans hsame⟩

/-- The same when the first cannot fail. -/
theorem Observes.bind_value {p : Code τ α} {f : α → Code τ β} {a : α} {fine : Except PyError β → Prop}
    (hp : Observes M H p (· = .ok a)) (hf : Observes M H (f a) fine) : Observes M H (p.bind f) fine := by
  refine hp.bind (fun a' ha' => ?_) fun e he => ?_
  · have heq : a' = a := Except.ok.inj ha'
    rw [heq]
    exact hf
  · simp at he

/-- What comes behind an observation that cannot fail. -/
theorem Observes.wp_bind {p : Code τ α} {f : α → Code τ β} {a : α} {Q : Except PyError β → World τ L → Prop}
    (hp : Observes M H p (· = .ok a)) (hw : H w)
    (hf : ∀ v, H v → withoutQueries v = withoutQueries w → (f a).wp M Q v) : (p.bind f).wp M Q w := by
  rw [Program.wp_bind]
  refine Program.wp_mono ?_ (hp w hw)
  rintro r v ⟨rfl, hv, hsame⟩
  rw [Program.onValue_ok]
  exact hf v hv hsame

/-- An observation whose outcome is looked at. -/
theorem Observes.attempt_bind {p : Code τ α} {f : Except PyError α → Code τ β} {good : Except PyError α → Prop}
    {fine : Except PyError β → Prop} (hp : Observes M H p good)
    (hf : ∀ outcome, good outcome → Observes M H (f outcome) fine) :
    Observes M H (p.attempt.bind f) fine := by
  intro w hw
  rw [Program.wp_bind, Program.wp_attempt]
  refine Program.wp_mono ?_ (hp w hw)
  rintro r v ⟨hr, hv, hsame⟩
  rw [Program.onValue_ok]
  refine Program.wp_mono ?_ (hf r hr v hv)
  exact fun r' u hu => ⟨hu.1, hu.2.1, hu.2.2.trans hsame⟩

/-- The lock changes no observation. -/
theorem Observes.locked {link : Link τ N L} (hM : M.step = World.step link) {p : Code τ α}
    {good : Except PyError α → Prop} (hp : Observes M H p good) : Observes M H (locked p) good :=
  fun w hw => wp_locked hM (hp w hw)

end Observing

section Reading

variable {σ τ N L α : Type} {d : Debuggee σ} {link : Link τ N L} {start : Stage σ} {points : List Point} {s : σ}
  {H : World τ L → Prop}

/-- A condition on a session connected to a halted target, which queries keep. -/
structure Attends (d : Debuggee σ) (start : Stage σ) (points : List Point) (s : σ) (H : World τ L → Prop) :
    Prop where
  /-- The target has halted there. -/
  stands : ∀ w, H w → d.At start ⟨points, .halted s⟩ w
  /-- Queries keep it. -/
  keeps : ∀ w v, H w → d.At start ⟨points, .halted s⟩ v → withoutQueries v = withoutQueries w → H v

/-- Standing at a halt is kept by queries. -/
theorem attends_at : Attends d start points s (d.At start ⟨points, .halted s⟩ : World τ L → Prop) where
  stands _ hw := hw
  keeps _ _ _ hv _ := hv

/-- Queries leave nothing behind. -/
theorem obeyed_query {command : Command} (h : isQuery command = true) (w : World τ Unit) :
    obeyed command w = w := by
  cases command <;> first | rfl | cases h

/-- They leave the target where it is. -/
theorem staying_query {command : Command} (h : isQuery command = true) (points : List Point) (s : σ) :
    staying points s command = ⟨points, .halted s⟩ := by
  cases command <;> first | rfl | cases h

/-- Queries are answered. -/
theorem observes_cmd (hH : Attends d start points s H) {command : Command} (hquery : isQuery command = true) :
    Observes (d.machine link start) H (cmd command : Code τ (Packet τ))
      (fun r => ∃ packet, r = .ok packet ∧ d.answers s command packet.text = true) := by
  intro w hw
  have hstays : stays command = true := by
    cases command <;> first | rfl | cases hquery
  refine Program.wp_mono ?_ (wp_cmd _ hstays (hH.stands w hw))
  rintro r v ⟨hpacket, hat, hsame⟩
  rw [staying_query hquery] at hat
  rw [obeyed_query hquery] at hsame
  exact ⟨hpacket, hH.keeps w v hw hat hsame, hsame⟩

/-- A program that makes something of an answer. -/
theorem observes_cmd_bind (hH : Attends d start points s H) {command : Command}
    (hquery : isQuery command = true) {f : Packet τ → Code τ α} {good : Except PyError α → Prop}
    (hf : ∀ packet, d.answers s command packet.text = true →
      Observes (d.machine link start) H (f packet) good) :
    Observes (d.machine link start) H ((cmd command).bind f) good := by
  refine (observes_cmd hH hquery).bind (fun packet hpacket => ?_) fun e he => ?_
  · obtain ⟨packet', heq, hanswer⟩ := hpacket
    rw [Except.ok.inj heq]
    exact hf packet' hanswer
  · obtain ⟨packet', heq, -⟩ := he
    simp at heq

/-- The register of the program counter holds it. -/
theorem value_pc (d : Debuggee σ) (s : σ) : d.value s PC = some (d.pc s).toNat := by
  unfold Debuggee.value
  rw [d.register_pc, Option.map_some, fromBytesBig_bigEndian]

/-- A register that is read is the target's. -/
theorem observes_readRegister (hH : Attends d start points s H) (regnum : ℕ) :
    Observes (d.machine link start) H (readRegister regnum : Code τ (Option ℕ))
      (· = .ok (d.value s regnum)) := by
  refine observes_cmd_bind hH rfl fun packet hanswer => observes_done ?_
  have hbytes : registerReply packet.text = d.register s regnum := of_decide_eq_true hanswer
  unfold Debuggee.value
  rw [← hbytes]
  unfold registerReply
  split_ifs <;> rfl

/-- So are its bytes. -/
theorem observes_readRegisterBytes (hH : Attends d start points s H) (regnum : ℕ) :
    Observes (d.machine link start) H (readRegisterBytes regnum : Code τ (Option (List UInt8)))
      (· = .ok (d.register s regnum)) := by
  refine observes_cmd_bind hH rfl fun packet hanswer => observes_done ?_
  have hbytes : registerReply packet.text = d.register s regnum := of_decide_eq_true hanswer
  rw [← hbytes]
  rfl

/-- The general registers as they are sent. -/
theorem observes_readRegisters (hH : Attends d start points s H) :
    Observes (d.machine link start) H (readRegisters : Code τ (List UInt8))
      (· = .ok (block ((d.frozen s).registers ()))) := by
  have hlength : ((d.frozen s).registers ()).length = 32 := List.length_ofFn
  refine observes_cmd_bind hH rfl fun packet hanswer => ?_
  have htext : packet.text = toHex (block ((d.frozen s).registers ())) := of_decide_eq_true hanswer
  have hfull : block ((d.frozen s).registers ()) ≠ [] := by
    intro hempty
    have hnone := congrArg List.length hempty
    rw [length_block, hlength] at hnone
    simp at hnone
  rw [htext, raiseIfError_toHex hfull, fromHexOrRaise_toHex]
  exact observes_done rfl

end Reading

section Samples

/-- Where the machine that goes back and forth is. -/
def spinningPc (forth : Bool) : UInt32 := if forth then 0x80003104 else 0x80003100

/-- Two steps lead back. -/
theorem not_not_step (forth : Bool) : not^[2] forth = forth := Bool.not_not forth

/-- A machine that goes back and forth between two instructions. -/
def spinningTarget : Debuggee Bool where
  pc := spinningPc
  gprs _ _ := 0
  memory _ := image 0x80003100 [0, 0, 0, 0, 0, 0, 0, 0]
  register s regnum :=
    if regnum = PC then some (bigEndian (spinningPc s))
    else if regnum = LR then some (bigEndian 0x80003104) else none
  exec := not
  triggers point s := decide (point.addr = (spinningPc s).toNat)
  run points := firstVisit? not (fun s => points.any fun point => decide (point.addr = (spinningPc s).toNat)) 2
  stopReply _ := "T05".toList
  register_pc _ := if_pos rfl
  triggers_pc _ _ _ := rfl
  run_iff _ _ _ := search_iff not_not_step (Nat.succ_pos 1)
  stopReply_pc _ _ h := by
    have hnone : (parseStopReply "T05".toList).pc = none := by decide +kernel
    rw [hnone] at h
    cases h

end Samples

end DolphinRe.RunningTarget
