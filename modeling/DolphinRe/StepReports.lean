import DolphinRe.HeartbeatProbe
import DolphinRe.Footprints

/-!
# What a step reports

While the target is halted the stub sends nothing of its own accord. A step
reads through the queue of stashed stops, so a run of steps hands out the
stops left over from before and then its own, in order: with any backlog every
report lags behind its step.
-/

namespace DolphinRe.StepReports

open PythonText GdbPackets GdbWire GdbTokens StopReplies EffectProgram SessionMachine GdbClient
  SessionTools BreakpointTools ExecutionTools LinkRefinement StubBehaviour PromptStub CommandPairing
  HeartbeatProbe ToolStructure
open PpcDisassembly (DisasmInstruction)

section Stub

/-- The acknowledgement of `s` and the stop of the step, numbered like the command. -/
def isStepAnswer (n : ℕ) : Tokens → Bool
  | [.ack tag, .frame _ tag'] => tag = .reply n && tag' = .stop n .stepped
  | _ => false

/-- What the stub of a halted target sends when a message arrives. -/
def answersHalted (o : Op Origin) (response : Tokens) (n : ℕ) : Bool :=
  match o with
  | .send (.packet .step) => isStepAnswer n response
  | o => answersAdjacent o response n

/-- A halted target: the stub sends nothing of its own accord, executes `s` and
reports the stop, answers every other command, and everything arrives in time. -/
def AnswersHalted : Discipline Origin := fun o c w answer =>
  c.acts = [] ∧ answersHalted o c.response w.commands = true ∧ inTime o answer = true

instance (o : Op Origin) (c : Choice Origin Unit) (w : World Origin Unit) (answer : o.Answer) :
    Decidable (AnswersHalted o c w answer) :=
  inferInstanceAs (Decidable (_ ∧ _ ∧ _))

/-- The machine over tokens. -/
abbrev haltedMachine : Machine (signature Origin) (Choice Origin TokenNet) TokenWorld :=
  disciplined (tokenLink Origin) AnswersHalted

/-- A paused session without a live watcher, with these packets stashed and these tokens unread. -/
structure Paused {L : Type} (stashed : List (Packet Origin)) (unread : L) (w : World Origin L) : Prop where
  /-- The session is marked as paused. -/
  state : w.state = .connectedPaused
  /-- The connection is open. -/
  connected : w.sockOpen = true
  /-- No watcher thread is alive. -/
  unwatched : ∀ thread, w.watcher = some thread → w.threadAlive thread = false
  /-- These packets are stashed. -/
  stashed : w.pendingReplies = stashed
  /-- This is unread. -/
  unread : w.link = unread

/-- The reply that follows the acknowledgement of a command. -/
def replyTo (command : Command) (n : ℕ) (body : Body) : Token Origin :=
  if command = .step then .frame body (.stop n .stepped) else .frame body (.reply n)

variable {stashed : List (Packet Origin)} {unread : Tokens} {w : TokenWorld}

/-- What the stub sends on a command is its acknowledgement and the reply. -/
theorem response_of_halted {command : Command} (hanswered : command.answered = true) {response : Tokens}
    {n : ℕ} (h : answersHalted (.send (.packet command)) response n = true) :
    ∃ body, response = [.ack (.reply n), replyTo command n body] := by
  by_cases hstep : command = .step
  · subst hstep
    change isStepAnswer n response = true at h
    unfold isStepAnswer at h
    split at h
    · rename_i tag body tag'
      rw [Bool.and_eq_true, decide_eq_true_eq, decide_eq_true_eq] at h
      exact ⟨body, by rw [h.1, h.2, replyTo, if_pos rfl]⟩
    · exact absurd h Bool.false_ne_true
  · have hadjacent : isAnswer command n response = true := by
      cases command <;> first | exact h | exact (hstep rfl).elim
    obtain ⟨body, hbody⟩ := answer_of_adjacent hadjacent
    rw [answerTo, if_pos hanswered] at hbody
    exact ⟨body, by rw [hbody, replyTo, if_neg hstep]⟩

/-- A command and its answer are on their way. -/
theorem wp_send_halted {command : Command} (hanswered : command.answered = true)
    (h : Paused stashed unread w) :
    (sendall (.packet command)).wp haltedMachine (fun r v => r = .ok () ∧ ∃ body, Paused stashed
      (unread ++ [.ack (.reply w.commands), replyTo command w.commands body]) v) w := by
  rw [wp_sendall]
  rintro c ⟨-, hacts, hresponse, hin⟩
  have hquiet : w.absorb (tokenLink Origin) c.acts = w := by
    rw [show c.acts = [] from hacts]
    rfl
  change inTime (.send (.packet command)) (World.send (tokenLink Origin) (.packet command) c
    (w.absorb _ c.acts)).1 = true at hin
  change (World.send (tokenLink Origin) (.packet command) c (w.absorb _ c.acts)).1 = .ok () ∧ ∃ body,
    Paused _ _ (World.send (tokenLink Origin) (.packet command) c (w.absorb _ c.acts)).2
  rw [hquiet] at hin ⊢
  obtain ⟨body, hbody⟩ := response_of_halted hanswered hresponse
  cases hsent : (World.send (tokenLink Origin) (.packet command) c w).1 with
  | error e =>
    rw [hsent] at hin
    exact absurd hin Bool.false_ne_true
  | ok u =>
    obtain ⟨-, hdelivered⟩ := World.send_ok hsent
    rw [hdelivered]
    refine ⟨rfl, body, h.state, h.connected, h.unwatched, h.stashed, ?_⟩
    change w.link ++ c.response = _
    rw [h.unread, show c.response = _ from hbody]
    rfl

/-- Reading the acknowledgement stashes the stops before it. -/
theorem wp_ack_halted {n : ℕ} {reply : Token Origin} (hquiet : Quiet unread)
    (h : Paused stashed (unread ++ [.ack (.reply n), reply]) w) :
    (consumeAck : Code Origin Unit).wp haltedMachine (fun r v => r = .ok () ∧
      Paused (stashed ++ stopPackets unread) [reply] v) w := by
  rw [wp_consumeAck]
  rintro c ⟨-, hacts, -, hin⟩
  have hsame : w.absorb (tokenLink Origin) c.acts = w := by
    rw [show c.acts = [] from hacts]
    rfl
  change inTime .consumeAck (World.consumeAck (tokenLink Origin) c (w.absorb _ c.acts)).1 = true at hin
  change (World.consumeAck (tokenLink Origin) c (w.absorb _ c.acts)).1 = .ok () ∧
    Paused _ _ (World.consumeAck (tokenLink Origin) c (w.absorb _ c.acts)).2
  rw [hsame, World.consumeAck_open h.connected] at hin ⊢
  rcases hread : (tokenLink Origin).consumeAck c.net w.link with ⟨e | tag, packets, left⟩
  · rw [hread] at hin
    exact absurd hin Bool.false_ne_true
  · obtain ⟨passed, hlink, hframes, rfl⟩ := takeAck_ok hread
    have hparts : unread ++ .ack (.reply n) :: [reply] = passed ++ .ack tag :: left := by
      rw [← hlink, h.unread]
    obtain ⟨rfl, -, rfl⟩ := split_unique (fun t ht => isFrame_of_isStopFrame (hquiet t ht)) rfl hframes
      rfl hparts
    refine ⟨rfl, h.state, rfl, h.unwatched, ?_, rfl⟩
    change w.pendingReplies ++ framePackets unread = _
    rw [h.stashed, framePackets_of_stops hquiet]

/-- Reading the reply hands it out. -/
theorem wp_read_halted {body : Body} {tag : Origin} (timeout : Option ℕ)
    (h : Paused stashed [.frame body tag] w) :
    (readPacketFromWire timeout).wp haltedMachine (fun r v =>
      r = .ok (framePacket body tag) ∧ Paused stashed [] v) w := by
  rw [wp_readPacketFromWire]
  rintro c ⟨-, hacts, -, hin⟩
  have hsame : w.absorb (tokenLink Origin) c.acts = w := by
    rw [show c.acts = [] from hacts]
    rfl
  change inTime (.readPacketFromWire timeout)
    (World.readPacket (tokenLink Origin) c (w.absorb _ c.acts)).1 = true at hin
  change (World.readPacket (tokenLink Origin) c (w.absorb _ c.acts)).1 = .ok _ ∧
    Paused _ _ (World.readPacket (tokenLink Origin) c (w.absorb _ c.acts)).2
  rw [hsame, World.readPacket_open h.connected] at hin ⊢
  rcases hread : (tokenLink Origin).readPacket c.net w.link with ⟨e | packet, left⟩
  · rw [hread] at hin
    exact absurd hin Bool.false_ne_true
  · rw [h.unread] at hread
    obtain htake | ⟨e, herror⟩ := takeFrame_head c.net body tag []
    · have hsplit : (Except.ok packet, left) = (Except.ok (framePacket body tag), []) :=
        hread.symm.trans htake
      obtain ⟨hp, rfl⟩ := Prod.mk.inj hsplit
      exact ⟨hp, h.state, rfl, h.unwatched, h.stashed, rfl⟩
    · have hclash : Except.ok packet = Except.error e := (congrArg Prod.fst hread).symm.trans herror
      exact absurd hclash (by simp)

end Stub

section Backlog

variable {w : TokenWorld}

/-- A paused session with this backlog of stops, stashed or unread. -/
def Holds (backlog : List (Packet Origin)) (w : TokenWorld) : Prop :=
  ∃ stashed unread, Paused stashed unread w ∧ Quiet unread ∧ stashed ++ stopPackets unread = backlog

/-- A command is answered by its reply, behind the backlog. -/
theorem wp_exchange_halted {command : Command} {backlog : List (Packet Origin)}
    (hanswered : command.answered = true) (h : Holds backlog w) :
    (sendPacket command).wp haltedMachine (fun r v => r = .ok () ∧ ∃ body,
      Paused backlog [replyTo command w.commands body] v) w := by
  obtain ⟨stashed, unread, hpaused, hquiet, rfl⟩ := h
  unfold sendPacket
  rw [Program.bind_eq, Program.wp_bind]
  refine Program.wp_mono ?_ (wp_send_halted hanswered hpaused)
  rintro r v ⟨rfl, body, hv⟩
  refine Program.wp_mono ?_ (wp_ack_halted hquiet hv)
  rintro r' v' ⟨rfl, hv'⟩
  exact ⟨rfl, body, hv'⟩

/-- Commands other than `s` leave the backlog as it is. -/
theorem holds_commands (backlog : List (Packet Origin)) :
    CommandPieces (fun command => command.answered = true ∧ command ≠ .step)
      fun _ (p : Code Origin _) => p.Keeps haltedMachine (Holds backlog) where
  parts := Program.keeps_compositional _ _
  cmd command hcommand w hw := by
    unfold cmd
    rw [Program.bind_eq, Program.wp_bind]
    refine Program.wp_mono ?_ (wp_exchange_halted hcommand.1 hw)
    rintro r v ⟨rfl, body, hv⟩
    rw [replyTo, if_neg hcommand.2] at hv
    refine Program.wp_mono ?_ (wp_read_halted none hv)
    rintro r' v' ⟨rfl, hv'⟩
    exact ⟨backlog, [], hv', by simp [Quiet], List.append_nil _⟩

/-- A step hands out the oldest stop of the backlog and its own. -/
theorem wp_stepInstruction_halted {backlog : List (Packet Origin)} (timeout : Option ℕ)
    (h : Holds backlog w) :
    (stepInstruction timeout).wp haltedMachine (fun r v => ∃ packet left body, r = .ok packet ∧
      packet :: left = backlog ++ [framePacket body (.stop w.commands .stepped)] ∧ Holds left v) w := by
  unfold stepInstruction
  rw [Program.bind_eq, Program.wp_bind]
  refine Program.wp_mono ?_ (wp_exchange_halted rfl h)
  rintro r v ⟨rfl, body, hv⟩
  rw [replyTo, if_pos rfl] at hv
  rw [Program.onValue_ok]
  unfold GdbClient.readPacket
  rw [Program.bind_eq, Program.wp_bind, wp_access]
  intro c _
  change Program.onValue _ _ _ (.ok v.pendingReplies.head?) {v with pendingReplies := v.pendingReplies.tail}
  rw [Program.onValue_ok, hv.stashed]
  cases backlog with
  | nil =>
    have hpopped : Paused [] [.frame body (.stop w.commands .stepped)]
        {v with pendingReplies := ([] : List (Packet Origin)).tail} :=
      ⟨hv.state, hv.connected, hv.unwatched, rfl, hv.unread⟩
    refine Program.wp_mono ?_ (wp_read_halted timeout hpopped)
    rintro r' v' ⟨rfl, hv'⟩
    exact ⟨_, [], body, rfl, rfl, [], [], hv', by simp [Quiet], rfl⟩
  | cons packet backlog =>
    refine ⟨packet, backlog ++ [framePacket body (.stop w.commands .stepped)], body, rfl, rfl, backlog, _,
      ⟨hv.state, hv.connected, hv.unwatched, rfl, hv.unread⟩, ?_, rfl⟩
    intro t ht
    rw [List.mem_singleton.mp ht]
    rfl

end Backlog

section Tool

variable {w : TokenWorld} {backlog : List (Packet Origin)} {host : Host}

/-- A connected session has nothing to connect. -/
theorem wp_ensureConnected_halted (h : Holds backlog w) :
    (ensureConnected : Code Origin Unit).wp haltedMachine (fun r v => r = .ok () ∧ v = w) w := by
  obtain ⟨stashed, unread, hpaused, -⟩ := h
  unfold ensureConnected
  rw [Program.bind_eq, Program.wp_bind, wp_access]
  intro c _
  change Program.onValue _ _ _ (.ok w.state) w
  rw [Program.onValue_ok, hpaused.state]
  exact ⟨rfl, rfl⟩

/-- Without a live watcher nothing is refused. -/
theorem wp_refuse_halted (op : String) (h : Holds backlog w) :
    (refuseIfWatcherRunning op : Code Origin Unit).wp haltedMachine (fun r v => r = .ok () ∧ v = w) w := by
  obtain ⟨stashed, unread, hpaused, -⟩ := h
  unfold refuseIfWatcherRunning watcherAlive
  rw [Program.bind_eq, Program.wp_bind, Program.bind_eq, Program.wp_bind, wp_access]
  intro c _
  change Program.onValue _ _ _ (.ok w.watcher) w
  rw [Program.onValue_ok]
  cases hwatcher : w.watcher with
  | none => exact ⟨rfl, rfl⟩
  | some thread =>
    dsimp only
    rw [wp_access]
    intro c' _
    change Program.onValue _ _ _ (.ok (w.threadAlive thread)) w
    rw [Program.onValue_ok, hpaused.unwatched thread hwatcher]
    exact ⟨rfl, rfl⟩

/-- Accesses that touch neither the connection nor the session keep the backlog. -/
theorem keeps_ensureConnected : (ensureConnected : Code Origin Unit).Keeps haltedMachine (Holds backlog) := by
  intro w h
  refine Program.wp_mono ?_ (wp_ensureConnected_halted h)
  rintro r v ⟨-, rfl⟩
  exact h

theorem keeps_getPc : (getPc : Code Origin ℕ).Keeps haltedMachine (Holds backlog) := by
  refine Program.keeps_bind keeps_ensureConnected fun _ => Program.keeps_bind ?_ fun _ => ?_
  · intro w h
    refine Program.wp_mono ?_ (wp_refuse_halted _ h)
    rintro r v ⟨-, rfl⟩
    exact h
  · refine Program.keeps_bind (fun w h => ?_) fun value => ?_
    · exact wp_locked rfl ((holds_commands backlog).readRegister 0x40 ⟨rfl, by simp⟩ w h)
    · cases value with
      | none => exact Program.keeps_raise _
      | some value => exact Program.keeps_done value

/-- Host accesses touch neither the connection nor the session. -/
theorem keeps_host {o : Op Origin} (hstep : ∀ c w, haltedMachine.admits o c w →
    (haltedMachine.step o c w).2 = w) : (access o).Keeps haltedMachine (Holds backlog) := by
  intro w h c hc
  rw [Program.wp_done, hstep c w hc]
  exact h

theorem keeps_disasmOneAt (addr : ℤ) :
    (disasmOneAt host addr : Code Origin (Option DisasmInstruction)).Keeps haltedMachine (Holds backlog) := by
  refine Program.keeps_handle (Program.keeps_bind keeps_ensureConnected fun _ =>
    Program.keeps_bind ?_ fun _ => Program.keeps_bind (Program.keeps_ofExcept _) fun _ =>
      Program.keeps_done _) fun _ => Program.keeps_done _
  refine Program.keeps_bind (keeps_host fun c w _ => rfl) fun attached => ?_
  split_ifs
  · refine Program.keeps_bind (Program.keeps_ofExcept _) fun _ => ?_
    refine Program.keeps_perform (fun c w hc h => ?_) fun r => Program.keeps_ofExcept r
    have hsame : w.absorb (tokenLink Origin) c.acts = w := by
      rw [show c.acts = [] from hc.2.1]
      rfl
    change Holds backlog (w.absorb (tokenLink Origin) c.acts)
    rw [hsame]
    exact h
  · exact Program.keeps_bind (Program.keeps_ofExcept _) fun _ =>
      (holds_commands backlog).readMem _ _ ⟨rfl, by simp⟩

/-- What is reported about a stop reply. -/
structure Reports (raw : Packet Origin) (report : StepReport Origin) : Prop where
  /-- It is the reply that is reported. -/
  packet : report.raw = raw
  /-- A program counter in the reply is the one reported. -/
  pc : ∀ pc, (parseStopReply raw.text).pc = some pc → report.pc = pc
  /-- So is a stack pointer. -/
  sp : report.sp = (parseStopReply raw.text).sp

theorem wp_stepReport_halted (raw : Packet Origin) (h : Holds backlog w) :
    (stepReport host raw).wp haltedMachine (fun r v => Holds backlog v ∧
      ∀ report, r = .ok report → Reports raw report) w := by
  unfold stepReport
  rw [Program.bind_eq, Program.wp_bind]
  have hpc : (pcOf (parseStopReply raw.text) : Code Origin ℤ).wp haltedMachine (fun r v =>
      Holds backlog v ∧ ∀ pc, r = .ok pc → ∀ pc', (parseStopReply raw.text).pc = some pc' → pc = pc') w := by
    unfold pcOf
    cases (parseStopReply raw.text).pc with
    | some pc => exact ⟨h, by simp⟩
    | none =>
      rw [Program.bind_eq, Program.wp_bind]
      refine Program.wp_mono ?_ (keeps_getPc w h)
      intro r v hv
      cases r with
      | error e => exact ⟨hv, by simp⟩
      | ok pc => exact ⟨hv, by simp⟩
  refine Program.wp_mono ?_ hpc
  rintro r v ⟨hv, hpcs⟩
  cases r with
  | error e => exact ⟨hv, by simp⟩
  | ok pc =>
    rw [Program.onValue_ok, Program.bind_eq, Program.wp_bind]
    refine Program.wp_mono ?_ (keeps_disasmOneAt pc v hv)
    intro r' v' hv'
    cases r' with
    | error e => exact ⟨hv', by simp⟩
    | ok insn =>
      refine ⟨hv', fun report hreport => ?_⟩
      rw [← Except.ok.inj hreport]
      exact ⟨rfl, hpcs pc rfl, rfl⟩

/-- The tool reports the oldest stop of the backlog and its own. -/
theorem wp_step_halted (host : Host) (h : Holds backlog w) :
    (step host).wp haltedMachine (fun r v => ∀ report, r = .ok report → ∃ raw left body,
      raw :: left = backlog ++ [framePacket body (.stop w.commands .stepped)] ∧ Holds left v ∧
        Reports raw report) w := by
  unfold step
  rw [Program.bind_eq, Program.wp_bind]
  refine Program.wp_mono ?_ (wp_ensureConnected_halted h)
  rintro r₁ v₁ ⟨rfl, rfl⟩
  rw [Program.onValue_ok, Program.bind_eq, Program.wp_bind]
  refine Program.wp_mono ?_ (wp_refuse_halted _ h)
  rintro r₂ v₂ ⟨rfl, rfl⟩
  rw [Program.onValue_ok, Program.bind_eq, Program.wp_bind]
  have hlocked : (locked stepLocked : Code Origin (Packet Origin)).wp haltedMachine (fun r v =>
      ∃ packet left body, r = .ok packet ∧
        packet :: left = backlog ++ [framePacket body (.stop v₂.commands .stepped)] ∧ Holds left v) v₂ := by
    refine wp_locked rfl ?_
    unfold stepLocked
    rw [Program.bind_eq, Program.wp_bind]
    refine Program.wp_mono ?_ (wp_stepInstruction_halted (some 5000) h)
    rintro r v ⟨packet, left, body, rfl, hleft, hv⟩
    rw [Program.onValue_ok]
    intro c _
    obtain ⟨stashed, unread, hpaused, hrest⟩ := hv
    have hstate : ¬v.state = .connectedRunning := by
      rw [hpaused.state]
      decide
    refine ⟨packet, left, body, rfl, hleft, stashed, unread, ?_, hrest⟩
    change Paused stashed unread (if v.state = .connectedRunning then _ else v)
    rw [if_neg hstate]
    exact hpaused
  refine Program.wp_mono ?_ hlocked
  rintro r₃ v₃ ⟨packet, left, body, rfl, hleft, hv₃⟩
  rw [Program.onValue_ok]
  refine Program.wp_mono ?_ (wp_stepReport_halted packet hv₃)
  rintro r₄ v₄ ⟨hv₄, hreports⟩ report hreport
  exact ⟨packet, left, body, hleft, hv₄, hreports report hreport⟩

end Tool

section Runs

variable {N L : Type} {M : Machine (signature Origin) (Choice Origin N) (World Origin L)} {host : Host}

/-- Consecutive calls of `step`, each with the number of its `s` packet and its report. -/
inductive Stepping (M : Machine (signature Origin) (Choice Origin N) (World Origin L)) (host : Host) :
    World Origin L → List (ℕ × StepReport Origin) → World Origin L → Prop
  | nil (w : World Origin L) : Stepping M host w [] w
  | cons {w v u : World Origin L} {report : StepReport Origin} {rest : List (ℕ × StepReport Origin)}
      (first : (step host).Reaches M w (.ok report) v) (others : Stepping M host v rest u) :
      Stepping M host w ((w.commands, report) :: rest) u

/-- A report is about the stop generated by its own `s` packet: its raw reply,
its program counter and its stack pointer. -/
def Own (call : ℕ × StepReport Origin) : Prop :=
  call.2.raw.tag = .stop call.1 .stepped ∧ Reports call.2.raw call.2

/-- The same over bytes: a paused session with this backlog of stops. -/
def HoldsBytes (backlog : List (Packet Origin)) (w : World Origin (Buffers Origin)) : Prop :=
  ∃ tokens, Renders w.link tokens ∧ Holds backlog (withLink w tokens)

/-- One call over bytes. -/
theorem step_halted {backlog : List (Packet Origin)} {w v : World Origin (Buffers Origin)}
    {report : StepReport Origin} (h : HoldsBytes backlog w)
    (hstep : (step host).Reaches (byteMachine AnswersHalted) w (.ok report) v) :
    ∃ left body, report.raw :: left = backlog ++ [framePacket body (.stop w.commands .stepped)] ∧
      HoldsBytes left v ∧ Reports report.raw report := by
  obtain ⟨tokens, htokens, hholds⟩ := h
  have hbytes := (disciplined_simulates byteLink_refines AnswersHalted).wp
    (Q := fun r v => ∀ report, r = .ok report → ∃ left body,
      report.raw :: left = backlog ++ [framePacket body (.stop w.commands .stepped)] ∧
        HoldsBytes left v ∧ Reports report.raw report)
    (by
      rintro r v v' ⟨rest, rfl, hrest⟩ hpost report hr
      obtain ⟨raw, left, body, hleft, hv, hreports⟩ := hpost report hr
      have hraw : report.raw = raw := hreports.packet
      rw [← hraw] at hleft hreports
      exact ⟨left, body, hleft, ⟨rest, hrest, hv⟩, hreports⟩)
    (⟨tokens, rfl, htokens⟩ : Same Renders w (withLink w tokens)) (wp_step_halted host hholds)
  exact Program.reaches_of_wp hbytes hstep report rfl

/-- A run of steps hands out the backlog and then the steps' own stops, in order. -/
theorem stepping_fifo {backlog : List (Packet Origin)} {w v : World Origin (Buffers Origin)}
    {calls : List (ℕ × StepReport Origin)} (h : HoldsBytes backlog w)
    (hsteps : Stepping (byteMachine AnswersHalted) host w calls v) :
    ∃ own left, calls.map (fun call => call.2.raw) ++ left = backlog ++ own ∧
      own.map Packet.tag = calls.map (fun call => .stop call.1 .stepped) ∧
      ∀ call ∈ calls, Reports call.2.raw call.2 := by
  induction hsteps generalizing backlog with
  | nil w => exact ⟨[], backlog, by simp, rfl, by simp⟩
  | cons first others ih =>
    rename_i w v u report rest
    obtain ⟨left, body, hleft, hv, hreports⟩ := step_halted h first
    obtain ⟨own, last, hown, htags, hall⟩ := ih hv
    refine ⟨framePacket body (.stop w.commands .stepped) :: own, last, ?_, ?_, ?_⟩
    · rw [List.map_cons, List.cons_append, hown, ← List.cons_append, hleft]
      simp
    · rw [List.map_cons, htags]
      rfl
    · intro call hcall
      obtain rfl | hmem := List.mem_cons.mp hcall
      · exact hreports
      · exact hall call hmem

/-- From any paused session without a live watcher, whatever stops are stashed
or unread from before, and for any number of consecutive steps: every step
reports its own stop exactly when no step is made or there is no such backlog. -/
theorem steps_report_their_own_iff {stashed : List (Packet Origin)} {unread : Tokens}
    {w v : World Origin (Buffers Origin)} {calls : List (ℕ × StepReport Origin)}
    (hpaused : Paused stashed w.link w) (hunread : w.link.unread = renderAll unread)
    (hquiet : ∀ t ∈ unread, isStopFrame t = true)
    (hold : ∀ packet ∈ stashed ++ stopPackets unread, ∀ n, w.commands ≤ n → packet.tag ≠ .stop n .stepped)
    (hsteps : Stepping (byteMachine AnswersHalted) host w calls v) :
    (∀ call ∈ calls, Own call) ↔ calls = [] ∨ (stashed = [] ∧ unread = []) := by
  have hholds : HoldsBytes (stashed ++ stopPackets unread) w :=
    ⟨unread, hunread, stashed, unread, ⟨hpaused.state, hpaused.connected, hpaused.unwatched,
      hpaused.stashed, rfl⟩, hquiet, rfl⟩
  obtain ⟨own, left, hfifo, htags, hreports⟩ := stepping_fifo hholds hsteps
  have hempty : stashed ++ stopPackets unread = [] ↔ stashed = [] ∧ unread = [] := by
    rw [List.append_eq_nil_iff]
    refine and_congr_right fun _ => ⟨fun h => ?_, fun h => by rw [h]; rfl⟩
    cases unread with
    | nil => rfl
    | cons t unread =>
      obtain ⟨body, m, cause, rfl, -⟩ := Quiet.head hquiet
      simp [stopPackets] at h
  rw [← hempty]
  constructor
  · intro hall
    cases calls with
    | nil => exact Or.inl rfl
    | cons call calls =>
      right
      cases hbacklog : stashed ++ stopPackets unread with
      | nil => rfl
      | cons packet backlog =>
        rw [hbacklog, List.map_cons, List.cons_append, List.cons_append] at hfifo
        have hfirst : call.2.raw = packet := (List.cons.inj hfifo).1
        have hown := (hall call List.mem_cons_self).1
        have hnumber : w.commands = call.1 := by
          cases hsteps with
          | cons first others => rfl
        rw [hfirst, ← hnumber] at hown
        exact (hold packet (by rw [hbacklog]; exact List.mem_cons_self) _ (Nat.le_refl _) hown).elim
  · rintro (rfl | hnone)
    · simp
    · rw [hnone, List.nil_append] at hfifo
      have hlength : (calls.map fun call => call.2.raw).length = own.length := by
        rw [List.length_map, ← List.length_map (f := Packet.tag), htags, List.length_map]
      obtain ⟨hraws, -⟩ := List.append_inj (hfifo.trans (List.append_nil own).symm) hlength
      rw [← hraws, List.map_map] at htags
      intro call hcall
      exact ⟨List.map_inj_left.mp htags call hcall, hreports call hcall⟩

end Runs

section Sample

/-- A stop reply that reports a program counter and a stack pointer. -/
def steppedBody : Body := ⟨asciiBytes "T0540:80003204;01:80400000;".toList, by decide⟩

/-- The reply to a register or memory query. -/
def wordBody : Body := ⟨asciiBytes "80003200".toList, by decide⟩

/-- All bytes arrive at once. -/
def prompt : Net := ⟨List.replicate 8 (.bytes 63), []⟩

/-- A query and its answer. -/
def queried (n : ℕ) : List (Choice Origin Net) :=
  [{net := prompt, response := [.ack (.reply n), .frame wordBody (.reply n)]}, {net := prompt},
    {net := prompt}]

/-- `s`, answered by the stop of the step. -/
def stepAnswer (n : ℕ) : Choice Origin Net :=
  {net := prompt, response := [.ack (.reply n), .frame steppedBody (.stop n .stepped)]}

/-- A step without a backlog, and the instruction read behind it. -/
def freshStep : List (Choice Origin Net) := [stepAnswer 0, {net := prompt}, {net := prompt}] ++ queried 1

/-- The report on the step's own stop. -/
def freshReport : StepReport Origin :=
  ⟨framePacket steppedBody (.stop 0 .stepped), 0x80003204, some 0x80400000, none⟩

theorem steps_report_their_own_iff_fresh : ∃ v,
    Stepping (byteMachine AnswersHalted) plainHost connectedWorld [(0, freshReport)] v ∧
      ((∀ call ∈ [(0, freshReport)], Own call) ↔
        [(0, freshReport)] = [] ∨ (([] : List (Packet Origin)) = [] ∧ ([] : Tokens) = [])) := by
  have hfollows : (step plainHost).Follows (byteMachine AnswersHalted) freshStep connectedWorld := by
    decide +kernel
  have hreport : ((step plainHost).run (byteMachine AnswersHalted) freshStep connectedWorld).1 =
      .ok freshReport := by decide +kernel
  have hreaches := Program.reaches_along hfollows hreport
  have hsteps : Stepping (byteMachine AnswersHalted) plainHost connectedWorld [(0, freshReport)] _ :=
    .cons hreaches (.nil _)
  have hpaused : Paused [] connectedWorld.link connectedWorld := ⟨rfl, rfl, by simp [connectedWorld, freshWorld], rfl, rfl⟩
  exact ⟨_, hsteps, steps_report_their_own_iff hpaused rfl (by simp) (by simp [stopPackets]) hsteps⟩

/-- A paused session in which a stop from before is still stashed. -/
def laggingWorld : World Origin (Buffers Origin) := {connectedWorld with pendingReplies := [stopPacket 0]}

/-- The step, the program counter that the old reply lacks, and the instruction read. -/
def laggingStep : List (Choice Origin Net) := [stepAnswer 0, {net := prompt}] ++ queried 1 ++ queried 2

/-- The report on the stop from before. -/
def laggingReport : StepReport Origin := ⟨stopPacket 0, 0x80003200, none, none⟩

/-- With one stop stashed, a step reports that one and leaves its own behind. -/
theorem step_reports_an_older_stop : ∃ v, Paused [stopPacket 0] laggingWorld.link laggingWorld ∧
    Stepping (byteMachine AnswersHalted) plainHost laggingWorld [(0, laggingReport)] v ∧
      ¬Own (0, laggingReport) := by
  have hfollows : (step plainHost).Follows (byteMachine AnswersHalted) laggingStep laggingWorld := by
    decide +kernel
  have hreport : ((step plainHost).run (byteMachine AnswersHalted) laggingStep laggingWorld).1 =
      .ok laggingReport := by decide +kernel
  have hreaches := Program.reaches_along hfollows hreport
  exact ⟨_, ⟨rfl, rfl, by simp [laggingWorld, connectedWorld, freshWorld], rfl, rfl⟩,
    .cons hreaches (.nil _), fun h => absurd h.1 (by decide)⟩

end Sample

end DolphinRe.StepReports
