import DolphinRe.StubBehaviour
import DolphinRe.ToolRuns

/-!
# A paused session has a halted target

The session state is updated from whatever stop reply is read next, and that
can be an older one. The state is right between calls as long as nobody waits
for a stop of a running target while an older stop is still unread, the watcher
hands over stops of a halted target only, and does not resume the target behind
a paused session.
-/

namespace DolphinRe.PausedTarget

open PythonText GdbPackets GdbWire GdbTokens StopReplies EffectProgram SessionMachine GdbClient
  SessionTools BreakpointTools ExecutionTools StubBehaviour Footprints ToolStructure
  Interference ToolRuns

section Statement

variable {τ N L : Type}

/-- A paused session has a halted target. -/
def Still (w : World τ L) : Prop := w.state = .connectedPaused → w.running = false

/-- Of its own accord the stub sends one token when a running target halts, and nothing else. -/
def haltsOnce (acts : List (StubAct τ)) (w : World τ L) : Prop :=
  match acts with
  | [] => True
  | [a] => w.running = true ∧ a.halts = true
  | _ => False

/-- Messages arrive and are obeyed, commands are acknowledged in time, and no
read loses the connection. -/
def answers (link : Link τ N L) (o : Op τ) (c : Choice τ N) (w : World τ L) : Prop :=
  match o with
  | .send _ => c.sendFails = false ∧ c.obeyed = true
  | .consumeAck => w.sockOpen = true → (World.step link .consumeAck c w).1 = .ok ()
  | .readPacketFromWire timeout => w.sockOpen = true →
    World.losesConnection (World.step link (.readPacketFromWire timeout) c w).1 = false
  | _ => True

/-- The stub and the network of a responsive connection. -/
def Responsive (link : Link τ N L) (o : Op τ) (c : Choice τ N) (w : World τ L) : Prop :=
  haltsOnce c.acts w ∧ answers link o c w

/-- Some read would find a packet. -/
def Unread (link : Link τ N L) (l : L) : Prop := ∃ net packet, (link.readPacket net l).1 = .ok packet

/-- When a tool begins to wait for a stop of a running target, no stop is
stashed or unread; when a session becomes paused by connecting, the target is
halted or resumed at once. -/
def Awaits (link : Link τ N L) (o : Op τ) (w : World τ L) : Prop :=
  match o with
  | .popPending => w.running = true → w.pendingReplies = [] ∧ ¬Unread link w.link
  | .setState .connectedPaused => w.running = false ∨ w.autoResume = true
  | _ => True

/-- Whether a stop is attributed to a breakpoint that captures. -/
def captured (raw : Packet τ) (breakpoints : List BreakpointSpec) : Bool :=
  ((matchBp (parseStopReply raw.text) breakpoints).bind fun bpId => lookup bpId breakpoints).any
    BreakpointSpec.autoContinue

/-- A stop that the watcher reads while the target runs is one it captures, and
it resumes the target only while the session is not paused. -/
def Watches (o : Op τ) (w : World τ L) : Prop :=
  match o with
  | .matchBp raw => w.running = true → captured raw w.breakpoints = true
  | .send (.packet .resume) => w.state ≠ .connectedPaused
  | _ => True

/-- The machine of a responsive connection. -/
abbrev responsive (link : Link τ N L) : Machine (signature τ) (Choice τ N) (World τ L) :=
  (machine link).restrict (Responsive link)

/-- The machine of the tools. -/
abbrev awaiting (link : Link τ N L) : Machine (signature τ) (Choice τ N) (World τ L) :=
  (responsive link).restrict fun o _ w => Awaits link o w

/-- The machine of the watcher. -/
abbrev watched (link : Link τ N L) : Machine (signature τ) (Choice τ N) (World τ L) :=
  (responsive link).restrict fun o _ w => Watches o w

/-- A run of calls next to watcher threads. -/
abbrev WatchedRuns (link : Link τ N L) (host : Host) : List Action → World τ L → World τ L → Prop :=
  Runs (fun _ => awaiting link) (watching (watched link) host) host

/-- The same with no condition on the stops. -/
abbrev ResponsiveRuns (link : Link τ N L) (host : Host) :
    List Action → World τ L → World τ L → Prop :=
  Runs (fun _ => responsive link) (watching (responsive link) host) host

end Statement

section Steps

variable {τ N L : Type} {link : Link τ N L} {w v : World τ L} {c : Choice τ N} {o : Op τ}

/-- The target is halted. -/
def Halted (w : World τ L) : Prop := w.running = false

/-- Messages that start the target. -/
def starts : Sent → Bool
  | .packet .resume => true
  | .packet .detach => true
  | _ => false

/-- Accesses after which a halted target is halted. -/
def rests : Op τ → Prop
  | .send message => starts message = false
  | _ => True

/-- Those that do not mark the session paused either. -/
def leaves : Op τ → Prop
  | .setState _ => False
  | .markPaused => False
  | o => rests o

/-- What leaves the target alone starts nothing. -/
theorem rests_of_leaves (h : leaves o) : rests o := by
  cases o <;> first | exact h | exact h.elim

/-- A halted target may be marked as paused. -/
theorem still_of_halted (h : Halted w) : Still w := fun _ => h

/-- A session in another state need not care. -/
theorem still_of_state (h : w.state ≠ .connectedPaused) : Still w := fun hstate => absurd hstate h

/-- A halted target does not start by itself. -/
theorem halted_absorb (acts : List (StubAct τ)) (h : Halted w) : Halted (w.absorb link acts) := by
  have hnot : ¬(w.absorb link acts).running = true := fun hrunning => by
    have hbefore := World.running_of_absorb link acts w hrunning
    rw [h] at hbefore
    exact Bool.false_ne_true hbefore
  exact Bool.eq_false_iff.mpr hnot

/-- Neither is a session marked as running by what the stub does. -/
theorem still_absorb (acts : List (StubAct τ)) (h : Still w) : Still (w.absorb link acts) := by
  intro hstate
  rw [World.absorb_state] at hstate
  exact halted_absorb acts (h hstate)

/-- A halted target stays halted unless a message starts it. -/
theorem runningAfter_rests {message : Sent} (h : starts message = false) (running : Bool)
    (hrunning : running = false) : runningAfter message running = false := by
  subst hrunning
  cases message with
  | interrupt => rfl
  | packet command => cases command <;> first | rfl | simp [starts] at h

/-- What a send does to the target. -/
theorem send_running (message : Sent) (hobeyed : c.obeyed = true) :
    (World.send link message c w).2.running = w.running ∨
      (World.send link message c w).2.running = runningAfter message w.running := by
  unfold World.send
  split_ifs
  · exact Or.inl rfl
  · right
    change (if c.obeyed then _ else _) = _
    rw [if_pos hobeyed]
  · exact Or.inl rfl

/-- Sending assigns no session state. -/
theorem send_state (message : Sent) : (World.send link message c w).2.state = w.state := by
  unfold World.send
  split_ifs <;> rfl

/-- Waiting for an acknowledgement moves neither the target nor the session state. -/
theorem consumeAck_target : (World.consumeAck link c w).2.running = w.running ∧
    (World.consumeAck link c w).2.state = w.state := by
  unfold World.consumeAck
  split_ifs <;> exact ⟨rfl, rfl⟩

/-- Neither does reading a packet. -/
theorem readPacket_target : (World.readPacket link c w).2.running = w.running ∧
    (World.readPacket link c w).2.state = w.state := by
  unfold World.readPacket
  split_ifs <;> exact ⟨rfl, rfl⟩

/-- Nor does opening a connection. -/
theorem connect_target : (World.connect link c w).2.running = w.running ∧
    (World.connect link c w).2.state = w.state := by
  unfold World.connect
  split_ifs <;> exact ⟨rfl, rfl⟩

/-- A halted target stays halted. -/
theorem halted_step (ho : rests o) (hc : Responsive link o c w) (hw : Halted w) :
    Halted (World.step link o c w).2 := by
  have habsorb : Halted (w.absorb link c.acts) := halted_absorb c.acts hw
  unfold Halted at hw habsorb ⊢
  cases o with
  | send message =>
    change (World.send link message c (w.absorb link c.acts)).2.running = false
    have htarget : (World.send link message c (w.absorb link c.acts)).2.running =
          (w.absorb link c.acts).running ∨ (World.send link message c (w.absorb link c.acts)).2.running =
          runningAfter message (w.absorb link c.acts).running := send_running message hc.2.2
    rcases htarget with h | h
    · rw [h]
      exact habsorb
    · rw [h]
      exact runningAfter_rests ho _ habsorb
  | consumeAck => exact consumeAck_target.1.trans habsorb
  | readPacketFromWire timeout => exact readPacket_target.1.trans habsorb
  | connect => exact connect_target.1.trans habsorb
  | markRunning =>
    change (if w.state = .connectedPaused then {w with state := .connectedRunning} else w).running = false
    split_ifs <;> exact hw
  | markPaused =>
    change (if w.state = .connectedRunning then {w with state := .connectedPaused} else w).running = false
    split_ifs <;> exact hw
  | close =>
    change (if w.sockOpen then w.closed link else w).running = false
    split_ifs <;> exact hw
  | _ => first
    | exact hw
    | exact habsorb

/-- The session state changes where it is assigned only. -/
theorem state_step (ho : leaves o) (hne : o ≠ .markRunning) :
    (World.step link o c w).2.state = w.state := by
  have habsorb : (w.absorb link c.acts).state = w.state := World.absorb_state link c.acts w
  cases o with
  | send message => exact (send_state message).trans habsorb
  | consumeAck => exact consumeAck_target.2.trans habsorb
  | readPacketFromWire timeout => exact readPacket_target.2.trans habsorb
  | connect => exact connect_target.2.trans habsorb
  | markRunning => exact absurd rfl hne
  | close =>
    change (if w.sockOpen then w.closed link else w).state = w.state
    split_ifs <;> rfl
  | _ => first
    | exact ho.elim
    | exact habsorb
    | rfl

/-- Once marked running, a session is not paused. -/
theorem markRunning_state : (World.step link .markRunning c w).2.state ≠ .connectedPaused := by
  change (if w.state = .connectedPaused then {w with state := .connectedRunning} else w).state ≠ _
  split_ifs with hpaused
  · simp
  · exact hpaused

/-- Access by access, the target stays halted behind a paused session. -/
theorem still_step (ho : leaves o) (hc : Responsive link o c w) (hw : Still w) :
    Still (World.step link o c w).2 := by
  by_cases hmark : o = .markRunning
  · subst hmark
    exact still_of_state markRunning_state
  · intro hstate
    rw [state_step ho hmark] at hstate
    exact halted_step (rests_of_leaves ho) hc (hw hstate)

/-- A responsive connection stays open until it is closed. -/
theorem open_step (ho : o ≠ .close) (hc : Responsive link o c w) (hw : w.sockOpen = true) :
    (World.step link o c w).2.sockOpen = true := by
  have habsorb : (w.absorb link c.acts).sockOpen = true := (World.absorb_sockOpen link c.acts w).trans hw
  have hanswers := hc.2
  cases o with
  | send message =>
    change (World.send link message c (w.absorb link c.acts)).2.sockOpen = true
    unfold World.send
    split_ifs with hfails
    · exact absurd (hanswers.1.symm.trans hfails) Bool.false_ne_true
    · exact habsorb
  | consumeAck =>
    have hok : (World.consumeAck link c (w.absorb link c.acts)).1 = .ok () := hanswers hw
    change (World.consumeAck link c (w.absorb link c.acts)).2.sockOpen = true
    rw [World.consumeAck_open habsorb] at hok ⊢
    dsimp only at hok ⊢
    cases houtcome : (link.consumeAck c.net (w.absorb link c.acts).link).1 with
    | ok tag => rfl
    | error e =>
      rw [houtcome] at hok
      simp [Except.map] at hok
  | readPacketFromWire timeout =>
    have hkept : World.losesConnection (World.readPacket link c (w.absorb link c.acts)).1 = false :=
      hanswers hw
    change (World.readPacket link c (w.absorb link c.acts)).2.sockOpen = true
    rw [World.readPacket_open habsorb] at hkept ⊢
    dsimp only at hkept ⊢
    rw [hkept]
    rfl
  | connect =>
    change (World.connect link c (w.absorb link c.acts)).2.sockOpen = true
    unfold World.connect
    rw [if_pos habsorb]
    exact habsorb
  | markRunning =>
    change (if w.state = .connectedPaused then {w with state := .connectedRunning} else w).sockOpen = true
    split_ifs <;> exact hw
  | markPaused =>
    change (if w.state = .connectedRunning then {w with state := .connectedPaused} else w).sockOpen = true
    split_ifs <;> exact hw
  | close => exact absurd rfl ho
  | _ => first
    | exact hw
    | exact habsorb

/-- The automatic resume is never switched. -/
theorem autoResume_step : (World.step link o c w).2.autoResume = w.autoResume := by
  have habsorb : (w.absorb link c.acts).autoResume = w.autoResume := World.absorb_autoResume link c.acts w
  cases o with
  | send message =>
    refine Eq.trans ?_ habsorb
    change (World.send link message c (w.absorb link c.acts)).2.autoResume = _
    unfold World.send
    split_ifs <;> rfl
  | consumeAck =>
    refine Eq.trans ?_ habsorb
    change (World.consumeAck link c (w.absorb link c.acts)).2.autoResume = _
    unfold World.consumeAck
    split_ifs <;> rfl
  | readPacketFromWire timeout =>
    refine Eq.trans ?_ habsorb
    change (World.readPacket link c (w.absorb link c.acts)).2.autoResume = _
    unfold World.readPacket
    split_ifs <;> rfl
  | connect =>
    refine Eq.trans ?_ habsorb
    change (World.connect link c (w.absorb link c.acts)).2.autoResume = _
    unfold World.connect
    split_ifs <;> rfl
  | markRunning =>
    change (if w.state = .connectedPaused then {w with state := .connectedRunning} else w).autoResume = _
    split_ifs <;> rfl
  | markPaused =>
    change (if w.state = .connectedRunning then {w with state := .connectedPaused} else w).autoResume = _
    split_ifs <;> rfl
  | close =>
    change (if w.sockOpen then w.closed link else w).autoResume = _
    split_ifs <;> rfl
  | _ => first
    | exact habsorb
    | rfl

end Steps

/-- A machine of a responsive connection, with whatever further conditions. -/
structure OnResponsive {τ N L : Type} (link : Link τ N L)
    (M : Machine (signature τ) (Choice τ N) (World τ L)) : Prop where
  /-- Its steps are those of the session. -/
  step : M.step = World.step link
  /-- It admits responsive choices only. -/
  admits : ∀ {o c w}, M.admits o c w → Responsive link o c w

section Programs

variable {τ N L α β : Type} {link : Link τ N L} {w : World τ L}
  {M : Machine (signature τ) (Choice τ N) (World τ L)}

/-- The machine of the tools is responsive. -/
theorem onResponsive_awaiting : OnResponsive link (awaiting link) := ⟨rfl, fun h => h.1.2⟩

/-- So is the machine of the watcher. -/
theorem onResponsive_watched : OnResponsive link (watched link) := ⟨rfl, fun h => h.1.2⟩

/-- Code that leaves the target alone keeps a paused session's target halted. -/
theorem keeps_still (hM : OnResponsive link M) {p : Code τ α} (hp : p.Uses leaves) :
    p.Keeps M Still := by
  intro w hw
  refine Program.wp_of_uses (fun o c w ho hc hw => ?_) hp hw
  rw [hM.step]
  exact still_step ho (hM.admits hc) hw

/-- Code that starts nothing keeps a halted target halted. -/
theorem keeps_halted (hM : OnResponsive link M) {p : Code τ α} (hp : p.Uses rests) :
    p.Keeps M Halted := by
  intro w hw
  refine Program.wp_of_uses (fun o c w ho hc hw => ?_) hp hw
  rw [hM.step]
  exact halted_step ho (hM.admits hc) hw

/-- The connection stays open. -/
theorem keeps_open (hM : OnResponsive link M) {p : Code τ α} (hp : p.Uses fun o : Op τ => o ≠ .close) :
    p.Keeps M fun w => w.sockOpen = true := by
  intro w hw
  refine Program.wp_of_uses (fun o c w ho hc hw => ?_) hp hw
  rw [hM.step]
  exact open_step ho (hM.admits hc) hw

/-- Code that changes no breakpoint closes no connection. -/
theorem ne_close_of_restrained {sets marks locks : Bool} {sends : Sent → Prop} {o : Op τ}
    (h : restrained sets marks locks sends o) : o ≠ .close := by
  rintro rfl
  exact h

/-- A read that returns has found an open connection. -/
theorem wp_readOpen (hM : OnResponsive link M) (timeout : Option ℕ) (w : World τ L) :
    (readPacketFromWire timeout).wp M (fun r v => (∃ packet, r = .ok packet) → v.sockOpen = true) w := by
  by_cases hopen : w.sockOpen = true
  · refine Program.wp_mono ?_ (keeps_open hM (uses_readPacketFromWire (by simp)) w hopen)
    exact fun _ _ hv _ => hv
  · rw [wp_readPacketFromWire]
    rintro c - ⟨packet, hpacket⟩
    rw [hM.step] at hpacket
    have habsorb : (w.absorb link c.acts).sockOpen = false := by
      rw [World.absorb_sockOpen]
      exact Bool.eq_false_iff.mpr hopen
    change (World.readPacket link c (w.absorb link c.acts)).1 = .ok packet at hpacket
    rw [World.readPacket_closed habsorb] at hpacket
    simp at hpacket

/-- The commands that are answered leave a halted target halted. -/
theorem commands_leave : CommandPieces (fun command => starts (.packet command) = false)
    fun _ (p : Code τ _) => p.Uses leaves :=
  commands_use (fun _ h => h) trivial trivial

/-- Packets that do not start the target leave it alone. -/
theorem leaves_sendPacket {command : Command} (h : starts (.packet command) = false) :
    (sendPacket command : Code τ Unit).Uses leaves :=
  Program.uses_bind (uses_sendall h) fun _ => uses_consumeAck trivial

/-- So does waiting for a stop. -/
theorem leaves_waitForStop (timeout : Option ℕ) : (waitForStop timeout : Code τ (Packet τ)).Uses leaves := by
  refine uses_then trivial fun packet => ?_
  cases packet with
  | none => exact uses_readPacketFromWire trivial
  | some packet => trivial

/-- So does draining the stops. -/
theorem leaves_drainStopReplies (maxWait : ℕ) :
    (drainStopReplies maxWait : Code τ (List (Packet τ))).Uses leaves :=
  uses_drainStopReplies trivial trivial trivial

/-- So does a probe. -/
theorem leaves_probeResponsive (timeout : ℕ) : (probeResponsive timeout : Code τ Bool).Uses leaves := by
  refine uses_probe (fun o ho => ?_) (fun _ => trivial) timeout
  cases o with
  | send message =>
    have hmessage : message = .packet .currentThread := ho
    rw [hmessage]
    rfl
  | setState state => exact ho
  | markPaused => exact ho
  | _ => trivial

end Programs

section Waiting

variable {τ N L α : Type} {link : Link τ N L} {w : World τ L}
  {M : Machine (signature τ) (Choice τ N) (World τ L)}

/-- A tool that waits for a stop and gets one has a halted target: with the
target running, only the stop that halts it can arrive. -/
theorem wp_waitForStop (timeout : Option ℕ) (w : World τ L) :
    (waitForStop timeout).wp (awaiting link) (fun r v => (∃ packet, r = .ok packet) → Halted v) w := by
  rintro c ⟨⟨-, -⟩, hawaits⟩
  have hnone : w.running = true → w.pendingReplies = [] ∧ ¬Unread link w.link := hawaits
  change (match w.pendingReplies.head? with
    | some packet => (pure packet : Code τ (Packet τ))
    | none => readPacketFromWire timeout).wp (awaiting link) _
      {w with pendingReplies := w.pendingReplies.tail}
  cases hpending : w.pendingReplies with
  | cons packet rest =>
    rintro -
    refine Bool.eq_false_iff.mpr fun hrunning => ?_
    have hempty : w.pendingReplies = [] := (hnone hrunning).1
    rw [hpending] at hempty
    exact absurd hempty (List.cons_ne_nil _ _)
  | nil =>
    change (readPacketFromWire timeout).wp (awaiting link) _ _
    rw [wp_readPacketFromWire]
    rintro c' ⟨⟨-, hacts, -⟩, -⟩ ⟨packet, hpacket⟩
    generalize hv : ({w with pendingReplies := [].tail} : World τ L) = v at hacts hpacket ⊢
    have hrunning : v.running = w.running := by rw [← hv]
    have hlink : v.link = w.link := by rw [← hv]
    change (World.readPacket link c' (v.absorb link c'.acts)).1 = .ok packet at hpacket
    change (World.readPacket link c' (v.absorb link c'.acts)).2.running = false
    rw [readPacket_target.1]
    cases hhalted : v.running with
    | false => exact halted_absorb c'.acts hhalted
    | true =>
      -- with nothing unread, the packet is the stop that halts the target in this read
      cases hcases : c'.acts with
      | nil =>
        rw [hcases] at hpacket
        change (World.readPacket link c' v).1 = .ok packet at hpacket
        have hunread := (hnone (hrunning.symm.trans hhalted)).2
        cases hopen : v.sockOpen with
        | false =>
          rw [World.readPacket_closed hopen] at hpacket
          simp at hpacket
        | true =>
          rw [World.readPacket_open hopen] at hpacket
          dsimp only at hpacket
          rw [hlink] at hpacket
          exact absurd ⟨c'.net, packet, hpacket⟩ hunread
      | cons a rest =>
        rw [hcases] at hacts
        cases rest with
        | nil =>
          change (v.running && !a.halts) = false
          rw [hacts.2]
          exact Bool.and_false _
        | cons b rest => exact hacts.elim

/-- A wait that fails changes nothing. -/
theorem wp_waitStill (timeout : Option ℕ) (hw : Still w) :
    (waitForStop timeout).wp (awaiting link)
      (fun r v => Still v ∧ ((∃ packet, r = .ok packet) → Halted v)) w :=
  Program.wp_and (keeps_still onResponsive_awaiting (leaves_waitForStop timeout) w hw)
    (wp_waitForStop timeout w)

/-- Marking the session paused once the target is halted. -/
theorem wp_markPaused {p : Code τ α} {f : α → β}
    (hp : p.wp (awaiting link) (fun r v => Still v ∧ ((∃ a, r = .ok a) → Halted v)) w) :
    (p.bind fun a => (access .markPaused).bind fun _ => .done (f a)).wp (awaiting link)
      (fun _ v => Still v) w := by
  rw [Program.wp_bind]
  refine Program.wp_mono ?_ hp
  intro r v ⟨hv, hhalted⟩
  cases r with
  | error e => exact hv
  | ok a =>
    intro c hc
    exact still_of_halted (halted_step (o := .markPaused) trivial hc.1.2 (hhalted ⟨a, rfl⟩))

/-- A wait marks the session when a stop has come. -/
theorem keeps_awaitLocked (timeout : ℕ) : (awaitLocked timeout).Keeps (awaiting link) Still :=
  fun _ hw => wp_markPaused (wp_waitStill _ hw)

/-- So does a wait that may time out. -/
theorem keeps_awaitTarget (timeout : ℕ) : (awaitTarget timeout).Keeps (awaiting link) Still := by
  intro w hw
  change ((waitForStop (some timeout)).attempt.bind _).wp _ _ w
  rw [Program.wp_bind, Program.wp_attempt]
  refine Program.wp_mono ?_ (wp_waitStill _ hw)
  intro r v ⟨hv, hhalted⟩
  cases r with
  | error e =>
    change (if isTimeout e = true then (pure none : Code τ _) else throwing e).wp _ _ v
    split_ifs <;> exact hv
  | ok raw =>
    intro c hc
    exact still_of_halted (halted_step (o := .markPaused) trivial hc.1.2 (hhalted ⟨raw, rfl⟩))

/-- Attempts to pause leave a halted target alone. -/
theorem leaves_interruptAttempts (n : ℕ) : (interruptAttempts n : Code τ (Packet τ)).Uses leaves := by
  induction n with
  | zero => trivial
  | succ n ih =>
    refine Program.uses_bind (Program.uses_attempt (Program.uses_bind (uses_sendall ?_) fun _ =>
      leaves_waitForStop _)) fun r => ?_
    · rfl
    · cases r with
      | ok packet => trivial
      | error e =>
        dsimp only
        split_ifs
        · exact ih
        · trivial

/-- An answered interrupt has halted the target. -/
theorem wp_interruptAttempts (n : ℕ) (w : World τ L) : (interruptAttempts n).wp (awaiting link)
    (fun r v => (∃ packet, r = .ok packet) → Halted v) w := by
  induction n generalizing w with
  | zero => exact fun ⟨packet, h⟩ => by simp at h
  | succ n ih =>
    change (((sendall .interrupt).bind fun _ => waitForStop (some 2000)).attempt.bind _).wp _ _ w
    rw [Program.wp_bind, Program.wp_attempt]
    refine Program.wp_mono ?_ (Program.wp_bind_last (Q := fun r v => (∃ packet, r = .ok packet) → Halted v)
      (fun e v ⟨packet, h⟩ => by simp at h) (fun _ v => wp_waitForStop _ v) w)
    intro r v hv
    cases r with
    | ok packet => exact fun _ => hv ⟨packet, rfl⟩
    | error e =>
      change (if isTimeout e = true then interruptAttempts n else throwing e).wp _ _ v
      split_ifs
      · exact ih v
      · exact fun ⟨packet, h⟩ => by simp at h

/-- A failed probe puts the session into the error state. -/
theorem wp_unresponsive {e : PyError} :
    ((access (.setState .error)).bind fun _ => (throwing e : Code τ α)).wp (awaiting link)
      (fun _ v => Still v) w :=
  fun _ _ => still_of_state (by change SessionState.error ≠ .connectedPaused; decide)

/-- Pausing marks the session when the stub has answered. -/
theorem keeps_pauseLocked : (pauseLocked : Code τ (Packet τ)).Keeps (awaiting link) Still := by
  refine Program.keeps_bind (keeps_still onResponsive_awaiting (leaves_probeResponsive 500))
    fun responsive => ?_
  split_ifs
  · refine Program.keeps_bind (keeps_still onResponsive_awaiting (leaves_drainStopReplies 50)) fun _ => ?_
    intro w hw
    refine wp_markPaused (f := id) (Program.wp_and ?_ (wp_interruptAttempts 2 w))
    exact keeps_still onResponsive_awaiting (leaves_interruptAttempts 2) w hw
  · exact fun _ _ => wp_unresponsive

/-- A step is answered by its stop. -/
theorem keeps_stepLocked : (stepLocked : Code τ (Packet τ)).Keeps (awaiting link) Still := by
  intro w hw
  have hstep : (stepInstruction (some 5000) : Code τ (Packet τ)).Uses leaves :=
    Program.uses_bind (leaves_sendPacket (by decide)) fun _ => leaves_waitForStop _
  refine wp_markPaused (f := id) (Program.wp_and (keeps_still onResponsive_awaiting hstep w hw) ?_)
  exact Program.wp_bind_last (fun e v ⟨packet, h⟩ => by simp at h) (fun _ v => wp_waitForStop _ v) w

/-- A resume is acknowledged, or was not sent at all. -/
theorem wp_continueAsync (hM : OnResponsive link M) (hw : w.sockOpen = false → Still w) :
    (continueAsync : Code τ Unit).wp M (fun r v => r = .ok () ∨ Still v) w := by
  change ((sendall (.packet .resume)).bind fun _ => consumeAck).wp M _ w
  rw [Program.wp_bind, wp_sendall]
  intro c hc
  have hresponsive := hM.admits hc
  rw [hM.step]
  change Program.onValue (fun _ => consumeAck) M _ (World.send link _ c (w.absorb link c.acts)).1
    (World.send link _ c (w.absorb link c.acts)).2
  unfold World.send
  split_ifs with hopen hfails
  · exact absurd (hresponsive.2.1.symm.trans hfails) Bool.false_ne_true
  · change consumeAck.wp M _ _
    rw [wp_consumeAck]
    intro c' hc'
    left
    rw [hM.step]
    exact (hM.admits hc').2 hopen
  · right
    rw [World.absorb_sockOpen] at hopen
    exact still_absorb c.acts (hw (Bool.eq_false_iff.mpr hopen))

/-- Resuming marks the session as running. -/
theorem keeps_resumeLocked : (resumeLocked : Code τ Unit).Keeps (awaiting link) Still := by
  intro w hw
  change (continueAsync.bind fun _ => access .markRunning).wp _ _ w
  rw [Program.wp_bind]
  refine Program.wp_mono ?_ (wp_continueAsync onResponsive_awaiting fun _ => hw)
  intro r v hv
  cases r with
  | error e => exact hv.resolve_left (by simp)
  | ok u =>
    intro c hc
    have hstate : (World.step link .markRunning c v).2.state ≠ .connectedPaused := markRunning_state
    exact still_of_state hstate

end Waiting

section Modifying

variable {τ N L α : Type} {link : Link τ N L} {w : World τ L}

/-- Draining the stops starts nothing. -/
theorem rests_drainStopReplies (maxWait : ℕ) :
    (drainStopReplies maxWait : Code τ (List (Packet τ))).Uses rests :=
  (leaves_drainStopReplies maxWait).mono fun _ => rests_of_leaves

/-- Neither does code that sends no starting packet. -/
theorem rests_of_restrained {o : Op τ}
    (h : restrained true true true (fun message => starts message = false) o) : rests o := by
  cases o <;> first | exact h | trivial

/-- Whatever follows the interrupt leaves the target halted. -/
theorem rests_afterInterrupt :
    (do
      let n ← access (.turns 1000)
      consumeStops n false
      let _ ← drainStopReplies 50
      fence
      access .markPaused : Code τ Unit).Uses rests := by
  have hnot : starts (.packet .currentThread) = false := rfl
  refine uses_then trivial fun n => ?_
  refine Program.uses_bind ((uses_consumeStops n false).mono fun _ =>
    rests_of_restrained) fun _ => ?_
  refine Program.uses_bind (rests_drainStopReplies 50) fun _ => ?_
  refine Program.uses_bind ((uses_fence hnot).mono fun _ =>
    rests_of_restrained) fun _ => uses_access trivial

/-- An interrupt over an open connection halts the target. -/
theorem wp_interrupt (hopen : w.sockOpen = true) :
    ((interrupt : Code τ Unit).handle fun _ => pure ()).wp (awaiting link) (fun _ v => Halted v) w := by
  rw [Program.wp_handle]
  change (sendall .interrupt).wp _ _ w
  rw [wp_sendall]
  intro c hc
  have hresponsive := hc.1.2
  have habsorb : (w.absorb link c.acts).sockOpen = true := (World.absorb_sockOpen link c.acts w).trans hopen
  have hsent : World.send link .interrupt c (w.absorb link c.acts) =
      (.ok (), (w.absorb link c.acts).delivered link .interrupt c) := by
    unfold World.send
    rw [if_pos habsorb, if_neg (by rw [hresponsive.2.1]; exact Bool.false_ne_true)]
  have hstep : (awaiting link).step (.send .interrupt) c w =
      (.ok (), (w.absorb link c.acts).delivered link .interrupt c) := hsent
  rw [hstep]
  change (if c.obeyed then runningAfter .interrupt (w.absorb link c.acts).running else _) = false
  rw [if_pos hresponsive.2.2]
  rfl

/-- Quiescing halts the target. -/
theorem wp_quiesceForModify (hopen : w.sockOpen = true) :
    (quiesceForModify : Code τ Unit).wp (awaiting link) (fun _ v => Halted v) w := by
  unfold quiesceForModify
  rw [Program.bind_eq, Program.wp_bind]
  refine Program.wp_mono ?_ (wp_interrupt hopen)
  intro r v hv
  cases r with
  | error e => exact hv
  | ok u => exact keeps_halted onResponsive_awaiting rests_afterInterrupt v hv

/-- A probe that succeeds has found an open connection. -/
theorem wp_probed (w : World τ L) : (probeResponsive 500 : Code τ Bool).wp (awaiting link)
    (fun r v => r = .ok true → v.sockOpen = true) w := by
  by_cases hopen : w.sockOpen = true
  · have hne : ∀ o : Op τ, probes o → o ≠ .close := by
      rintro o ho rfl
      exact ho
    have huses : (probeResponsive 500 : Code τ Bool).Uses fun o : Op τ => o ≠ .close :=
      uses_probe hne (fun _ => by simp) 500
    refine Program.wp_mono ?_ (keeps_open onResponsive_awaiting huses w hopen)
    exact fun _ _ hv _ => hv
  · intro c hc
    change (if w.sockOpen = true then _ else pure false : Code τ Bool).wp _ _ w
    rw [if_neg hopen]
    exact fun h => by simp at h

/-- Pausing for a change halts the target, or fails behind a session that is not paused. -/
theorem wp_pauseForModify (hw : Still w) : (pauseForModify : Code τ Unit).wp (awaiting link)
    (fun r v => Still v ∧ ((∃ u, r = .ok u) → Halted v)) w := by
  change ((probeResponsive 500).bind _).wp _ _ w
  rw [Program.wp_bind]
  refine Program.wp_mono ?_ (Program.wp_and
    (keeps_still onResponsive_awaiting (leaves_probeResponsive 500) w hw) (wp_probed w))
  intro r v ⟨hv, hprobed⟩
  cases r with
  | error e => exact ⟨hv, fun ⟨u, h⟩ => by simp at h⟩
  | ok responsive =>
    cases responsive with
    | false =>
      change ((access (.setState .error)).bind fun _ => throwing wedgedBeforeModify).wp _ _ v
      intro c hc
      exact ⟨still_of_state (by change SessionState.error ≠ .connectedPaused; decide),
        fun ⟨u, h⟩ => by simp at h⟩
    | true =>
      change (quiesceForModify.bind _).wp _ _ v
      have hrest : ((drainStopReplies 100).bind fun _ => access .markPaused : Code τ Unit).Uses rests :=
        Program.uses_bind (rests_drainStopReplies 100) fun _ => uses_access trivial
      have hhalted : (quiesceForModify.bind fun _ => (drainStopReplies 100).bind fun _ =>
          access .markPaused : Code τ Unit).wp (awaiting link) (fun _ v => Halted v) v := by
        rw [Program.wp_bind]
        refine Program.wp_mono ?_ (wp_quiesceForModify (hprobed rfl))
        intro r u hu
        cases r with
        | error e => exact hu
        | ok _ => exact keeps_halted onResponsive_awaiting hrest u hu
      exact Program.wp_mono (fun _ _ hu => ⟨still_of_halted hu, fun _ => hu⟩) hhalted

/-- The resume after a change. -/
theorem wp_resumeAfterModify (hw : Halted w) :
    (resumeAfterModify : Code τ Unit).wp (awaiting link) (fun _ v => Still v) w := by
  unfold resumeAfterModify
  rw [Program.bind_eq, Program.wp_bind]
  refine Program.wp_mono ?_ (keeps_halted onResponsive_awaiting (rests_drainStopReplies 50) w hw)
  intro r v hv
  cases r with
  | error e => exact still_of_halted hv
  | ok packets => exact keeps_resumeLocked v (still_of_halted hv)

/-- A change that does not resume the target by itself. -/
theorem keeps_modifyLocked {body : Code τ α} (hbody : body.Uses leaves) :
    (modifyLocked body).Keeps (awaiting link) Still := by
  refine Program.keeps_bind (keeps_still onResponsive_awaiting (uses_access trivial)) fun state => ?_
  split_ifs
  · intro w hw
    rw [Program.bind_eq, Program.wp_bind]
    refine Program.wp_mono ?_ (wp_pauseForModify hw)
    intro r v ⟨hv, hhalted⟩
    cases r with
    | error e => exact hv
    | ok u =>
      change (body.ensuring resumeAfterModify).wp _ _ v
      rw [Program.wp_ensuring]
      refine Program.wp_mono ?_ (keeps_halted onResponsive_awaiting
        (hbody.mono fun _ => rests_of_leaves) v (hhalted ⟨u, rfl⟩))
      intro r v' hv'
      refine Program.wp_mono ?_ (wp_resumeAfterModify hv')
      intro s v'' hv''
      cases s <;> exact hv''
  · exact keeps_still onResponsive_awaiting hbody

/-- The pieces of the tools that run undisturbed. -/
theorem atoms : Atoms (awaiting link) Still where
  session o ho := keeps_still onResponsive_awaiting (uses_access (by
    cases o <;> trivial))
  registry o ho := keeps_still onResponsive_awaiting (uses_access (by
    cases o <;> trivial))
  readMem addr size := keeps_still onResponsive_awaiting (commands_leave.readMem addr size rfl)
  writeMem addr data := keeps_still onResponsive_awaiting (commands_leave.writeMem addr data rfl)
  register regnum := keeps_still onResponsive_awaiting (commands_leave.readRegister regnum rfl)
  registers := keeps_still onResponsive_awaiting (commands_leave.readRegisters rfl)
  sprs := keeps_still onResponsive_awaiting (commands_leave.readSprs _ _ (by simp [starts]))
  fprs := keeps_still onResponsive_awaiting (commands_leave.readFprs _ _ (by simp [starts]))
  pausing := keeps_pauseLocked
  resuming := keeps_resumeLocked
  stepping := keeps_stepLocked
  awaiting := keeps_awaitLocked
  awaitingTarget := keeps_awaitTarget
  inserting addr := keeps_modifyLocked (commands_leave.setBreak rfl)
  insertingWatch addr size on := keeps_modifyLocked (commands_leave.insertWatchpoint (by simp [starts]))
  deleting spec := keeps_modifyLocked (commands_leave.deletePoint spec (by simp [starts]))

end Modifying

section Connecting

variable {τ N L : Type} {link : Link τ N L} {w : World τ L} {others : World τ L → World τ L → Prop}

/-- The target may run behind a paused session, but is resumed at once. -/
def Resuming (w : World τ L) : Prop := w.sockOpen = true ∧ w.autoResume = true

/-- Code that closes no connection keeps it ready to be resumed. -/
theorem keeps_resuming {M : Machine (signature τ) (Choice τ N) (World τ L)} (hM : OnResponsive link M)
    {α : Type} {p : Code τ α} (hp : p.Uses fun o : Op τ => o ≠ .close) : p.Keeps M Resuming := by
  intro w hw
  refine Program.wp_of_uses (fun o c w ho hc hw => ?_) hp hw
  rw [hM.step]
  exact ⟨open_step ho (hM.admits hc) hw.1, autoResume_step.trans hw.2⟩

/-- An open connection. -/
def Opened (w : World τ L) : Prop := w.sockOpen = true

/-- Assigned by the handshake, the paused state is that of a halted target, or
of one about to be resumed, whatever the other threads did before. -/
theorem wp_establish (hO : Stable others Opened) (hw : w.sockOpen = true) :
    (access (.setState .connectedPaused) : Code τ Unit).wp (sharing (awaiting link) others)
      (fun r x => x.2 = false ∧ (Still x.1 ∨ r = .ok () ∧ Resuming x.1)) (w, false) := by
  refine atomic_access (o := .setState .connectedPaused) hO ⟨rfl, rfl⟩
    (fun r v => Still v ∨ r = .ok () ∧ Resuming v) w hw fun v hv c hc => ?_
  have hwhere : v.running = false ∨ v.autoResume = true := hc.2
  rcases hwhere with hhalted | hresumes
  · exact Or.inl (still_of_halted hhalted)
  · exact Or.inr ⟨rfl, hv, hresumes⟩

/-- The handshake leaves a halted target, or one about to be resumed. -/
theorem wp_handshake (hI : Stable others Still) (hO : Stable others Opened) (hw : Still w) :
    handshake.wp (sharing (awaiting link) others) (fun r x => x.2 = false ∧
      (Still x.1 ∨ r = .ok () ∧ Resuming x.1)) (w, false) := by
  have hconnect : IsCommand (threads τ) (connect : Code τ Unit) :=
    ⟨⟨rfl, rfl⟩, fun r => Program.uses_ofExcept (S := signature τ) _ r⟩
  unfold handshake
  rw [Program.bind_eq, Program.wp_bind]
  refine Program.wp_mono ?_ ((atomic_command hI hconnect).keeps
    (keeps_still onResponsive_awaiting (uses_connect trivial)) (w, false) ⟨rfl, hw⟩)
  rintro r ⟨v, held⟩ ⟨hfree, hv⟩
  dsimp only at hfree hv
  subst hfree
  cases r with
  | error e => exact ⟨rfl, Or.inl hv⟩
  | ok u =>
    have hanswered : ∀ v, Still v → (whyHalted : Code τ (Packet τ)).wp (awaiting link)
        (fun r v => Still v ∧ ((∃ packet, r = .ok packet) → v.sockOpen = true)) v := fun v hv =>
      Program.wp_and (keeps_still onResponsive_awaiting (commands_leave.cmd _ rfl) v hv)
        (Program.wp_bind_last (fun _ _ ⟨_, h⟩ => by simp at h) (fun _ v => wp_readOpen onResponsive_awaiting _ v) v)
    rw [Program.onValue_ok, Program.bind_eq, Program.wp_bind]
    refine Program.wp_mono ?_ (atomic_command hI (isCommand_cmd .whyHalted) _ v hv hanswered)
    rintro r ⟨v, held⟩ ⟨hfree, hv, hopen⟩
    dsimp only at hfree hv hopen
    subst hfree
    cases r with
    | error e => exact ⟨rfl, Or.inl hv⟩
    | ok packet => exact wp_establish hO (hopen ⟨packet, rfl⟩)

/-- A call that connects has a halted target, or is about to resume it. -/
def Connecting (w : World τ L) : Prop := Still w ∨ Resuming w

/-- What holds while connecting is left alone by the others. -/
theorem stable_connecting (hI : Stable others Still) (hR : Stable others Resuming) :
    Stable others Connecting := by
  intro w v hw hothers
  rcases hw with hstill | hresuming
  · exact Or.inl (hI w v hstill hothers)
  · exact Or.inr (hR w v hresuming hothers)

/-- Reporting a failure marks nothing as paused. -/
theorem keeps_reportUnreachable (hI : Stable others Still) (e : PyError) :
    (reportUnreachable e : Code τ Unit).Keeps (sharing (awaiting link) others) (Free Still) := by
  unfold reportUnreachable
  split_ifs
  · refine (atomic_command hI ?_).keeps fun w hw => ?_
    · exact ⟨⟨rfl, rfl⟩, fun _ => trivial⟩
    · exact fun _ _ => still_of_state (by change SessionState.disconnected ≠ .connectedPaused; decide)
  · exact Program.keeps_raise _

/-- What the resume on connecting leaves. -/
theorem wp_resumeOnConnect (hI : Stable others Connecting) (hw : Connecting w) :
    (resumeOnConnect : Code τ Unit).wp (sharing (awaiting link) others)
      (fun _ x => Free Still x) (w, false) := by
  unfold resumeOnConnect
  rw [Program.bind_eq, Program.wp_bind]
  have hread : (access .autoResumeEnabled : Code τ Bool).wp (sharing (awaiting link) others)
      (fun (r : Except PyError Bool) x => x.2 = false ∧ Connecting x.1 ∧ ∃ enabled, r = .ok enabled ∧
        (enabled = false → Still x.1)) (w, false) := by
    refine atomic_access (o := .autoResumeEnabled) hI ⟨rfl, rfl⟩ (fun r v => Connecting v ∧
      ∃ enabled, r = .ok enabled ∧ (enabled = false → Still v)) w hw ?_
    intro v hv c hc
    refine ⟨hv, v.autoResume, rfl, fun hdisabled => ?_⟩
    rcases hv with hstill | ⟨-, hresumes⟩
    · exact hstill
    · exact absurd (hdisabled.symm.trans hresumes) Bool.false_ne_true
  refine Program.wp_mono ?_ hread
  rintro r ⟨v, held⟩ ⟨hfree, hv, enabled, rfl, hdisabled⟩
  dsimp only at hfree hv hdisabled
  subst hfree
  cases enabled with
  | false => exact ⟨rfl, hdisabled rfl⟩
  | true =>
    have hany : Stable others fun _ => True := fun _ _ _ _ => trivial
    have hlocked : ∀ v, Connecting v → (locked continueAsync : Code τ Unit).wp (awaiting link)
        (fun r v => r = .ok () ∨ Still v) v := by
      intro v hv
      refine wp_locked rfl (wp_continueAsync onResponsive_awaiting fun hclosed => ?_)
      rcases hv with hstill | ⟨hopen, -⟩
      · exact hstill
      · exact absurd (hclosed.symm.trans hopen) Bool.false_ne_true
    change (Program.handle _ _).wp _ _ _
    rw [Program.wp_handle, Program.bind_eq, Program.wp_bind]
    refine Program.wp_mono ?_ (atomic_lockedBody hI (uses_continueAsync trivial) _ v hv hlocked)
    rintro r ⟨v, held⟩ ⟨hfree, hv⟩
    dsimp only at hfree hv
    subst hfree
    cases r with
    | error e => exact ⟨rfl, hv.resolve_left (by simp)⟩
    | ok u =>
      -- whatever the watcher does in between, the session is not paused afterwards
      refine Program.wp_mono ?_ (atomic_access (o := .setState .connectedRunning) hany ⟨rfl, rfl⟩
        (fun _ v => Still v) v trivial fun v _ c hc => ?_)
      · rintro r ⟨v, held⟩ hv
        cases r <;> exact hv
      · exact still_of_state (by change SessionState.connectedRunning ≠ .connectedPaused; decide)

/-- Connecting keeps the target of a paused session halted. -/
theorem keeps_ensureConnected (hI : Stable others Still) (hR : Stable others Resuming)
    (hO : Stable others Opened) :
    (ensureConnected : Code τ Unit).Keeps (sharing (awaiting link) others) (Free Still) := by
  refine Program.keeps_bind ((atomic_access hI ⟨rfl, rfl⟩).keeps
    (keeps_still onResponsive_awaiting (uses_access trivial))) fun state => ?_
  split_ifs
  · exact Program.keeps_done ()
  · rintro ⟨w, held⟩ ⟨hfree, hw⟩
    dsimp only at hfree hw
    subst hfree
    have hJ : Stable others Connecting := stable_connecting hI hR
    have hhandled : (Program.handle handshake reportUnreachable).wp (sharing (awaiting link) others)
        (fun r x => x.2 = false ∧ (Still x.1 ∨ r = .ok () ∧ Resuming x.1)) (w, false) := by
      rw [Program.wp_handle]
      refine Program.wp_mono ?_ (wp_handshake hI hO hw)
      rintro r ⟨v, held⟩ ⟨hfree, hv⟩
      dsimp only at hfree hv
      subst hfree
      cases r with
      | error e =>
        have hstill : Still v := hv.resolve_right (by simp)
        refine Program.wp_mono ?_ (keeps_reportUnreachable hI e (v, false) ⟨rfl, hstill⟩)
        exact fun _ _ hx => ⟨hx.1, Or.inl hx.2⟩
      | ok u => exact ⟨rfl, hv⟩
    rw [Program.bind_eq, Program.wp_bind]
    refine Program.wp_mono ?_ hhandled
    rintro r ⟨v, held⟩ ⟨hfree, hv⟩
    dsimp only at hfree hv
    subst hfree
    cases r with
    | error e => exact ⟨rfl, hv.resolve_right (by simp)⟩
    | ok u =>
      have htry : (tryAttach : Code τ Unit).wp (sharing (awaiting link) others)
          (fun r x => x.2 = false ∧ r = .ok () ∧ Connecting x.1) (v, false) := by
        refine atomic_access (o := .tryAttach) hJ ⟨rfl, rfl⟩ (fun r v => r = .ok () ∧ Connecting v) v
          (hv.imp_right fun h => h.2) ?_
        intro w hw c hc
        refine ⟨rfl, ?_⟩
        rcases hw with hstill | hresuming
        · exact Or.inl (still_step trivial hc.1.2 hstill)
        · exact Or.inr ⟨open_step (by simp) hc.1.2 hresuming.1, autoResume_step.trans hresuming.2⟩
      change ((access .tryAttach).bind fun _ => resumeOnConnect).wp _ _ _
      rw [Program.wp_bind]
      refine Program.wp_mono ?_ htry
      rintro r ⟨u, held⟩ ⟨hfree, rfl, hu⟩
      dsimp only at hfree hu
      subst hfree
      exact wp_resumeOnConnect hJ hu

/-- The pieces of the tools next to other threads. -/
theorem pieces (hI : Stable others Still) (hR : Stable others Resuming)
    (hO : Stable others Opened) :
    ModifyPieces fun _ (p : Code τ _) => p.Keeps (sharing (awaiting link) others) (Free Still) :=
  atoms.pieces rfl hI (keeps_ensureConnected hI hR hO)

/-- So does starting to capture. -/
theorem keeps_captureOnHit (hI : Stable others Still) (hR : Stable others Resuming)
    (hO : Stable others Opened) (bpId : ℕ) (captures : Option (List String)) (autoResume : Bool) :
    (captureOnHit bpId captures autoResume : Code τ Unit).Keeps (sharing (awaiting link) others)
      (Free Still) := by
  refine (pieces hI hR hO).captureOnHit ?_ bpId captures autoResume
  rintro ⟨w, held⟩ ⟨hfree, hw⟩
  dsimp only at hfree hw
  subst hfree
  have hany : Stable others fun _ => True := fun _ _ _ _ => trivial
  change (continueAsync.bind fun _ => access .markRunning).wp _ _ _
  rw [Program.wp_bind]
  refine Program.wp_mono ?_ (atomic_command hI (isCommand_sendPacket _) (fun r v => r = .ok () ∨ Still v) w hw
    fun v hv => wp_continueAsync onResponsive_awaiting fun _ => hv)
  rintro r ⟨v, held⟩ ⟨hfree, hv⟩
  dsimp only at hfree hv
  subst hfree
  cases r with
  | error e => exact ⟨rfl, hv.resolve_left (by simp)⟩
  | ok u =>
    -- whatever the watcher does in between, the session is not paused afterwards
    refine atomic_access hany ⟨rfl, rfl⟩ (fun _ v => Still v) v trivial fun v _ c hc => ?_
    have hstate : (World.step link .markRunning c v).2.state ≠ .connectedPaused := markRunning_state
    exact still_of_state hstate

end Connecting

section Watcher

variable {τ N L : Type} {link : Link τ N L} {host : Host} {w : World τ L}

/-- A stop that is handed over was read from a halted target. -/
theorem wp_handleStop (raw : Packet τ) (hw : Still w) : (handleStop host raw).wp (watched link)
    (fun r v => Still v ∧ (r = .ok false → Halted v)) w := by
  unfold handleStop
  rw [Program.bind_eq, Program.wp_bind, wp_access]
  intro c hc
  have hcaptured : w.running = true → captured raw w.breakpoints = true := hc.2
  have hforeign : captured raw w.breakpoints = false → Halted w := fun h =>
    Bool.eq_false_iff.mpr fun hrunning => Bool.false_ne_true (h.symm.trans (hcaptured hrunning))
  unfold captured at hforeign
  change Program.onValue _ _ _ (.ok (matchBp (parseStopReply raw.text) w.breakpoints)) w
  rw [Program.onValue_ok]
  cases hmatched : matchBp (parseStopReply raw.text) w.breakpoints with
  | none =>
    rw [hmatched] at hforeign
    exact ⟨hw, fun _ => hforeign rfl⟩
  | some matchedId =>
    dsimp only
    rw [Program.bind_eq, Program.wp_bind, wp_access]
    intro c' hc'
    change Program.onValue _ _ _ (.ok w.breakpoints) w
    rw [Program.onValue_ok]
    rw [hmatched, Option.bind_some] at hforeign
    cases hspec : lookup matchedId w.breakpoints with
    | none =>
      rw [hspec] at hforeign
      exact ⟨hw, fun _ => hforeign rfl⟩
    | some spec =>
      rw [hspec, Option.any_some] at hforeign
      dsimp only
      split_ifs with hcontinues
      · rw [Program.bind_eq, Program.wp_bind]
        refine Program.wp_mono ?_ (keeps_still onResponsive_watched
          (commands_leave.capturing spec _ rfl (by simp [starts])) w hw)
        intro r v hv
        cases r with
        | error e => exact ⟨hv, fun h => by simp at h⟩
        | ok capture =>
          rw [Program.onValue_ok]
          split_ifs
          · exact ⟨hv, fun h => by simp at h⟩
          · exact fun _ _ => ⟨hv, fun h => by simp at h⟩
      · exact ⟨hw, fun _ => hforeign (Bool.eq_false_iff.mpr hcontinues)⟩

/-- The watcher resumes the target behind a session that is not paused. -/
theorem keeps_watcherContinue : (continueAsync : Code τ Unit).Keeps (watched link) Still := by
  intro w hw
  change ((sendall (.packet .resume)).bind fun _ => consumeAck).wp _ _ w
  rw [Program.wp_bind, wp_sendall]
  intro c hc
  have hstate : w.state ≠ .connectedPaused := hc.2
  have hafter : Still (World.send link (.packet .resume) c (w.absorb link c.acts)).2 := by
    refine still_of_state ?_
    rw [send_state, World.absorb_state]
    exact hstate
  change Program.onValue (fun _ => consumeAck) (watched link) _
    (World.send link (.packet .resume) c (w.absorb link c.acts)).1
    (World.send link (.packet .resume) c (w.absorb link c.acts)).2
  cases (World.send link (.packet .resume) c (w.absorb link c.acts)).1 with
  | error e => exact hafter
  | ok u => exact keeps_still onResponsive_watched (uses_consumeAck trivial) _ hafter

/-- So does a turn of a watcher under the lock. -/
theorem keeps_watcherLocked (thread : ℕ) :
    (watcherLocked host thread : Code τ Turn).Keeps (watched link) Still := by
  refine Program.keeps_bind (keeps_still onResponsive_watched (uses_access trivial)) fun stopped => ?_
  split_ifs
  · exact Program.keeps_done _
  · refine Program.keeps_bind (Program.keeps_attempt
      (keeps_still onResponsive_watched (leaves_waitForStop _))) fun r => ?_
    cases r with
    | error e =>
      dsimp only
      split_ifs
      · exact Program.keeps_done _
      · exact Program.keeps_done _
      · exact Program.keeps_raise _
    | ok raw =>
      intro w hw
      dsimp only
      rw [Program.bind_eq, Program.wp_bind]
      refine Program.wp_mono ?_ (wp_handleStop raw hw)
      intro r v ⟨hv, hhalted⟩
      cases r with
      | error e => exact hv
      | ok handled =>
        cases handled with
        | true =>
          refine Program.keeps_bind (Program.keeps_attempt keeps_watcherContinue) (fun r => ?_) v hv
          cases r with
          | ok u => exact Program.keeps_done _
          | error e =>
            dsimp only
            split_ifs
            · exact Program.keeps_done _
            · exact Program.keeps_raise _
        | false =>
          have hrest : ((access (.pushPending raw)).bind fun _ => (access .markPaused).bind fun _ =>
              pure Turn.leave : Code τ Turn).Uses rests :=
            uses_then trivial fun _ => uses_then trivial fun _ => trivial
          refine Program.wp_mono ?_ (keeps_halted onResponsive_watched hrest v (hhalted rfl))
          exact fun _ _ hu => still_of_halted hu

/-- A turn of a watcher. -/
theorem keeps_watcherIteration (thread : ℕ) :
    (watcherIteration host thread : Code τ Unit).Keeps (watched link) Still := by
  refine Program.keeps_bind (keeps_still onResponsive_watched (uses_access trivial)) fun alive => ?_
  split_ifs
  · refine Program.keeps_bind (Program.keeps_attempt ?_) fun r => ?_
    · refine Program.keeps_bind (keeps_still onResponsive_watched (uses_access trivial)) fun stopped => ?_
      split_ifs
      · exact Program.keeps_done _
      · refine Program.keeps_bind (keeps_still onResponsive_watched (uses_access trivial)) fun bps => ?_
        split_ifs
        · exact fun w hw => wp_locked rfl (keeps_watcherLocked thread w hw)
        · exact Program.keeps_done _
    · split
      · exact Program.keeps_done _
      · exact keeps_still onResponsive_watched (uses_access trivial)
  · exact Program.keeps_done _

/-- The watcher threads keep it. -/
theorem stable_still : Stable (watching (watched link) host) Still :=
  stable_watching keeps_watcherIteration

/-- A turn of a watcher never closes the socket. -/
theorem uses_open (thread : ℕ) :
    (watcherIteration host thread : Code τ Unit).Uses fun o : Op τ => o ≠ .close := by
  refine uses_watcherIteration host thread (fun o ho => ne_close_of_restrained ho) ?_ ?_
  · simp
  · simp

/-- They keep a connection open. -/
theorem stable_opened : Stable (watching (watched link) host) Opened :=
  stable_watching fun thread => keeps_open onResponsive_watched (uses_open thread)

/-- They keep it ready to be resumed. -/
theorem stable_resuming : Stable (watching (watched link) host) Resuming :=
  stable_watching fun thread => keeps_resuming onResponsive_watched (uses_open thread)

end Watcher

section Main

variable {τ N L : Type} {link : Link τ N L} {host : Host}

/-- One call next to watcher threads. -/
theorem keeps_action (action : Action) : (action.code host : Code τ Unit).Keeps
    (sharing (awaiting link) (watching (watched link) host)) (Free Still) := by
  refine action_of_pieces (pieces stable_still stable_resuming stable_opened)
    (keeps_captureOnHit stable_still stable_resuming stable_opened) host action ?_
  rintro rfl
  refine (pieces stable_still stable_resuming stable_opened).health ?_ ?_
  · exact (atomic_access stable_still ⟨rfl, rfl⟩).keeps (keeps_still onResponsive_awaiting (uses_access trivial))
  · exact keeps_locked rfl stable_still (uses_probeResponsive trivial _)
      (keeps_still onResponsive_awaiting (leaves_probeResponsive _))

/-- In every state between the calls of a run, a paused session has a halted target. -/
theorem paused_is_halted (link : Link τ N L) (host : Host) (actions : List Action) (w v : World τ L)
    (hw : w.state = .connectedPaused → w.running = false) (h : WatchedRuns link host actions w v) :
    v.state = .connectedPaused → v.running = false :=
  h.keeps stable_still keeps_action hw

end Main

section Samples

instance (acts : List (StubAct Origin)) (w : TokenWorld) : Decidable (haltsOnce acts w) := by
  unfold haltsOnce
  split <;> infer_instance

instance (o : Op Origin) (c : Choice Origin TokenNet) (w : TokenWorld) :
    Decidable (answers (tokenLink Origin) o c w) := by
  induction o using Op.casesOn with
  | send _ => exact inferInstanceAs (Decidable (c.sendFails = false ∧ c.obeyed = true))
  | consumeAck =>
    exact inferInstanceAs (Decidable (w.sockOpen = true →
      (World.step (tokenLink Origin) .consumeAck c w).1 = .ok ()))
  | readPacketFromWire timeout =>
    exact inferInstanceAs (Decidable (w.sockOpen = true →
      World.losesConnection (World.step (tokenLink Origin) (.readPacketFromWire timeout) c w).1 = false))
  | _ => exact isTrue trivial

instance (o : Op Origin) (c : Choice Origin TokenNet) (w : TokenWorld) :
    Decidable ((responsive (tokenLink Origin)).admits o c w) :=
  inferInstanceAs (Decidable (True ∧ haltsOnce c.acts w ∧ answers (tokenLink Origin) o c w))

/-- A frame that arrives among others is a frame when all of them arrive. -/
theorem firstFrame_all {arrived : Option ℕ} {tokens : Tokens} (h : (firstFrame arrived tokens).isSome) :
    (firstFrame none tokens).isSome := by
  induction tokens generalizing arrived with
  | nil => simp [firstFrame] at h
  | cons t tokens ih =>
    unfold firstFrame at h ⊢
    split_ifs at h
    · simp at h
    · rw [if_neg (by simp)]
      cases t with
      | frame body tag => rfl
      | ack tag => exact ih h
      | stray byte tag => exact ih h

/-- Over tokens, a packet can be read when a frame is unread. -/
theorem unread_iff (tokens : Tokens) :
    Unread (tokenLink Origin) tokens ↔ (firstFrame none tokens).isSome = true := by
  constructor
  · rintro ⟨net, packet, h⟩
    change (takeFrame net tokens).1 = .ok packet at h
    have harrived : (firstFrame net.arrived tokens).isSome = true := by
      unfold takeFrame at h
      split at h
      · simp at h
      · rename_i hfound
        rw [hfound]
        rfl
    exact firstFrame_all harrived
  · intro h
    obtain ⟨⟨packet, rest⟩, hfound⟩ := Option.isSome_iff_exists.mp h
    refine ⟨default, packet, ?_⟩
    change (takeFrame default tokens).1 = .ok packet
    unfold takeFrame
    have harrived : (default : TokenNet).arrived = none := rfl
    rw [harrived, hfound]
    rfl

instance (tokens : Tokens) : Decidable (Unread (tokenLink Origin) tokens) :=
  decidable_of_iff _ (unread_iff tokens).symm

instance (o : Op Origin) (w : TokenWorld) : Decidable (Awaits (tokenLink Origin) o w) := by
  induction o using Op.casesOn with
  | popPending =>
    exact inferInstanceAs (Decidable (w.running = true →
      w.pendingReplies = [] ∧ ¬Unread (tokenLink Origin) w.link))
  | setState state =>
    induction state using SessionState.casesOn with
    | connectedPaused => exact inferInstanceAs (Decidable (w.running = false ∨ w.autoResume = true))
    | _ => exact isTrue trivial
  | _ => exact isTrue trivial

instance (o : Op Origin) (w : TokenWorld) : Decidable (Watches o w) := by
  induction o using Op.casesOn with
  | matchBp raw => exact inferInstanceAs (Decidable (w.running = true → captured raw w.breakpoints = true))
  | send message =>
    induction message using Sent.casesOn with
    | interrupt => exact isTrue trivial
    | packet command =>
      induction command using Command.casesOn with
      | resume => exact inferInstanceAs (Decidable (w.state ≠ .connectedPaused))
      | _ => exact isTrue trivial
  | _ => exact isTrue trivial

instance (o : Op Origin) (c : Choice Origin TokenNet) (w : TokenWorld) :
    Decidable ((awaiting (tokenLink Origin)).admits o c w) :=
  inferInstanceAs (Decidable ((responsive (tokenLink Origin)).admits o c w ∧
    Awaits (tokenLink Origin) o w))

instance (o : Op Origin) (c : Choice Origin TokenNet) (w : TokenWorld) :
    Decidable ((watched (tokenLink Origin)).admits o c w) :=
  inferInstanceAs (Decidable ((responsive (tokenLink Origin)).admits o c w ∧ Watches o w))

/-- A stop reply that reports a program counter. -/
def hitBody : Body := ⟨asciiBytes "T0540:80003200;".toList, by decide⟩

/-- Choices for a command that is acknowledged and answered `OK`. -/
def answeredOk (n : ℕ) : List (Choice Origin TokenNet) :=
  [{net := default, response := [.ack (.reply n), .frame okBody (.reply n)]},
    {net := default}, {net := default}]

/-- Choices for a resume that is acknowledged. -/
def resumed (n : ℕ) : List (Choice Origin TokenNet) :=
  [{net := default, response := [.ack (.reply n)]}, {net := default}]

/-- The read in which the breakpoint at `0x80003200` is hit. -/
def hits : List (Choice Origin TokenNet) :=
  [{net := default, acts := [⟨.frame hitBody (.stop 0 (.hit ⟨.swBp, 0x80003200, 4⟩)), true⟩]}]

/-- A breakpoint is set, the target resumes and hits it, and the wait reports it. -/
def waited : List (Part Origin TokenNet) :=
  [.call (.addBreakpoint 0x80003200) (answeredOk 0), .call .resume (resumed 1),
    .call (.waitForHit 1000) hits]

/-- A run that waits for a hit, and is paused by it. -/
theorem paused_is_halted_hit : ∃ v, WatchedRuns (tokenLink Origin) plainHost (calls waited) pausedWorld v ∧
    v.state = .connectedPaused ∧ (v.state = .connectedPaused → v.running = false) := by
  have hadmitted : Admitted (awaiting (tokenLink Origin)) (watched (tokenLink Origin)) plainHost waited
      pausedWorld := by decide +kernel
  have hruns : WatchedRuns (tokenLink Origin) plainHost (calls waited) pausedWorld _ :=
    runs_of_admitted rfl hadmitted
  exact ⟨_, hruns, by decide +kernel, paused_is_halted _ _ _ _ _ (fun _ => rfl) hruns⟩

/-- A hit of a plain breakpoint is handed over while another one captures; the
next wait, after a resume, takes it for a new stop. -/
def overtaken : List (Part Origin TokenNet) :=
  [.call (.addBreakpoint 0x80003100) (answeredOk 0), .call (.addBreakpoint 0x80003200) (answeredOk 1),
    .call (.captureOnHit 1 none true) (resumed 2), .turn 0 hits, .call .resume (resumed 3),
    .call (.waitForHit 1000) []]

/-- A stop left over from before marks the session while the target runs. -/
theorem stale_stop_pauses_a_running_target : ∃ v,
    ResponsiveRuns (tokenLink Origin) plainHost (calls overtaken) pausedWorld v ∧
      ¬(v.state = .connectedPaused → v.running = false) := by
  have hadmitted : Admitted (responsive (tokenLink Origin)) (responsive (tokenLink Origin)) plainHost
      overtaken pausedWorld := by decide +kernel
  have hruns : ResponsiveRuns (tokenLink Origin) plainHost (calls overtaken) pausedWorld _ :=
    runs_of_admitted rfl hadmitted
  refine ⟨_, hruns, fun h => ?_⟩
  exact absurd (h (by decide +kernel)) (by decide +kernel)

end Samples

end DolphinRe.PausedTarget
