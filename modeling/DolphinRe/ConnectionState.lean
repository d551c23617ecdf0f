import DolphinRe.LinkRefinement
import DolphinRe.StubBehaviour
import DolphinRe.ToolRuns

/-!
# A connected session has an open connection

The client closes its socket wherever the connection is lost, and nobody tells
the session. The session state is right between calls as long as connections
are lost only while the session is not in a connected state, or in the
responsiveness probe of a call that turns a failed probe into an error state,
and as long as a connected state is assigned to an open connection only.
-/

namespace DolphinRe.ConnectionState

open PythonText GdbPackets GdbWire GdbTokens StopReplies EffectProgram SessionMachine GdbClient
  SessionTools BreakpointTools ExecutionTools LinkRefinement StubBehaviour Footprints ToolStructure
  Interference ToolRuns

section Statement

variable {τ N L : Type}

/-- The timeout of a responsiveness probe, in milliseconds. -/
def probeTimeout : ℕ := 500

/-- A connected session has an open connection. -/
def Linked (w : World τ L) : Prop := w.state.isConnected = true → w.sockOpen = true

/-- From this state `ensure_connected` does not return at once: having read the
session state, it goes on to connect. -/
def Reconnects (w : World τ L) : Prop :=
  ∃ next, (ensureConnected : Code τ Unit) = .perform .getState next ∧
    ∃ rest, next w.state = .perform .connect rest

/-- Where a connection may be lost: while the session is not connected, or in a
probe whose failure is reported. -/
def mayLose (reported : Bool) (w : World τ Unit) : Prop :=
  w.state.isConnected = false ∨ reported = true ∧ w.sockTimeout = probeTimeout

/-- Open connections are lost only where they may be, and a connected state is
assigned while the connection is open. -/
def LosesUnconnected (reported : Bool) : Discipline τ := fun o _ w answer =>
  match o, answer with
  | .send _, answer => w.sockOpen = true → World.losesConnection answer = true → mayLose reported w
  | .consumeAck, answer =>
    w.sockOpen = true → World.losesConnection answer = true → mayLose reported w
  | .readPacketFromWire _, answer =>
    w.sockOpen = true → World.losesConnection answer = true → mayLose reported w
  | .setState state, _ => state.isConnected = true → w.sockOpen = true
  | _, _ => True

instance (reported : Bool) (w : World τ Unit) : Decidable (mayLose reported w) := by
  unfold mayLose
  infer_instance

instance (reported : Bool) (o : Op τ) (c : Choice τ Unit) (w : World τ Unit) (answer : o.Answer) :
    Decidable (LosesUnconnected reported o c w answer) := by
  induction o using Op.casesOn with
  | send _ =>
    exact inferInstanceAs (Decidable (w.sockOpen = true → World.losesConnection answer = true →
      mayLose reported w))
  | consumeAck =>
    exact inferInstanceAs (Decidable (w.sockOpen = true → World.losesConnection answer = true →
      mayLose reported w))
  | readPacketFromWire _ =>
    exact inferInstanceAs (Decidable (w.sockOpen = true → World.losesConnection answer = true →
      mayLose reported w))
  | setState state => exact inferInstanceAs (Decidable (state.isConnected = true → w.sockOpen = true))
  | _ => exact isTrue trivial

/-- The machine of a network that loses connections only where it may. -/
abbrev lossyMachine (link : Link τ N L) (reported : Bool) :
    Machine (signature τ) (Choice τ N) (World τ L) :=
  disciplined link (LosesUnconnected reported)

/-- Whether a call turns a failed probe into an error state; the health check
only reports it. -/
def reportsProbe : Action → Bool
  | .health => false
  | _ => true

/-- What the background threads do. -/
abbrev behind (link : Link τ N L) (host : Host) : World τ L → World τ L → Prop :=
  background (lossyMachine link false) host

/-- A run of calls next to the background threads. -/
abbrev LossyRuns (link : Link τ N L) (host : Host) : List Action → World τ L → World τ L → Prop :=
  Runs (fun action => lossyMachine link (reportsProbe action)) (behind link host) host

end Statement

section Steps

variable {τ N L : Type} {link : Link τ N L} {w v : World τ L} {c : Choice τ N} {reported : Bool}

/-- A connected session has an open connection, and no probe is under way. -/
structure Settled (w : World τ L) : Prop where
  /-- A connected session has an open connection. -/
  linked : Linked w
  /-- Its timeout is not the one of a probe. -/
  timeout : w.sockOpen = true → w.sockTimeout ≠ probeTimeout

/-- Accesses that do not close the connection. -/
def keepsState : Op τ → Prop
  | .close => False
  | _ => True

/-- Those that leave the socket timeout alone too. -/
def steady : Op τ → Prop
  | .setTimeout _ => False
  | o => keepsState o

/-- Steady accesses keep the session state. -/
theorem keepsState_of_steady {o : Op τ} (h : steady o) : keepsState o := by
  cases o <;> first | exact h | exact h.elim

/-- What assigns no state and opens nothing is steady. -/
theorem steady_of_restrained {marks locks : Bool} {sends : Sent → Prop} {o : Op τ}
    (h : restrained false marks locks sends o) : steady o := by
  cases o <;> trivial

/-- What the stub does on its own closes no connection. -/
theorem linked_absorb (acts : List (StubAct τ)) (h : Linked w) : Linked (w.absorb link acts) := by
  intro hconnected
  rw [World.absorb_sockOpen]
  rw [World.absorb_state] at hconnected
  exact h hconnected

/-- Mapping a value loses no connection. -/
theorem losesConnection_map {α β : Type} {f : α → β} {outcome : Except PyError α} :
    World.losesConnection (outcome.map f) = World.losesConnection outcome := by
  rcases outcome with e | a
  · cases e <;> rfl
  · rfl

/-- A session that is not connected needs no connection. -/
theorem linked_of_unconnected (h : w.state.isConnected = false) : Linked w := fun hconnected => by
  rw [h] at hconnected
  exact absurd hconnected Bool.false_ne_true

/-- Where a loss is admitted, the session is not connected. -/
theorem unconnected_of_mayLose (hprobe : reported = true → w.sockOpen = true → w.sockTimeout ≠ probeTimeout)
    (hopen : w.sockOpen = true) (h : mayLose reported (withLink w ())) :
    w.state.isConnected = false := by
  rcases h with h | ⟨hreported, htimeout⟩
  · exact h
  · exact absurd htimeout (hprobe hreported hopen)

/-- Access by access, the session stays linked outside a reported probe. -/
theorem linked_step {o : Op τ} (ho : keepsState o) (hc : (lossyMachine link reported).admits o c w)
    (hprobe : reported = true → w.sockOpen = true → w.sockTimeout ≠ probeTimeout) (hw : Linked w) :
    Linked ((lossyMachine link reported).step o c w).2 := by
  have habsorb : Linked (w.absorb link c.acts) := linked_absorb c.acts hw
  have hopen : (w.absorb link c.acts).sockOpen = w.sockOpen := World.absorb_sockOpen link c.acts w
  have hstate : (w.absorb link c.acts).state = w.state := World.absorb_state link c.acts w
  have hadmits := hc.2
  cases o with
  | send message =>
    change w.sockOpen = true → World.losesConnection (World.send link message c
      (w.absorb link c.acts)).1 = true → mayLose reported (withLink w ()) at hadmits
    change Linked (World.send link message c (w.absorb link c.acts)).2
    unfold World.send at hadmits ⊢
    split_ifs at hadmits ⊢ with hsock hfails
    · have hloses : World.losesConnection (.error (World.sendError message) : Except PyError Unit) = true := by
        cases message <;> rfl
      refine linked_of_unconnected ?_
      change (w.absorb link c.acts).state.isConnected = false
      rw [hstate]
      rw [hopen] at hsock
      exact unconnected_of_mayLose hprobe hsock (hadmits hsock hloses)
    · exact fun _ => hsock
    · exact habsorb
  | consumeAck =>
    change w.sockOpen = true → World.losesConnection (World.consumeAck link c
      (w.absorb link c.acts)).1 = true → mayLose reported (withLink w ()) at hadmits
    change Linked (World.consumeAck link c (w.absorb link c.acts)).2
    cases hsock : (w.absorb link c.acts).sockOpen with
    | false =>
      rw [World.consumeAck_closed hsock]
      exact habsorb
    | true =>
      rw [World.consumeAck_open hsock] at hadmits ⊢
      rw [losesConnection_map] at hadmits
      rw [hopen] at hsock
      cases hloses : World.losesConnection
        (link.consumeAck c.net (w.absorb link c.acts).link).1 with
      | false => exact fun _ => rfl
      | true =>
        refine linked_of_unconnected ?_
        change (w.absorb link c.acts).state.isConnected = false
        rw [hstate]
        exact unconnected_of_mayLose hprobe hsock (hadmits hsock hloses)
  | readPacketFromWire timeout =>
    change w.sockOpen = true → World.losesConnection (World.readPacket link c
      (w.absorb link c.acts)).1 = true → mayLose reported (withLink w ()) at hadmits
    change Linked (World.readPacket link c (w.absorb link c.acts)).2
    cases hsock : (w.absorb link c.acts).sockOpen with
    | false =>
      rw [World.readPacket_closed hsock]
      exact habsorb
    | true =>
      rw [World.readPacket_open hsock] at hadmits ⊢
      rw [hopen] at hsock
      cases hloses : World.losesConnection
        (link.readPacket c.net (w.absorb link c.acts).link).1 with
      | false => exact fun _ => rfl
      | true =>
        refine linked_of_unconnected ?_
        change (w.absorb link c.acts).state.isConnected = false
        rw [hstate]
        exact unconnected_of_mayLose hprobe hsock (hadmits hsock hloses)
  | connect =>
    change Linked (World.connect link c (w.absorb link c.acts)).2
    unfold World.connect
    split_ifs
    · exact habsorb
    · exact habsorb
    · exact fun _ => rfl
  | setState state =>
    change state.isConnected = true → w.sockOpen = true at hadmits
    exact fun hconnected => hadmits hconnected
  | markRunning =>
    change Linked (if w.state = .connectedPaused then {w with state := .connectedRunning} else w)
    split_ifs with hpaused
    · exact fun _ => hw (by rw [hpaused]; rfl)
    · exact hw
  | markPaused =>
    change Linked (if w.state = .connectedRunning then {w with state := .connectedPaused} else w)
    split_ifs with hrunning
    · exact fun _ => hw (by rw [hrunning]; rfl)
    · exact hw
  | _ => first
    | exact ho.elim
    | exact hw
    | exact habsorb

/-- No access but the assignment of the timeout starts a probe. -/
theorem timeout_step {o : Op τ} (ho : steady o) (c : Choice τ N)
    (hw : w.sockOpen = true → w.sockTimeout ≠ probeTimeout) :
    ((lossyMachine link reported).step o c w).2.sockOpen = true →
      ((lossyMachine link reported).step o c w).2.sockTimeout ≠ probeTimeout := by
  have habsorb : (w.absorb link c.acts).sockOpen = true →
      (w.absorb link c.acts).sockTimeout ≠ probeTimeout := by
    rw [World.absorb_sockOpen, World.absorb_sockTimeout]
    exact hw
  cases o with
  | send message =>
    change (World.send link message c (w.absorb link c.acts)).2.sockOpen = true →
      (World.send link message c (w.absorb link c.acts)).2.sockTimeout ≠ probeTimeout
    unfold World.send
    split_ifs
    · exact fun h => absurd h Bool.false_ne_true
    · exact habsorb
    · exact habsorb
  | consumeAck =>
    change (World.consumeAck link c (w.absorb link c.acts)).2.sockOpen = true →
      (World.consumeAck link c (w.absorb link c.acts)).2.sockTimeout ≠ probeTimeout
    unfold World.consumeAck
    split_ifs with hsock
    · exact fun _ => habsorb hsock
    · exact habsorb
  | readPacketFromWire timeout =>
    change (World.readPacket link c (w.absorb link c.acts)).2.sockOpen = true →
      (World.readPacket link c (w.absorb link c.acts)).2.sockTimeout ≠ probeTimeout
    unfold World.readPacket
    split_ifs with hsock
    · exact fun _ => habsorb hsock
    · exact habsorb
  | connect =>
    change (World.connect link c (w.absorb link c.acts)).2.sockOpen = true →
      (World.connect link c (w.absorb link c.acts)).2.sockTimeout ≠ probeTimeout
    unfold World.connect
    split_ifs
    · exact habsorb
    · exact habsorb
    · intro _
      change World.defaultTimeout ≠ probeTimeout
      decide
  | markRunning =>
    change (if w.state = .connectedPaused then {w with state := .connectedRunning} else w).sockOpen = true →
      (if w.state = .connectedPaused then {w with state := .connectedRunning} else w).sockTimeout ≠ _
    split_ifs <;> exact hw
  | markPaused =>
    change (if w.state = .connectedRunning then {w with state := .connectedPaused} else w).sockOpen = true →
      (if w.state = .connectedRunning then {w with state := .connectedPaused} else w).sockTimeout ≠ _
    split_ifs <;> exact hw
  | _ => first
    | exact ho.elim
    | exact hw
    | exact habsorb

/-- Steady accesses keep a connected session connected. -/
theorem settled_step {o : Op τ} (ho : steady o) (hc : (lossyMachine link reported).admits o c w)
    (hw : Settled w) : Settled ((lossyMachine link reported).step o c w).2 :=
  ⟨linked_step (keepsState_of_steady ho) hc (fun _ => hw.timeout) hw.linked,
    timeout_step ho c hw.timeout⟩

end Steps

section Programs

variable {τ N L α : Type} {link : Link τ N L} {w v : World τ L} {reported : Bool}

/-- So does code made of them. -/
theorem keeps_settled {p : Code τ α} (hp : p.Uses steady) : p.Keeps (lossyMachine link reported) Settled :=
  fun _ hw => Program.wp_of_uses (fun _ _ _ ho hc hw => settled_step ho hc hw) hp hw

/-- Restrained code. -/
theorem keeps_restrained {p : Code τ α} (hp : p.Uses (restrained false true true fun _ => True)) :
    p.Keeps (lossyMachine link reported) Settled :=
  keeps_settled (hp.mono fun _ => steady_of_restrained)

/-- Without an unreported probe, even a short timeout keeps the session linked. -/
theorem keeps_linked {p : Code τ α} (hp : p.Uses keepsState) : p.Keeps (lossyMachine link false) Linked :=
  fun _ hw => Program.wp_of_uses
    (fun _ _ _ ho hc hw => linked_step ho hc (fun h => absurd h Bool.false_ne_true) hw) hp hw

/-- The connection was lost, or is as it was. -/
def LostOrSame (w : World τ L) (r : Except PyError α) (v : World τ L) : Prop :=
  World.losesConnection r = true ∨ (v.sockOpen = w.sockOpen ∧ v.state = w.state)

/-- Messages and reads raise when they lose the connection. -/
theorem lostOrSame_sendall (message : Sent) (w : World τ L) :
    (sendall message).wp (lossyMachine link reported) (LostOrSame w) w := by
  rw [wp_sendall]
  intro c hc
  change LostOrSame w (World.send link message c (w.absorb link c.acts)).1
    (World.send link message c (w.absorb link c.acts)).2
  unfold World.send
  split_ifs with hsock
  · left
    cases message <;> rfl
  · exact Or.inr ⟨World.absorb_sockOpen link c.acts w, World.absorb_state link c.acts w⟩
  · exact Or.inl rfl

/-- Waiting for an acknowledgement loses the connection, or leaves it. -/
theorem lostOrSame_consumeAck (w : World τ L) :
    (consumeAck : Code τ Unit).wp (lossyMachine link reported) (LostOrSame w) w := by
  rw [wp_consumeAck]
  intro c hc
  change LostOrSame w (World.consumeAck link c (w.absorb link c.acts)).1
    (World.consumeAck link c (w.absorb link c.acts)).2
  cases hsock : (w.absorb link c.acts).sockOpen with
  | false =>
    rw [World.consumeAck_closed hsock]
    exact Or.inl rfl
  | true =>
    rw [World.consumeAck_open hsock]
    cases hloses : World.losesConnection (link.consumeAck c.net (w.absorb link c.acts).link).1 with
    | true => exact Or.inl (losesConnection_map.trans hloses)
    | false =>
      rw [World.absorb_sockOpen] at hsock
      exact Or.inr ⟨hsock.symm, World.absorb_state link c.acts w⟩

/-- So does reading a packet. -/
theorem lostOrSame_readPacketFromWire (timeout : Option ℕ) (w : World τ L) :
    (readPacketFromWire timeout).wp (lossyMachine link reported) (LostOrSame w) w := by
  rw [wp_readPacketFromWire]
  intro c hc
  change LostOrSame w (World.readPacket link c (w.absorb link c.acts)).1
    (World.readPacket link c (w.absorb link c.acts)).2
  cases hsock : (w.absorb link c.acts).sockOpen with
  | false =>
    rw [World.readPacket_closed hsock]
    exact Or.inl rfl
  | true =>
    rw [World.readPacket_open hsock]
    cases hloses : World.losesConnection (link.readPacket c.net (w.absorb link c.acts).link).1 with
    | true => exact Or.inl hloses
    | false =>
      rw [World.absorb_sockOpen] at hsock
      exact Or.inr ⟨hsock.symm, World.absorb_state link c.acts w⟩

/-- One loss is enough. -/
theorem lostOrSame_bind {β : Type} {p : Code τ α} {f : α → Code τ β}
    (hp : p.wp (lossyMachine link reported) (LostOrSame w) w)
    (hf : ∀ a v, (f a).wp (lossyMachine link reported) (LostOrSame v) v) :
    (p.bind f).wp (lossyMachine link reported) (LostOrSame w) w := by
  rw [Program.wp_bind]
  refine Program.wp_mono ?_ hp
  intro r v hv
  cases r with
  | error e =>
    refine hv.imp_left fun hlost => ?_
    rw [losesConnection_error] at hlost ⊢
    exact hlost
  | ok a =>
    rcases hv with hlost | ⟨hopen, hstate⟩
    · exact absurd hlost Bool.false_ne_true
    · rw [Program.onValue_ok]
      refine Program.wp_mono ?_ (hf a v)
      intro s u hu
      exact hu.imp_right fun h => ⟨h.1.trans hopen, h.2.trans hstate⟩

/-- Sending a packet loses the connection, or leaves it. -/
theorem lostOrSame_sendPacket (command : Command) (w : World τ L) :
    (sendPacket command).wp (lossyMachine link reported) (LostOrSame w) w :=
  lostOrSame_bind (lostOrSame_sendall _ w) fun _ v => lostOrSame_consumeAck v

/-- The command of a probe. -/
theorem wp_heartbeat (w : World τ L) :
    ((sendPacket .currentThread).bind fun _ => (readPacketFromWire (some probeTimeout)).bind
      fun reply => (.done (!startsWith "E".toList reply.text) : Code τ Bool)).wp
        (lossyMachine link reported) (LostOrSame w) w := by
  refine lostOrSame_bind (lostOrSame_sendPacket .currentThread w) fun _ v => ?_
  exact lostOrSame_bind (lostOrSame_readPacketFromWire (some probeTimeout) v) fun _ _ =>
    Or.inr ⟨rfl, rfl⟩

/-- A probe answers false when it loses the connection, and restores the timeout. -/
theorem wp_probeResponsive (hw : Settled w) :
    (probeResponsive probeTimeout).wp (lossyMachine link reported) (fun r v =>
      (v.sockOpen = true → v.sockTimeout ≠ probeTimeout) ∧ (r ≠ .ok false → Linked v)) w := by
  intro c _
  change (if w.sockOpen = true then _ else _ : Code τ Bool).wp _ _ w
  split_ifs with hsock
  · intro c' _ c'' _
    refine (Program.wp_ensuring _ _ _ _).mpr ((Program.wp_handle _ _ _ _).mpr ?_)
    have hold : ∀ v : World τ L, ({v with sockTimeout := w.sockTimeout} : World τ L).sockOpen = true →
        ({v with sockTimeout := w.sockTimeout} : World τ L).sockTimeout ≠ probeTimeout :=
      fun _ _ => hw.timeout hsock
    refine Program.wp_mono ?_ (wp_heartbeat {w with sockTimeout := probeTimeout})
    intro r v hv
    have hlinked : World.losesConnection r = false → Linked v := by
      intro hkept hconnected
      rcases hv with hlost | ⟨hopen, hstate⟩
      · rw [hkept] at hlost
        exact absurd hlost Bool.false_ne_true
      · rw [hopen]
        exact hsock
    cases r with
    | ok alive => exact fun _ _ => ⟨hold v, fun _ => hlinked rfl⟩
    | error e =>
      dsimp only
      split_ifs with hfailure
      · exact fun _ _ => ⟨hold v, fun hne => absurd rfl hne⟩
      · refine fun _ _ => ⟨hold v, fun _ => hlinked ?_⟩
        cases e <;> first | rfl | simp [isProbeFailure, isConnectionLost] at hfailure
  · exact ⟨hw.timeout, fun hne => absurd rfl hne⟩

/-- A reported probe ends in a settled world. -/
theorem keeps_reportedProbe {p : Code τ α} {e : PyError} (hp : p.Keeps (lossyMachine link reported) Settled) :
    ((probeResponsive probeTimeout).bind fun responsive =>
      if responsive = true then p else (access (.setState .error)).bind fun _ => throwing e).Keeps
        (lossyMachine link reported) Settled := by
  intro w hw
  rw [Program.wp_bind]
  refine Program.wp_mono ?_ (wp_probeResponsive hw)
  intro r v ⟨htimeout, hlinked⟩
  cases r with
  | error e => exact ⟨hlinked (by simp), htimeout⟩
  | ok responsive =>
    cases responsive with
    | true => exact hp v ⟨hlinked (by simp), htimeout⟩
    | false => exact fun _ _ => ⟨linked_of_unconnected rfl, htimeout⟩

/-- Pausing for a change keeps a connected session connected. -/
theorem keeps_pauseForModify :
    (pauseForModify : Code τ Unit).Keeps (lossyMachine link reported) Settled := by
  refine keeps_reportedProbe (keeps_restrained ?_)
  refine Program.uses_bind (uses_quiesceForModify trivial trivial) fun _ => ?_
  exact Program.uses_bind (uses_drainStopReplies trivial trivial trivial) fun _ => uses_access trivial

/-- So does pausing. -/
theorem keeps_pauseLocked :
    (pauseLocked : Code τ (Packet τ)).Keeps (lossyMachine link reported) Settled := by
  refine keeps_reportedProbe (keeps_restrained ?_)
  refine Program.uses_bind (uses_drainStopReplies trivial trivial trivial) fun _ => ?_
  exact Program.uses_bind (uses_interruptAttempts trivial 2) fun _ => uses_then trivial fun _ => trivial

/-- So does a change whose body does. -/
theorem keeps_modifyLocked {body : Code τ α} (hbody : body.Keeps (lossyMachine link reported) Settled) :
    (modifyLocked body).Keeps (lossyMachine link reported) Settled := by
  refine Program.keeps_bind (keeps_restrained (uses_access trivial)) fun state => ?_
  split_ifs
  · refine Program.keeps_bind keeps_pauseForModify fun _ => Program.keeps_ensuring hbody ?_
    exact keeps_restrained (uses_resumeAfterModify trivial)
  · exact hbody

/-- The pieces of the tools that run undisturbed. -/
theorem atoms : Atoms (lossyMachine link reported) Settled where
  session o ho := keeps_settled (uses_access (by
    cases o <;> trivial))
  registry o ho := keeps_settled (uses_access (by
    cases o <;> trivial))
  readMem addr size := keeps_restrained (uses_readMem addr size trivial)
  writeMem addr data := keeps_restrained (uses_writeMem addr data trivial)
  register regnum := keeps_restrained (uses_readRegister regnum trivial)
  registers := keeps_restrained (uses_readRegisters trivial)
  sprs := keeps_restrained (uses_readSprs _ _ fun _ => trivial)
  fprs := keeps_restrained (uses_readFprs _ _ fun _ => trivial)
  pausing := keeps_pauseLocked
  resuming := keeps_restrained (uses_resumeLocked trivial)
  stepping := keeps_restrained (uses_stepLocked trivial)
  awaiting timeout := keeps_restrained (uses_awaitLocked timeout)
  awaitingTarget timeout := keeps_restrained (uses_awaitTarget timeout)
  inserting addr := keeps_modifyLocked (keeps_restrained (uses_setBreak trivial))
  insertingWatch addr size on := by
    refine keeps_modifyLocked (Program.keeps_bind (Program.keeps_ofExcept _) fun kind => ?_)
    exact Program.keeps_bind (keeps_restrained (uses_setBreak trivial)) fun _ =>
      Program.keeps_done kind
  deleting spec := keeps_modifyLocked (keeps_restrained (uses_deletePoint spec fun _ _ _ => trivial))

end Programs

section Connecting

variable {τ N L α : Type} {link : Link τ N L} {w v : World τ L} {reported : Bool}

variable {others : World τ L → World τ L → Prop}

/-- A connected state is assigned to an open connection only. -/
theorem keeps_setState (hI : Stable others Settled) (state : SessionState) :
    (access (.setState state) : Code τ Unit).Keeps (sharing (lossyMachine link reported) others)
      (Free Settled) :=
  (atomic_access hI ⟨rfl, rfl⟩).keeps (keeps_settled (uses_access trivial))

/-- Connecting next to other threads. -/
theorem keeps_handshake (hI : Stable others Settled) :
    handshake.Keeps (sharing (lossyMachine link reported) others) (Free Settled) := by
  have hconnect : IsCommand (threads τ) (connect : Code τ Unit) :=
    ⟨⟨rfl, rfl⟩, fun r => Program.uses_ofExcept (S := signature τ) _ r⟩
  refine Program.keeps_bind ((atomic_command hI hconnect).keeps
    (keeps_restrained (uses_connect trivial))) fun _ => ?_
  exact Program.keeps_bind ((atomic_command hI (isCommand_cmd .whyHalted)).keeps
    (keeps_restrained (uses_cmd trivial))) fun _ => keeps_setState hI .connectedPaused

/-- Reporting a failure disconnects the session. -/
theorem keeps_reportUnreachable (hI : Stable others Settled) (e : PyError) :
    (reportUnreachable e : Code τ Unit).Keeps (sharing (lossyMachine link reported) others)
      (Free Settled) := by
  unfold reportUnreachable
  split_ifs
  · exact Program.keeps_bind (keeps_setState hI .disconnected) fun _ => Program.keeps_raise _
  · exact Program.keeps_raise _

/-- Resuming on connect keeps it connected. -/
theorem keeps_resumeOnConnect (hI : Stable others Settled) :
    (resumeOnConnect : Code τ Unit).Keeps (sharing (lossyMachine link reported) others)
      (Free Settled) := by
  refine Program.keeps_bind ((atomic_access hI ⟨rfl, rfl⟩).keeps
    (keeps_restrained (uses_access trivial))) fun enabled => ?_
  split_ifs
  · refine Program.keeps_handle ?_ fun _ => Program.keeps_done ()
    exact Program.keeps_bind (keeps_locked rfl hI (uses_continueAsync trivial)
      (keeps_restrained (uses_continueAsync trivial))) fun _ => keeps_setState hI .connectedRunning
  · exact Program.keeps_done ()

/-- So does connecting. -/
theorem keeps_ensureConnected (hI : Stable others Settled) :
    (ensureConnected : Code τ Unit).Keeps (sharing (lossyMachine link reported) others)
      (Free Settled) := by
  refine Program.keeps_bind ((atomic_access hI ⟨rfl, rfl⟩).keeps
    (keeps_restrained (uses_access trivial))) fun state => ?_
  split_ifs
  · exact Program.keeps_done ()
  · refine Program.keeps_bind (Program.keeps_handle (keeps_handshake hI)
      (keeps_reportUnreachable hI)) fun _ => ?_
    exact Program.keeps_bind ((atomic_access hI ⟨rfl, rfl⟩).keeps
      (keeps_restrained (uses_access trivial))) fun _ => keeps_resumeOnConnect hI

/-- The pieces of the tools next to other threads. -/
theorem pieces (hI : Stable others Settled) : ModifyPieces fun _ (p : Code τ _) =>
    p.Keeps (sharing (lossyMachine link reported) others) (Free Settled) :=
  atoms.pieces rfl hI (keeps_ensureConnected hI)

/-- So does starting to capture. -/
theorem keeps_captureOnHit (hI : Stable others Settled) (bpId : ℕ) (captures : Option (List String))
    (autoResume : Bool) : (captureOnHit bpId captures autoResume : Code τ Unit).Keeps
      (sharing (lossyMachine link reported) others) (Free Settled) := by
  refine (pieces hI).captureOnHit ?_ bpId captures autoResume
  refine Program.keeps_bind ((atomic_command hI (isCommand_sendPacket _)).keeps
    (keeps_restrained (uses_continueAsync trivial))) fun _ => ?_
  exact (atomic_access hI ⟨rfl, rfl⟩).keeps (keeps_restrained (uses_access trivial))

/-- A probe that may not lose the connection changes nothing. -/
theorem keeps_probeResponsive :
    (probeResponsive probeTimeout : Code τ Bool).Keeps (lossyMachine link false) Settled := by
  have hkeeps : (probeResponsive probeTimeout : Code τ Bool).Uses keepsState :=
    uses_probe (fun o ho => by cases o <;> trivial) (fun _ => trivial) _
  intro w hw
  refine Program.wp_mono ?_ (Program.wp_and (wp_probeResponsive hw) (keeps_linked hkeeps w hw.linked))
  exact fun _ _ h => ⟨h.2, h.1.1⟩

/-- The health check changes nothing, whatever its probe meets. -/
theorem keeps_health (hI : Stable others Settled) :
    (health : Code τ Unit).Keeps (sharing (lossyMachine link false) others) (Free Settled) := by
  refine (pieces hI).health ?_ (keeps_locked rfl hI (uses_probeResponsive trivial _) keeps_probeResponsive)
  exact (atomic_access hI ⟨rfl, rfl⟩).keeps (keeps_restrained (uses_access trivial))

end Connecting

section Background

variable {τ N L : Type} {link : Link τ N L} {host : Host}

/-- A turn of a watcher keeps the session settled. -/
theorem keeps_watcherIteration (thread : ℕ) :
    (watcherIteration host thread : Code τ Unit).Keeps (lossyMachine link false) Settled :=
  keeps_settled (uses_watcherIteration host thread (fun _ h => steady_of_restrained h)
    (fun _ _ _ => trivial) fun _ => trivial)

/-- A tick of the worker keeps it settled too. -/
theorem keeps_autoConnectTick :
    (autoConnectTick : Code τ Unit).Keeps (lossyMachine link false) Settled := by
  refine Program.keeps_bind (keeps_restrained (uses_access trivial)) fun state => ?_
  split_ifs
  · refine Program.keeps_handle ?_ fun _ => Program.keeps_done ()
    have hnobody : Stable (fun _ _ : World τ L => False) Settled := fun _ _ _ h => h.elim
    exact keeps_of_shared (keeps_ensureConnected hnobody)
  · exact Program.keeps_done ()

/-- So do the background threads. -/
theorem stable_behind : Stable (behind link host) Settled :=
  stable_background keeps_watcherIteration keeps_autoConnectTick

end Background

section Main

variable {τ N L : Type} {link : Link τ N L} {host : Host}

/-- One call next to the background threads. -/
theorem keeps_action (action : Action) : (action.code host : Code τ Unit).Keeps
    (sharing (lossyMachine link (reportsProbe action)) (behind link host)) (Free Settled) := by
  refine action_of_pieces (pieces stable_behind) (keeps_captureOnHit stable_behind) host action ?_
  rintro rfl
  exact keeps_health stable_behind

/-- So does every run of the tools. -/
theorem settled_of_runs {actions : List Action} {w v : World τ L} (hw : Settled w)
    (h : LossyRuns link host actions w v) : Settled v :=
  h.keeps stable_behind keeps_action hw

/-- A session that does not take itself to be connected connects. -/
theorem reconnects_of_unconnected {w : World τ L} (h : w.state.isConnected = false) :
    Reconnects w := by
  refine ⟨_, rfl, ?_⟩
  change ∃ rest, (if w.state.isConnected = true then _ else _ : Code τ Unit) = .perform .connect rest
  rw [if_neg (by rw [h]; exact Bool.false_ne_true)]
  exact ⟨_, rfl⟩

/-- In every state between the calls of a run, a connected session has an open
connection, and without one the next `ensure_connected` connects. -/
theorem connected_is_open (link : Link τ N L) (host : Host) (actions : List Action) (w v : World τ L)
    (hw : Settled w) (h : LossyRuns link host actions w v) :
    Linked v ∧ (v.sockOpen = false → Reconnects v) := by
  have hlinked : Linked v := (settled_of_runs hw h).linked
  refine ⟨hlinked, fun hclosed => reconnects_of_unconnected ?_⟩
  cases hstate : v.state.isConnected with
  | false => rfl
  | true => exact absurd ((hlinked hstate).symm.trans hclosed) (by decide)

/-- Connecting: the target is halted, and resumes. -/
def connects : List (Choice Origin TokenNet) :=
  [{net := default},
    {net := default, response := [.ack (.reply 0), .frame stopBody (.reply 0)]},
    {net := default}, {net := default}, {net := default},
    {net := default, response := [.ack (.reply 1)]}, {net := default}]

/-- The next send fails. -/
def sendsNothing : List (Choice Origin TokenNet) := [{net := default, sendFails := true}]

/-- The world after connecting. -/
def connectedWorld : TokenWorld :=
  ((Action.code plainHost .ensureConnected).run (lossyMachine (tokenLink Origin) true) connects
    unconnectedWorld).2.1

/-- The connection is lost in the probe of a pause, and the session notices. -/
theorem connected_is_open_probe : ∃ v, LossyRuns (tokenLink Origin) plainHost [.ensureConnected, .pause]
    unconnectedWorld v ∧ v.sockOpen = false ∧ Linked v ∧ (v.sockOpen = false → Reconnects v) := by
  have hstart : Settled unconnectedWorld := ⟨fun h => by simp [unconnectedWorld, SessionState.isConnected] at h,
    fun h => by simp [unconnectedWorld] at h⟩
  have hconnects : (Action.code plainHost .ensureConnected).Follows
      (lossyMachine (tokenLink Origin) true) connects unconnectedWorld := by decide +kernel
  have hlost : (Action.code plainHost .pause).Follows (lossyMachine (tokenLink Origin) true)
      sendsNothing connectedWorld := by decide +kernel
  have hruns : LossyRuns (tokenLink Origin) plainHost [.ensureConnected, .pause] unconnectedWorld _ :=
    runs_cons rfl Relation.ReflTransGen.refl hconnects
      (runs_cons rfl Relation.ReflTransGen.refl hlost Relation.ReflTransGen.refl)
  exact ⟨_, hruns, by decide +kernel, connected_is_open _ _ _ _ _ hstart hruns⟩

/-- A memory read that loses the connection leaves a connected session without
one, and the next `ensure_connected` returns at once. -/
theorem lost_connection_goes_unnoticed :
    ∃ (script : List (Choice Origin TokenNet)) (w : TokenWorld), Settled w ∧
      ¬Linked ((readMemory 0x80003100 4).run (machine (tokenLink Origin)) script w).2.1 ∧
      (ensureConnected.run (machine (tokenLink Origin)) []
        ((readMemory 0x80003100 4).run (machine (tokenLink Origin)) script w).2.1).1 = .ok () ∧
      (ensureConnected.run (machine (tokenLink Origin)) []
        ((readMemory 0x80003100 4).run (machine (tokenLink Origin)) script w).2.1).2.1.sockOpen =
          false := by
  refine ⟨sendsNothing, pausedWorld, ⟨fun _ => rfl, fun _ => by decide⟩, ?_, ?_, ?_⟩
  · intro hlinked
    exact absurd (hlinked (by decide +kernel)) (by decide +kernel)
  · decide +kernel
  · decide +kernel

end Main

end DolphinRe.ConnectionState
