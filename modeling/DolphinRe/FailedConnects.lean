import DolphinRe.ConnectionCycles
import DolphinRe.ModifyContext

/-!
# What a failed connect leaves behind

A connect that fails while it waits for its answer marks the session
disconnected and keeps the socket, so the next attempt finds the late answer
of this one. Nothing is left exactly when every wait that fails takes the
connection with it.
-/

namespace DolphinRe.FailedConnects

open GdbPackets GdbWire GdbTokens EffectProgram SessionMachine GdbClient SessionTools
  LinkRefinement StubBehaviour Footprints ModifyContext PacketProvenance ConnectionCycles

section Statement

variable {τ N L : Type}

/-- The failure a record is of. -/
def faultOf : Obs τ → Option PyError
  | .ackFault e => some e
  | .readFault e => some e
  | _ => none

/-- Waiting for an acknowledgement or for a packet failed between two worlds. -/
def Faults (before after : World τ L) (e : PyError) : Prop :=
  ∃ events, after.trace = before.trace ++ events ∧ ∃ event ∈ events, faultOf event = some e

/-- A command was sent between two worlds over a connection that is open, and
no packet was read since. -/
def Outstanding (before after : World τ L) : Prop :=
  after.sockOpen = true ∧ ∃ events command obeyed, after.trace = before.trace ++ events ∧
    .sent (.packet command) obeyed ∈ events ∧ ∀ packet, .got packet ∉ events

/-- The session is disconnected, has no socket, and waits for no answer. -/
structure LeavesNothing (before after : World τ L) : Prop where
  /-- The session is disconnected. -/
  state : after.state = .disconnected
  /-- There is no socket. -/
  sock : after.sockOpen = false
  /-- No command of the attempt waits for its reply. -/
  outstanding : ¬Outstanding before after

/-- Every wait that failed between two worlds lost the connection. -/
def LosesConnection (before after : World τ L) : Prop :=
  ∀ e, Faults before after e → isConnectionLost e = true

end Statement

section Attempt

variable {τ N L : Type} {link : Link τ N L} {w v : World τ L} {e : PyError}

/-- How the handshake fails: without a socket and with an error that is
reported, or with the socket open and its only fault that error. -/
def Broken (before : World τ L) (e : PyError) (after : World τ L) : Prop :=
  (after.sockOpen = false ∧ (e.isOSError || isConnectionLost e) = true ∧
      LosesConnection before after) ∨
    (after.sockOpen = true ∧ Faults before after e ∧ isConnectionLost e = false)

/-- Events without a failure. -/
theorem losesConnection_of_faultless {events : List (Obs τ)} (htrace : v.trace = w.trace ++ events)
    (hfree : ∀ event ∈ events, faultOf event = none) : LosesConnection w v := by
  rintro e ⟨events', htrace', event, hmem, hfault⟩
  have hsame : events' = events := List.append_cancel_left (htrace'.symm.trans htrace)
  rw [hfree event (hsame ▸ hmem)] at hfault
  simp at hfault

/-- A failed wait is the last event. -/
theorem Broken.of_fault {events : List (Obs τ)} {event : Obs τ}
    (htrace : v.trace = w.trace ++ (events ++ [event]))
    (hfree : ∀ event ∈ events, faultOf event = none) (hfault : faultOf event = some e)
    (hsock : v.sockOpen = !isConnectionLost e) : Broken w e v := by
  cases hlost : isConnectionLost e with
  | true =>
    refine Or.inl ⟨by rw [hsock, hlost]; rfl, by rw [hlost, Bool.or_true], ?_⟩
    rintro e' ⟨events', htrace', event', hmem, hfault'⟩
    have hsame : events' = events ++ [event] :=
      List.append_cancel_left (htrace'.symm.trans htrace)
    rw [hsame] at hmem
    rcases List.mem_append.mp hmem with hmem | hmem
    · rw [hfree event' hmem] at hfault'
      simp at hfault'
    · rw [List.mem_singleton.mp hmem, hfault, Option.some.injEq] at hfault'
      exact hfault' ▸ hlost
  | false =>
    refine Or.inr ⟨by rw [hsock, hlost]; rfl, ?_, hlost⟩
    exact ⟨events ++ [event], htrace, event, by simp, hfault⟩

/-- An acknowledgement read over an open connection is recorded; only a lost connection closes it. -/
theorem wp_consumeAck_recorded (hopen : w.sockOpen = true) :
    (consumeAck : Code τ Unit).wp (machine link) (fun r v =>
      (∀ e, r = .error e → v.trace = w.trace ++ [.ackFault e] ∧ v.sockOpen = !isConnectionLost e) ∧
      (r = .ok () → v.sockOpen = true ∧ ∃ tag, v.trace = w.trace ++ [.acked tag])) w := by
  rw [wp_consumeAck]
  intro c _
  have hsock : (w.absorb link c.acts).sockOpen = true :=
    (World.absorb_sockOpen link c.acts w).trans hopen
  have htrace : (w.absorb link c.acts).trace = w.trace := World.absorb_trace link c.acts w
  change (∀ e, (World.consumeAck link c (w.absorb link c.acts)).1 = .error e →
    (World.consumeAck link c (w.absorb link c.acts)).2.trace = _ ∧
      (World.consumeAck link c (w.absorb link c.acts)).2.sockOpen = _) ∧
    ((World.consumeAck link c (w.absorb link c.acts)).1 = .ok () →
      (World.consumeAck link c (w.absorb link c.acts)).2.sockOpen = true ∧
        ∃ tag, (World.consumeAck link c (w.absorb link c.acts)).2.trace = _)
  rw [World.consumeAck_open hsock]
  dsimp only
  rw [htrace]
  cases (link.consumeAck c.net (w.absorb link c.acts).link).1 with
  | ok tag => exact ⟨fun e he => by simp [Except.map] at he, fun _ => ⟨rfl, tag, rfl⟩⟩
  | error e =>
    refine ⟨fun e' he => ?_, fun hok => by simp [Except.map] at hok⟩
    have hsame : e = e' := Except.error.inj he
    rw [losesConnection_error, hsame]
    exact ⟨rfl, rfl⟩

/-- So is a packet read. -/
theorem wp_readPacket_recorded (timeout : Option ℕ) (hopen : w.sockOpen = true) :
    (readPacketFromWire timeout).wp (machine link) (fun r v => ∀ e, r = .error e →
      v.trace = w.trace ++ [.readFault e] ∧ v.sockOpen = !isConnectionLost e) w := by
  rw [wp_readPacketFromWire]
  intro c _ e he
  have hsock : (w.absorb link c.acts).sockOpen = true :=
    (World.absorb_sockOpen link c.acts w).trans hopen
  have htrace : (w.absorb link c.acts).trace = w.trace := World.absorb_trace link c.acts w
  change (World.readPacket link c (w.absorb link c.acts)).1 = .error e at he
  change (World.readPacket link c (w.absorb link c.acts)).2.trace = _ ∧
    (World.readPacket link c (w.absorb link c.acts)).2.sockOpen = _
  rw [World.readPacket_open hsock] at he ⊢
  dsimp only at he ⊢
  rw [he, htrace, losesConnection_error]
  exact ⟨rfl, rfl⟩

/-- Over an open connection, a message that cannot be sent closes it. -/
theorem wp_sendall_recorded (message : Sent) (hopen : w.sockOpen = true) :
    (sendall message : Code τ Unit).wp (machine link) (fun r v =>
      (∀ e, r = .error e → isConnectionLost e = true ∧ v.trace = w.trace ∧ v.sockOpen = false) ∧
      (r = .ok () → v.sockOpen = true ∧ ∃ obeyed, v.trace = w.trace ++ [.sent message obeyed])) w := by
  rw [wp_sendall]
  intro c _
  have hsock : (w.absorb link c.acts).sockOpen = true :=
    (World.absorb_sockOpen link c.acts w).trans hopen
  have htrace : (w.absorb link c.acts).trace = w.trace := World.absorb_trace link c.acts w
  change (∀ e, (World.send link message c (w.absorb link c.acts)).1 = .error e → _ ∧
    (World.send link message c (w.absorb link c.acts)).2.trace = _ ∧
      (World.send link message c (w.absorb link c.acts)).2.sockOpen = _) ∧
    ((World.send link message c (w.absorb link c.acts)).1 = .ok () →
      (World.send link message c (w.absorb link c.acts)).2.sockOpen = true ∧
        ∃ obeyed, (World.send link message c (w.absorb link c.acts)).2.trace = _)
  unfold World.send
  rw [if_pos hsock]
  split_ifs
  · refine ⟨fun e he => ⟨?_, htrace, rfl⟩, fun hok => by simp at hok⟩
    rw [← Except.error.inj he]
    cases message <;> rfl
  · refine ⟨fun e he => by simp at he, fun _ => ⟨hsock, c.obeyed, ?_⟩⟩
    change (w.absorb link c.acts).trace ++ _ = _
    rw [htrace]

/-- Over an open connection, a command fails with the connection lost or with a recorded fault. -/
theorem wp_cmd_broken (command : Command) (hopen : w.sockOpen = true) :
    (cmd command).wp (machine link) (fun r v => ∀ e, r = .error e → Broken w e v) w := by
  refine (Program.wp_bind _ _ _ _).mpr ((Program.wp_bind _ _ _ _).mpr ?_)
  refine Program.wp_mono (fun r u hu => ?_) (wp_sendall_recorded (.packet command) hopen)
  cases r with
  | error e =>
    intro e' he
    rw [Except.error.injEq] at he
    subst he
    obtain ⟨hlost, htrace, hsock⟩ := hu.1 e rfl
    have hsame : u.trace = w.trace ++ [] := by rw [htrace, List.append_nil]
    exact Or.inl ⟨hsock, by rw [hlost, Bool.or_true], losesConnection_of_faultless hsame (by simp)⟩
  | ok _ =>
    obtain ⟨hsock, obeyed, hsent⟩ := hu.2 rfl
    refine Program.wp_mono (fun s x hx => ?_) (wp_consumeAck_recorded hsock)
    cases s with
    | error e =>
      intro e' he
      rw [Except.error.injEq] at he
      subst he
      obtain ⟨htrace, hsock⟩ := hx.1 e rfl
      rw [hsent, List.append_assoc] at htrace
      exact Broken.of_fault htrace (by simp [faultOf]) rfl hsock
    | ok _ =>
      obtain ⟨hsock, tag, hacked⟩ := hx.2 rfl
      refine Program.wp_mono (fun t y hy e he => ?_) (wp_readPacket_recorded none hsock)
      obtain ⟨htrace, hsock⟩ := hy e he
      rw [hacked, hsent, List.append_assoc, List.append_assoc, ← List.append_assoc [_]] at htrace
      exact Broken.of_fault htrace (by simp [faultOf]) rfl hsock

/-- The handshake fails without a socket, or with a recorded fault. -/
theorem wp_handshake_broken : (handshake : Code τ Unit).wp (machine link)
    (fun r v => ∀ e, r = .error e → Broken w e v) w := by
  refine (Program.wp_bind _ _ _ _).mpr ?_
  rw [wp_connect]
  intro c _
  have htrace : (w.absorb link c.acts).trace = w.trace := World.absorb_trace link c.acts w
  change Program.onValue _ _ _ (World.connect link c (w.absorb link c.acts)).1
    (World.connect link c (w.absorb link c.acts)).2
  have hquery : ∀ u : World τ L, u.sockOpen = true → u.trace = w.trace →
      (whyHalted.bind fun _ => access (.setState .connectedPaused)).wp (machine link)
        (fun r v => ∀ e, r = .error e → Broken w e v) u := by
    intro u hopen hsame
    rw [Program.wp_bind]
    refine Program.wp_mono (fun r v hv => ?_) (wp_cmd_broken .whyHalted hopen)
    cases r with
    | ok packet => exact fun c _ e he => by simp at he
    | error e =>
      intro e' he
      have hbroken := hv e' (congrArg _ (Except.error.inj he))
      unfold Broken LosesConnection Faults at hbroken ⊢
      rwa [hsame] at hbroken
  unfold World.connect
  split_ifs with hopen hrefused
  · exact hquery _ hopen htrace
  · intro e he
    have hsame : (w.absorb link c.acts).trace = w.trace ++ [] := by rw [htrace, List.append_nil]
    rw [← Except.error.inj he]
    exact Or.inl ⟨Bool.eq_false_iff.mpr hopen, rfl, losesConnection_of_faultless hsame (by simp)⟩
  · exact hquery _ rfl htrace

/-- The report of a broken handshake raises, and leaves nothing behind exactly
when no fault left the socket open. -/
theorem wp_report_broken {before : World τ L} (h : Broken before e w) :
    (reportUnreachable e : Code τ Unit).wp (machine link) (fun r v =>
      r ≠ .ok () ∧ (LeavesNothing before v ↔ LosesConnection before v)) w := by
  rcases h with ⟨hsock, hreported, hlost⟩ | ⟨hsock, hfault, hkept⟩
  · unfold reportUnreachable
    rw [if_pos hreported]
    intro c _
    have hnone : LeavesNothing before {w with state := .disconnected} :=
      ⟨rfl, hsock, fun h => absurd (hsock.symm.trans h.1) Bool.false_ne_true⟩
    exact ⟨by simp, fun _ => hlost, fun _ => hnone⟩
  · have hneither : ∀ state, ¬LeavesNothing before {w with state := state} ∧
        ¬LosesConnection before {w with state := state} := by
      intro state
      refine ⟨fun h => ?_, fun h => ?_⟩
      · have hclosed : w.sockOpen = false := h.sock
        rw [hsock] at hclosed
        simp at hclosed
      · have hloses : isConnectionLost e = true := h e hfault
        rw [hkept] at hloses
        simp at hloses
    unfold reportUnreachable
    split_ifs
    · intro c _
      exact ⟨by simp, iff_of_false (hneither .disconnected).1 (hneither .disconnected).2⟩
    · exact ⟨by simp, iff_of_false (hneither w.state).1 (hneither w.state).2⟩

/-- The resume after a connect raises nothing. -/
theorem wp_resumeOnConnect_quiet (w : World τ L) : (resumeOnConnect : Code τ Unit).wp (machine link)
    (fun r _ => r = .ok ()) w := by
  intro c _
  change Program.wp _ (if w.autoResume = true then _ else pure ()) _ _
  split_ifs
  · refine (Program.wp_handle _ _ _ _).mpr (Program.wp_mono (fun r v _ => ?_) (Program.wp_true _ _))
    cases r <;> rfl
  · rfl

/-- A connect that raises leaves nothing behind exactly when every wait that
failed in it lost the connection. -/
theorem wp_ensureConnected_failed : (ensureConnected : Code τ Unit).wp (machine link) (fun r v =>
    ∀ e, r = .error e → (LeavesNothing w v ↔ LosesConnection w v)) w := by
  intro c _
  change Program.wp _ (if w.state.isConnected = true then pure () else _) _ w
  split_ifs
  · exact fun e he => by simp at he
  · refine (Program.wp_bind _ _ _ _).mpr ((Program.wp_handle _ _ _ _).mpr ?_)
    refine Program.wp_mono (fun r v hv => ?_) wp_handshake_broken
    cases r with
    | error e =>
      refine Program.wp_mono (fun s u hu => ?_) (wp_report_broken (hv e rfl))
      cases s with
      | error e' => exact fun _ _ => hu.2
      | ok _ => exact absurd rfl hu.1
    | ok _ =>
      intro c' _
      refine Program.wp_mono (fun s u hs e he => ?_) (wp_resumeOnConnect_quiet _)
      rw [hs] at he
      simp at he

end Attempt

section Retries

/-- A command is answered by its acknowledgement first, or not at all. -/
def answersInOrder (o : Op Origin) (response : Tokens) (n : ℕ) : Bool :=
  match o, response with
  | .send (.packet _), [] => true
  | .send (.packet _), .ack tag :: rest =>
    decide (tag = .reply n) && rest.all fun t => decide (t.tag = .reply n) || isStopFrame t
  | .send (.packet _), _ => false
  | .send .interrupt, tokens => tokens.all isStopFrame
  | _, _ => true

/-- Of its own accord the stub sends stop replies; a command it acknowledges
before it answers, if it does. Whatever is late is held back by the network. -/
def AnswersInOrder : Discipline Origin := fun o c w _ =>
  (∀ a ∈ c.acts, isStopFrame a.token = true) ∧ answersInOrder o c.response w.commands = true

instance (o : Op Origin) (c : Choice Origin Unit) (w : World Origin Unit) (answer : o.Answer) :
    Decidable (AnswersInOrder o c w answer) :=
  inferInstanceAs (Decidable (_ ∧ _))

/-- The machine of the retries. -/
abbrev retrying : Machine (signature Origin) (Choice Origin Net) (World Origin (Buffers Origin)) :=
  disciplined (byteLink Origin) AnswersInOrder

/-- Any number of ticks of the auto-connect worker that leave the session
unconnected and meet a condition. -/
inductive FailedAttempts (meets : World Origin (Buffers Origin) → World Origin (Buffers Origin) → Prop) :
    World Origin (Buffers Origin) → World Origin (Buffers Origin) → Prop
  | none (w : World Origin (Buffers Origin)) : FailedAttempts meets w w
  | more {w u v : World Origin (Buffers Origin)} : w.state = .disconnected →
    autoConnectTick.Reaches retrying w (.ok ()) u → u.state.isConnected = false → meets w u →
    FailedAttempts meets u v → FailedAttempts meets w v

/-- Any sequence of client operations and connects, with what they return. -/
inductive Reads : World Origin (Buffers Origin) → List (Except PyError (List (Packet Origin))) →
    World Origin (Buffers Origin) → Prop
  | nil (w : World Origin (Buffers Origin)) : Reads w [] w
  | connect {w u v : World Origin (Buffers Origin)} {r : Except PyError Unit}
    {outcomes : List (Except PyError (List (Packet Origin)))} :
    connect.Reaches retrying w r u → Reads u outcomes v → Reads w outcomes v
  | call {w u v : World Origin (Buffers Origin)} {r : Except PyError (List (Packet Origin))}
    {outcomes : List (Except PyError (List (Packet Origin)))} (call : StubCall) :
    call.code.Reaches retrying w r u → Reads u outcomes v → Reads w (r :: outcomes) v

/-- Replies to the commands numbered from `n` up to `m`. -/
def AskedBetween (n m : ℕ) (tag : Origin) : Prop := ∃ k, tag = .reply k ∧ n ≤ k ∧ k < m

/-- Tags of stops, and of replies to commands sent before the `n`-th. -/
def Before (n : ℕ) (tag : Origin) : Prop := ∀ k, tag = .reply k → k < n

/-- Nothing unread or stashed is tagged as the reply to a command that was not sent yet. -/
def Labelled (w : World Origin (Buffers Origin)) : Prop :=
  Held (Before w.commands) (ownedBytes (Before w.commands)) w

/-- A stop replies to no command. -/
theorem not_reply_of_stop {t : Token Origin} (h : isStopFrame t = true) (k : ℕ) :
    t.tag ≠ .reply k := by
  cases t with
  | ack tag => simp [isStopFrame] at h
  | stray byte tag => simp [isStopFrame] at h
  | frame body tag =>
    cases tag with
    | reply n => simp [isStopFrame] at h
    | stop n cause => exact fun hfalse => Origin.noConfusion hfalse

/-- So it is none of the later replies. -/
theorem before_of_stop {t : Token Origin} (h : isStopFrame t = true) (n : ℕ) : Before n t.tag :=
  fun k hk => absurd hk (not_reply_of_stop h k)

/-- An answer carries stops and the number of its command. -/
theorem tag_of_answer {message : Sent} {response : Tokens} {n : ℕ}
    (h : answersInOrder (.send message) response n = true) {t : Token Origin} (ht : t ∈ response)
    {k : ℕ} (hk : t.tag = .reply k) : k = n := by
  cases message with
  | interrupt =>
    have hall : response.all isStopFrame = true := h
    exact absurd hk (not_reply_of_stop (List.all_eq_true.mp hall t ht) k)
  | packet command =>
    cases response with
    | nil => simp at ht
    | cons first rest =>
      cases first with
      | frame body tag => simp [answersInOrder] at h
      | stray byte tag => simp [answersInOrder] at h
      | ack tag =>
        simp only [answersInOrder, Bool.and_eq_true, decide_eq_true_eq, List.all_eq_true,
          Bool.or_eq_true] at h
        obtain ⟨htag, hrest⟩ := h
        rcases List.mem_cons.mp ht with rfl | ht
        · rw [show (Token.ack tag).tag = tag from rfl, htag] at hk
          exact (Origin.reply.inj hk).symm
        · rcases hrest t ht with hreply | hstop
          · exact (Origin.reply.inj (hreply.symm.trans hk)).symm
          · exact absurd hk (not_reply_of_stop hstop k)

/-- Before its acknowledgement, an answer carries stops only. -/
theorem beforeAck_of_answer {message : Sent} {response : Tokens} {n m : ℕ}
    (h : answersInOrder (.send message) response m = true) :
    ∀ t ∈ beforeAck response, Before n t.tag := by
  intro t ht
  cases message with
  | interrupt =>
    have hall : response.all isStopFrame = true := h
    exact before_of_stop (List.all_eq_true.mp hall t (List.takeWhile_subset _ ht)) n
  | packet command =>
    cases response with
    | nil => simp [beforeAck] at ht
    | cons first rest =>
      cases first with
      | frame body tag => simp [answersInOrder] at h
      | stray byte tag => simp [answersInOrder] at h
      | ack tag => simp [beforeAck, isAck] at ht

end Retries

section Attempts

variable {n m : ℕ} {w v : World Origin (Buffers Origin)}

/-- Commands are counted upwards. -/
theorem commands_le {τ N L : Type} (link : Link τ N L) (o : Op τ) (c : Choice τ N) (w : World τ L) :
    w.commands ≤ (World.step link o c w).2.commands := by
  have habsorbed : (w.absorb link c.acts).commands = w.commands := World.absorb_commands link c.acts w
  cases o
  case send message =>
    change w.commands ≤ (World.send link message c (w.absorb link c.acts)).2.commands
    unfold World.send
    split_ifs
    · exact habsorbed.ge
    · change w.commands ≤ (w.absorb link c.acts).commands + World.packets message
      omega
    · exact habsorbed.ge
  case consumeAck =>
    change w.commands ≤ (World.consumeAck link c (w.absorb link c.acts)).2.commands
    unfold World.consumeAck
    split_ifs <;> exact habsorbed.ge
  case readPacketFromWire timeout =>
    change w.commands ≤ (World.readPacket link c (w.absorb link c.acts)).2.commands
    unfold World.readPacket
    split_ifs <;> exact habsorbed.ge
  case connect =>
    change w.commands ≤ (World.connect link c (w.absorb link c.acts)).2.commands
    unfold World.connect
    split_ifs <;> exact habsorbed.ge
  case close =>
    change w.commands ≤ (if w.sockOpen then w.closed link else w).commands
    split_ifs <;> exact le_rfl
  case markRunning =>
    change w.commands ≤ (if w.state = .connectedPaused then _ else w).commands
    split_ifs <;> exact le_rfl
  case markPaused =>
    change w.commands ≤ (if w.state = .connectedRunning then _ else w).commands
    split_ifs <;> exact le_rfl
  all_goals first | exact le_rfl | exact habsorbed.ge

/-- The stash holds no reply to a command from the `n`-th on. -/
structure StashedBefore (n : ℕ) (w : World Origin (Buffers Origin)) : Prop where
  /-- Stashed packets are stops or replies to earlier commands. -/
  stashed : ∀ packet ∈ w.pendingReplies, Before n packet.tag
  /-- So many commands have been sent. -/
  count : n ≤ w.commands

/-- Neither does what an acknowledgement read would add to it. -/
def readyBytes (n : ℕ) (b : Buffers Origin) : Prop :=
  ∃ tokens, Renders b tokens ∧ ∀ t ∈ beforeAck tokens, Before n t.tag

/-- On the byte level, what stands before an acknowledgement is stashed with its origin. -/
theorem byteLink_ready (n : ℕ) : Stashes (byteLink Origin)
    (fun tokens => ∀ t ∈ beforeAck tokens, Before n t.tag) (Before n) (readyBytes n) :=
  (tokenLink_stashes (Before n)).refined byteLink_refines

/-- Before the acknowledgement of an attempt. -/
structure Unacknowledged (n : ℕ) (w : World Origin (Buffers Origin)) : Prop extends
    StashedBefore n w where
  /-- Neither is what an open connection still holds in front of the acknowledgement. -/
  unread : w.sockOpen = true → readyBytes n w.link

/-- Stops may arrive before the acknowledgement. -/
theorem Unacknowledged.absorb (h : Unacknowledged n w) {acts : List (StubAct Origin)}
    (hacts : ∀ a ∈ acts, isStopFrame a.token = true) :
    Unacknowledged n (w.absorb (byteLink Origin) acts) := by
  induction acts generalizing w with
  | nil => exact h
  | cons a acts ih =>
    have hone : Unacknowledged n (World.act (byteLink Origin) w a) := by
      have hbefore : ∀ t ∈ beforeAck [a.token], Before n t.tag := fun t ht => by
        have hmem : t = a.token := List.mem_singleton.mp (List.takeWhile_subset _ ht)
        exact hmem ▸ before_of_stop (hacts a List.mem_cons_self) n
      refine ⟨⟨?_, ?_⟩, fun hopen => ?_⟩
      · exact fun packet hp => h.stashed packet (by simpa [World.act] using hp)
      · simpa [World.act] using h.count
      · have hsock : w.sockOpen = true := by simpa [World.act] using hopen
        change readyBytes n (w.emit (byteLink Origin) [a.token]).link
        rw [World.emit, if_pos hsock]
        exact (byteLink_ready n).emit [a.token] w.link hbefore (h.unread hsock)
    exact ih hone fun a' ha' => hacts a' (List.mem_cons_of_mem _ ha')

/-- The stash is left alone by everything but an acknowledgement read. -/
theorem StashedBefore.same (h : StashedBefore n w) (hstash : v.pendingReplies = w.pendingReplies)
    (hcommands : w.commands ≤ v.commands) : StashedBefore n v :=
  ⟨fun packet hp => h.stashed packet (hstash ▸ hp), h.count.trans hcommands⟩

/-- A new connection holds nothing before it. -/
theorem wp_connect_unacknowledged (hw : Unacknowledged n w) :
    (connect : Code Origin Unit).wp retrying (fun _ v => Unacknowledged n v) w := by
  rw [wp_connect]
  rintro c ⟨-, hacts, -⟩
  have habsorbed := hw.absorb hacts
  change Unacknowledged n (World.connect (byteLink Origin) c (w.absorb _ c.acts)).2
  unfold World.connect
  split_ifs
  · exact habsorbed
  · exact habsorbed
  · exact ⟨⟨habsorbed.stashed, habsorbed.count⟩, fun _ => (byteLink_ready n).fresh⟩

/-- The command may be sent. -/
theorem wp_sendall_unacknowledged (message : Sent) (hw : Unacknowledged n w) :
    (sendall message : Code Origin Unit).wp retrying (fun _ v => Unacknowledged n v) w := by
  rw [wp_sendall]
  rintro c ⟨-, hacts, hanswer⟩
  have habsorbed := hw.absorb hacts
  change Unacknowledged n (World.send (byteLink Origin) message c (w.absorb _ c.acts)).2
  unfold World.send
  split_ifs with hopen
  · exact ⟨⟨habsorbed.stashed, habsorbed.count⟩, fun hfalse => absurd hfalse Bool.false_ne_true⟩
  · refine ⟨⟨habsorbed.stashed, ?_⟩, fun _ => ?_⟩
    · exact habsorbed.count.trans (Nat.le_add_right _ _)
    · exact (byteLink_ready n).emit c.response _ (beforeAck_of_answer hanswer)
        (habsorbed.unread hopen)
  · exact habsorbed

/-- What waiting for it stashes is no reply to the command. -/
theorem wp_consumeAck_stashed (hw : Unacknowledged n w) :
    (consumeAck : Code Origin Unit).wp retrying (fun _ v => StashedBefore n v) w := by
  rw [wp_consumeAck]
  rintro c ⟨-, hacts, -⟩
  have habsorbed := hw.absorb hacts
  change StashedBefore n (World.consumeAck (byteLink Origin) c (w.absorb _ c.acts)).2
  cases hopen : (w.absorb (byteLink Origin) c.acts).sockOpen with
  | false =>
    rw [World.consumeAck_closed hopen]
    exact habsorbed.toStashedBefore
  | true =>
    rw [World.consumeAck_open hopen]
    refine ⟨fun packet hpacket => ?_, habsorbed.count⟩
    rcases List.mem_append.mp hpacket with hpacket | hpacket
    · exact habsorbed.stashed packet hpacket
    · exact (byteLink_ready n).stash c.net _ (habsorbed.unread hopen) packet hpacket

/-- Reading a packet stashes nothing. -/
theorem keeps_readPacket_stashed (timeout : Option ℕ) :
    (readPacketFromWire timeout).Keeps retrying (StashedBefore n) := by
  intro w hw
  rw [wp_readPacketFromWire]
  intro c _
  refine hw.same ?_ (commands_le (byteLink Origin) (.readPacketFromWire timeout) c w)
  change (World.readPacket (byteLink Origin) c (w.absorb _ c.acts)).2.pendingReplies = _
  unfold World.readPacket
  split_ifs <;> exact World.absorb_pendingReplies _ c.acts w

/-- A handshake stashes nothing that it asked for. -/
theorem wp_handshake_stashed (hw : Unacknowledged n w) :
    (handshake : Code Origin Unit).wp retrying (fun _ v => StashedBefore n v) w := by
  refine (Program.wp_bind _ _ _ _).mpr (Program.wp_mono (fun r u hu => ?_)
    (wp_connect_unacknowledged hw))
  cases r with
  | error e => exact hu.toStashedBefore
  | ok _ =>
    have hsent : (sendPacket .whyHalted : Code Origin Unit).wp retrying
        (fun _ v => StashedBefore n v) u := by
      refine (Program.wp_bind _ _ _ _).mpr (Program.wp_mono (fun s x hx => ?_)
        (wp_sendall_unacknowledged _ hu))
      cases s with
      | error e => exact hx.toStashedBefore
      | ok _ => exact wp_consumeAck_stashed hx
    have hread : (cmd .whyHalted : Code Origin (Packet Origin)).wp retrying
        (fun _ v => StashedBefore n v) u := by
      refine (Program.wp_bind _ _ _ _).mpr (Program.wp_mono (fun s x hx => ?_) hsent)
      cases s with
      | error e => exact hx
      | ok _ => exact keeps_readPacket_stashed none x hx
    refine (Program.wp_bind _ _ _ _).mpr (Program.wp_mono (fun s x hx => ?_) hread)
    cases s with
    | error e => exact hx
    | ok packet => exact fun c _ => ⟨hx.stashed, hx.count⟩

/-- Nor does a connect that raises. -/
theorem wp_ensureConnected_stashed (hw : Unacknowledged n w) :
    (ensureConnected : Code Origin Unit).wp retrying
      (fun r v => ∀ e, r = .error e → StashedBefore n v) w := by
  intro c _
  change Program.wp _ (if w.state.isConnected = true then pure () else _) _ w
  split_ifs
  · exact fun e he => by simp at he
  · refine (Program.wp_bind _ _ _ _).mpr ((Program.wp_handle _ _ _ _).mpr ?_)
    refine Program.wp_mono (fun r u hu => ?_) (wp_handshake_stashed hw)
    cases r with
    | ok _ =>
      intro c' _
      refine Program.wp_restrict (Program.wp_mono (fun s x hs e he => ?_) (wp_resumeOnConnect_quiet _))
      rw [hs] at he
      simp at he
    | error e =>
      change Program.wp _ (reportUnreachable e) _ u
      unfold reportUnreachable
      split_ifs
      · exact fun c _ e' _ => ⟨hu.stashed, hu.count⟩
      · exact fun e' _ => hu

/-- Between attempts, nothing held is a reply to a command from the `n`-th on. -/
structure BetweenAttempts (n : ℕ) (w : World Origin (Buffers Origin)) : Prop extends
    StashedBefore n w where
  /-- Nor is anything unread on an open connection. -/
  unread : w.sockOpen = true → ownedBytes (Before n) w.link

/-- An attempt starts without an acknowledgement. -/
theorem BetweenAttempts.unacknowledged (h : BetweenAttempts n w) : Unacknowledged n w where
  toStashedBefore := h.toStashedBefore
  unread hopen := by
    obtain ⟨tokens, hrenders, howned⟩ := h.unread hopen
    exact ⟨tokens, hrenders, fun t ht => howned t (List.takeWhile_subset _ ht)⟩

/-- The resume after a connect leaves a paused session connected. -/
theorem wp_resumeOnConnect_connected {τ N L : Type} {link : Link τ N L} {w : World τ L}
    (hpaused : w.state = .connectedPaused) : (resumeOnConnect : Code τ Unit).wp (machine link)
      (fun _ v => v.state.isConnected = true) w := by
  intro c _
  change Program.wp _ (if w.autoResume = true then _ else pure ()) _ w
  split_ifs
  · have hsparing : (locked continueAsync : Code τ Unit).Uses (sparing fun _ => false) :=
      uses_locked trivial trivial
        (Program.uses_bind (uses_sendall rfl) fun _ => uses_consumeAck trivial)
    have hkeeps : (locked continueAsync : Code τ Unit).Keeps (machine link)
        (Steady (fun _ => false) .connectedPaused (sentSoFar (fun _ => false) w)) :=
      keeps_steady hsparing
    refine (Program.wp_handle _ _ _ _).mpr ((Program.wp_bind _ _ _ _).mpr ?_)
    refine Program.wp_mono (fun r v hv => ?_) (hkeeps w ⟨hpaused, rfl⟩)
    cases r with
    | ok _ => exact fun c _ => rfl
    | error e =>
      change v.state.isConnected = true
      rw [hv.1]
      rfl
  · change w.state.isConnected = true
    rw [hpaused]
    rfl

/-- A connect that returns leaves a connected session. -/
theorem wp_ensureConnected_connects {τ N L : Type} {link : Link τ N L} (w : World τ L) :
    (ensureConnected : Code τ Unit).wp (machine link)
      (fun r v => r = .ok () → v.state.isConnected = true) w := by
  intro c _
  change Program.wp _ (if w.state.isConnected = true then pure () else _) _ w
  split_ifs with hconnected
  · exact fun _ => hconnected
  have hasked : ∀ v : World τ L,
      (whyHalted.bind fun _ => access (.setState .connectedPaused)).wp (machine link)
        (fun r v => r = .ok () → v.state = .connectedPaused) v := by
    intro v
    refine Program.wp_bind_last (fun e v he => by simp at he) (fun packet v => ?_) v
    exact fun c _ _ => rfl
  have hhandshake : (handshake : Code τ Unit).wp (machine link)
      (fun r v => r = .ok () → v.state = .connectedPaused) w :=
    Program.wp_bind_last (fun e v he => by simp at he) (fun _ => hasked) w
  refine (Program.wp_bind _ _ _ _).mpr ((Program.wp_handle _ _ _ _).mpr ?_)
  refine Program.wp_mono (fun r u hu => ?_) hhandshake
  cases r with
  | ok _ =>
    intro c' _
    have hattached : (World.step link .tryAttach c' u).2.state = .connectedPaused :=
      (World.absorb_state link c'.acts u).trans (hu rfl)
    refine Program.wp_mono (fun r v hv => ?_) (wp_resumeOnConnect_connected hattached)
    exact fun _ => hv
  | error e =>
    change Program.wp _ (reportUnreachable e) _ u
    unfold reportUnreachable
    split_ifs
    · exact fun c _ he => by simp at he
    · exact fun he => by simp at he

/-- A tick of a disconnected session is an attempt to connect. -/
theorem reaches_autoConnectTick {τ N L : Type} {link : Link τ N L}
    {M : Machine (signature τ) (Choice τ N) (World τ L)} (hM : M.step = World.step link)
    {w u : World τ L} {r : Except PyError Unit} (hstate : w.state = .disconnected)
    (h : autoConnectTick.Reaches M w r u) : ∃ s, ensureConnected.Reaches M w s u := by
  obtain ⟨c, _, h⟩ := h
  have hsame : (M.step .getState c w) = (w.state, w) := by rw [hM]; rfl
  rw [hsame] at h
  change Program.Reaches M (if w.state = .disconnected then _ else pure ()) w r u at h
  rw [if_pos hstate] at h
  rcases (Program.reaches_bind _ _).mp h with ⟨s, x, hattempt, hrest⟩ | ⟨e, hattempt, _⟩
  · obtain ⟨s', _, hreaches⟩ := (Program.reaches_attempt _).mp hattempt
    cases s with
    | ok _ => exact ⟨s', hrest.2 ▸ hreaches⟩
    | error e => exact ⟨s', hrest.2 ▸ hreaches⟩
  · obtain ⟨s', hs, _⟩ := (Program.reaches_attempt _).mp hattempt
    simp at hs

/-- After a failed attempt that lost its connection, nothing that it asked for is held. -/
theorem betweenAttempts_tick (hw : BetweenAttempts n w) (hstate : w.state = .disconnected)
    (h : autoConnectTick.Reaches retrying w (.ok ()) v) (hfailed : v.state.isConnected = false)
    (hloses : LosesConnection w v) : BetweenAttempts n v := by
  obtain ⟨r, hreaches⟩ := reaches_autoConnectTick rfl hstate h
  cases r with
  | ok _ =>
    have hconnected := Program.reaches_of_wp
      (Program.wp_restrict (wp_ensureConnected_connects w)) hreaches rfl
    rw [hfailed] at hconnected
    simp at hconnected
  | error e =>
    have hstashed := Program.reaches_of_wp (wp_ensureConnected_stashed hw.unacknowledged) hreaches
    have hclean := Program.reaches_of_wp (Program.wp_restrict wp_ensureConnected_failed) hreaches
    have hclosed : v.sockOpen = false := ((hclean e rfl).mpr hloses).sock
    refine ⟨hstashed e rfl, fun hopen => ?_⟩
    rw [hclosed] at hopen
    exact absurd hopen Bool.false_ne_true

/-- However many attempts fail, nothing of them is held. -/
theorem betweenAttempts_run (hw : BetweenAttempts n w) (h : FailedAttempts LosesConnection w v) :
    BetweenAttempts n v := by
  induction h with
  | none w => exact hw
  | more hstate htick hfailed hloses _ ih =>
    exact ih (betweenAttempts_tick hw hstate htick hfailed hloses)

end Attempts

section Later

variable {n m : ℕ} {start w v : World Origin (Buffers Origin)}

/-- What an access records: a packet only when it reads one off the wire. -/
theorem trace_step {τ N L : Type} (link : Link τ N L) (o : Op τ) (c : Choice τ N) (w : World τ L) :
    ∃ events, (World.step link o c w).2.trace = w.trace ++ events ∧
      ∀ packet, .got packet ∈ events →
        (World.readPacket link c (w.absorb link c.acts)).1 = .ok packet := by
  refine ⟨World.recorded link c w o, World.step_trace link o c w, fun packet hpacket => ?_⟩
  cases o with
  | send message =>
    simp only [World.recorded] at hpacket
    split_ifs at hpacket <;> simp at hpacket
  | consumeAck =>
    simp only [World.recorded] at hpacket
    split_ifs at hpacket
    · cases houtcome : (link.consumeAck c.net (w.absorb link c.acts).link).1 <;>
        simp [houtcome, World.ackEvent] at hpacket
    · simp at hpacket
  | readPacketFromWire timeout =>
    simp only [World.recorded] at hpacket
    split_ifs at hpacket
    · cases houtcome : (World.readPacket link c (w.absorb link c.acts)).1 with
      | ok packet' =>
        simp only [houtcome, World.readEvent, List.mem_singleton, Obs.got.injEq] at hpacket
        rw [hpacket]
      | error e => simp [houtcome, World.readEvent] at hpacket
    · simp at hpacket
  | _ => simp [World.recorded] at hpacket

/-- After the attempts: nothing held is a reply to their commands, and none was read since. -/
structure AfterAttempts (n m : ℕ) (start w : World Origin (Buffers Origin)) : Prop where
  /-- What is held replies to none of their commands. -/
  held : Held (fun tag => ¬AskedBetween n m tag) (ownedBytes fun tag => ¬AskedBetween n m tag) w
  /-- All of their commands have been sent. -/
  count : m ≤ w.commands
  /-- Nothing read since replies to one of them. -/
  reads : ∃ events, w.trace = start.trace ++ events ∧
    ∀ packet, .got packet ∈ events → ¬AskedBetween n m packet.tag

/-- A stop replies to none of their commands. -/
theorem not_asked_of_stop {t : Token Origin} (h : isStopFrame t = true) : ¬AskedBetween n m t.tag := by
  rintro ⟨k, hk, _, _⟩
  exact not_reply_of_stop h k hk

/-- No access afterwards reads such a reply. -/
theorem afterAttempts_step {o : Op Origin} (ho : pushes o = false) {c : Choice Origin Net}
    (hc : retrying.admits o c w) (h : AfterAttempts n m start w) :
    AfterAttempts n m start (retrying.step o c w).2 := by
  obtain ⟨_, hacts, hanswer⟩ := hc
  have howns := byteLink_owns fun tag => ¬AskedBetween n m tag
  have hstops : ∀ a ∈ c.acts, ¬AskedBetween n m a.token.tag := fun a ha => not_asked_of_stop (hacts a ha)
  refine ⟨held_step howns ho hstops ?_ h.held, h.count.trans (commands_le _ o c w), ?_⟩
  · rintro message rfl t ht ⟨k, hk, _, hlast⟩
    have hnumber : k = w.commands := tag_of_answer hanswer ht hk
    have hcount := h.count
    omega
  · obtain ⟨events, htrace, hevents⟩ := h.reads
    obtain ⟨added, hadded, hgot⟩ := trace_step (byteLink Origin) o c w
    refine ⟨events ++ added, ?_, fun packet hpacket => ?_⟩
    · rw [← List.append_assoc, ← htrace]
      exact hadded
    · rcases List.mem_append.mp hpacket with hpacket | hpacket
      · exact hevents packet hpacket
      · exact ((h.held.absorb howns hstops).readPacket howns c).2 packet (hgot packet hpacket)

/-- So all that is handed out afterwards is none. -/
theorem deals_afterAttempts :
    Deals retrying (AfterAttempts n m start) fun tag => ¬AskedBetween n m tag where
  step _ _ _ ho hc h := afterAttempts_step (pushes_of_isStubAccess ho) hc h
  read _ c w packet hc h hpacket := by
    have howns := byteLink_owns fun tag => ¬AskedBetween n m tag
    have habsorbed := h.held.absorb howns fun a ha => not_asked_of_stop (hc.2.1 a ha)
    exact (habsorbed.readPacket howns c).2 packet hpacket
  pop _ _ packet _ h hpacket := h.held.stashed packet (List.mem_of_mem_head? hpacket)
  take _ _ _ h packet hpacket := h.held.stashed packet hpacket

/-- This holds of all code afterwards. -/
theorem keeps_afterAttempts {α : Type} {p : Code Origin α} (hp : p.Uses fun o => pushes o = false) :
    p.Keeps retrying (AfterAttempts n m start) :=
  fun _ h => Program.wp_of_uses (fun _ _ _ ho hc hw => afterAttempts_step ho hc hw) hp h

/-- Client operations return no reply to the attempts, nor read one. -/
theorem reads_afterAttempts {outcomes : List (Except PyError (List (Packet Origin)))}
    (hw : AfterAttempts n m start w) (h : Reads w outcomes v) : AfterAttempts n m start v ∧
      ∀ packets, .ok packets ∈ outcomes → ∀ packet ∈ packets, ¬AskedBetween n m packet.tag := by
  induction h with
  | nil w => exact ⟨hw, by simp⟩
  | connect hconnect _ ih =>
    exact ih (Program.reaches_of_wp (keeps_afterAttempts (uses_connect rfl) _ hw) hconnect)
  | call call hcall _ ih =>
    obtain ⟨hnext, hgives⟩ := Program.reaches_of_wp (deals_afterAttempts.call call _ hw) hcall
    obtain ⟨hlast, hlater⟩ := ih hnext
    refine ⟨hlast, fun packets hmem packet hpacket => ?_⟩
    rcases List.mem_cons.mp hmem with hfirst | hmem
    · exact hgives packets hfirst.symm packet hpacket
    · exact hlater packets hmem packet hpacket

/-- A connect that raises leaves nothing behind exactly when every wait that
failed in it lost the connection. After any number of such attempts of the
auto-connect worker, neither the connect that succeeds nor any operation after
it reads or returns a reply to what they asked. -/
theorem failed_connects_leave_nothing_iff (w u s v : World Origin (Buffers Origin)) (e : PyError)
    (outcomes : List (Except PyError (List (Packet Origin)))) :
    (ensureConnected.Reaches (machine (byteLink Origin)) w (.error e) v →
      (LeavesNothing w v ↔ LosesConnection w v)) ∧
    (Labelled w → FailedAttempts LosesConnection w u → ensureConnected.Reaches retrying u (.ok ()) s →
      Reads s outcomes v →
      (∃ events, v.trace = u.trace ++ events ∧ ∀ packet, .got packet ∈ events →
        ¬AskedBetween w.commands u.commands packet.tag) ∧
      ∀ packets, .ok packets ∈ outcomes → ∀ packet ∈ packets,
        ¬AskedBetween w.commands u.commands packet.tag) := by
  constructor
  · intro h
    exact Program.reaches_of_wp wp_ensureConnected_failed h e rfl
  · intro hlabelled hattempts hsuccess hreads
    have hbetween : BetweenAttempts w.commands u :=
      betweenAttempts_run ⟨⟨hlabelled.stashed, le_rfl⟩, hlabelled.unread⟩ hattempts
    have hspares : ∀ tag, Before w.commands tag → ¬AskedBetween w.commands u.commands tag := by
      rintro tag hbefore ⟨k, hk, hfirst, _⟩
      have hlow := hbefore k hk
      omega
    have hstart : AfterAttempts w.commands u.commands u u := by
      refine ⟨⟨fun hopen => ?_, fun packet hp => hspares _ (hbetween.stashed packet hp)⟩, le_rfl,
        [], (List.append_nil _).symm, by simp⟩
      obtain ⟨tokens, hrenders, howned⟩ := hbetween.unread hopen
      exact ⟨tokens, hrenders, fun t ht => hspares _ (howned t ht)⟩
    have hrestrained : (ensureConnected : Code Origin Unit).Uses
        (restrained true true true fun _ => True) := uses_ensureConnected trivial trivial
    have huses : (ensureConnected : Code Origin Unit).Uses fun o => pushes o = false :=
      hrestrained.mono fun o ho => by cases o <;> first | rfl | exact ho.elim
    have hconnected := Program.reaches_of_wp (keeps_afterAttempts huses u hstart) hsuccess
    obtain ⟨hlast, hreturned⟩ := reads_afterAttempts hconnected hreads
    exact ⟨hlast.reads, hreturned⟩

/-- A new session that does not resume on connecting. -/
def newSession : World Origin (Buffers Origin) :=
  {freshWorld Buffers.empty with state := .disconnected, sockOpen := false, autoResume := false}

/-- Everything sent so far arrives at once. -/
def prompt : Net := ⟨List.replicate 9 (.bytes 100), []⟩

/-- Commands that are answered. -/
def answers (n : ℕ) : List (Choice Origin Net) :=
  [{net := prompt, response := [.ack (.reply n), .frame stopBody (.reply n)]}, {net := prompt},
    {net := prompt}]

/-- A connect whose `?` is acknowledged and answered. -/
def accepted (n : ℕ) : List (Choice Origin Net) := {net := prompt} :: answers n

/-- A connect whose peer closes the connection before the acknowledgement. -/
def hungUp : List (Choice Origin Net) := [{net := prompt}, {net := prompt}, {net := ⟨[.closed], []⟩}]

/-- What that connect raises. -/
def hungUpError : PyError :=
  .connectionLost ("Cannot reach Dolphin GDB stub at " ++ endpoint ++ ": socket closed mid-read")

/-- A connect whose `?` is acknowledged in time and answered too late. -/
def lateAnswer : List (Choice Origin Net) :=
  [{net := prompt}, {net := prompt, response := [.ack (.reply 0), .frame stopBody (.reply 0)]},
    {net := ⟨[.bytes 0], []⟩}, {net := ⟨[.timeout], []⟩}]

/-- The session after one attempt. -/
def attempted (script : List (Choice Origin Net)) : World Origin (Buffers Origin) :=
  ((autoConnectTick : Code Origin Unit).run retrying script newSession).2.1

/-- The session after a connect that follows it. -/
def reconnected (n : ℕ) (w : World Origin (Buffers Origin)) : World Origin (Buffers Origin) :=
  ((ensureConnected : Code Origin Unit).run retrying (accepted n) w).2.1

/-- A new session holds nothing. -/
theorem labelled_newSession : Labelled newSession :=
  ⟨fun hopen => absurd hopen Bool.false_ne_true, by simp [newSession, freshWorld]⟩

/-- The stub hangs up, and the next attempt is answered. -/
theorem failed_connects_leave_nothing_iff_hungUp :
    LeavesNothing newSession (attempted hungUp) ∧ ∃ v,
    Reads (reconnected 1 (attempted hungUp)) [.ok [framePacket stopBody (.reply 2)]] v ∧
    (∃ events, v.trace = (attempted hungUp).trace ++ events ∧ ∀ packet, .got packet ∈ events →
      ¬AskedBetween 0 1 packet.tag) := by
  have htick : autoConnectTick.Reaches retrying newSession (.ok ()) (attempted hungUp) :=
    Program.reaches_along (by decide +kernel) (by decide +kernel)
  have hconnect : ensureConnected.Reaches retrying (attempted hungUp) (.ok ())
      (reconnected 1 (attempted hungUp)) :=
    Program.reaches_along (by decide +kernel) (by decide +kernel)
  have hfollows : (StubCall.cmd .currentThread).code.Follows retrying (answers 2)
      (reconnected 1 (attempted hungUp)) := by decide +kernel
  have houtcome : ((StubCall.cmd .currentThread).code.run retrying (answers 2)
      (reconnected 1 (attempted hungUp))).1 = .ok [framePacket stopBody (.reply 2)] := by
    decide +kernel
  have hcall := Program.reaches_along hfollows houtcome
  have hloses : LosesConnection newSession (attempted hungUp) := by
    rintro e ⟨events, htrace, event, hmem, hfault⟩
    have hevents : events = [.sent (.packet .whyHalted) true,
        .ackFault (.connectionLost "socket closed mid-read")] := htrace.symm.trans (by decide +kernel)
    rw [hevents] at hmem
    rcases List.mem_cons.mp hmem with rfl | hmem
    · simp [faultOf] at hfault
    · rw [List.mem_singleton.mp hmem, faultOf, Option.some.injEq] at hfault
      exact hfault ▸ rfl
  have hattempts : FailedAttempts LosesConnection newSession (attempted hungUp) :=
    .more rfl htick (by decide +kernel) hloses (.none _)
  have hreads := Reads.call (.cmd .currentThread) hcall (.nil _)
  have herror : ((ensureConnected : Code Origin Unit).run (machine (byteLink Origin)) hungUp
      newSession).1 = .error hungUpError := by decide +kernel
  have hworld : ((ensureConnected : Code Origin Unit).run (machine (byteLink Origin)) hungUp
      newSession).2.1 = attempted hungUp := by decide +kernel
  have hraised := Program.reaches_along (follows_machine (byteLink Origin) _ hungUp newSession) herror
  rw [hworld] at hraised
  have hnothing : LeavesNothing newSession (attempted hungUp) :=
    ((failed_connects_leave_nothing_iff _ newSession newSession _ hungUpError []).1 hraised).mpr hloses
  have hlater := (failed_connects_leave_nothing_iff _ _ _ _ hungUpError _).2 labelled_newSession hattempts
    hconnect hreads
  exact ⟨hnothing, _, hreads, hlater.1⟩

/-- An answer that comes too late: the attempt leaves its socket open, and after
the next connect a wait for a stop returns the answer to the first one. -/
theorem late_answer_is_returned_later :
    (∃ e, ensureConnected.Reaches (machine (byteLink Origin)) newSession (.error e)
      (attempted lateAnswer)) ∧ ¬LeavesNothing newSession (attempted lateAnswer) ∧
    ∃ s v, Labelled newSession ∧ FailedAttempts (fun _ _ => True) newSession (attempted lateAnswer) ∧
      ensureConnected.Reaches retrying (attempted lateAnswer) (.ok ()) s ∧
      Reads s [.ok [framePacket stopBody (.reply 0)]] v ∧
      AskedBetween newSession.commands (attempted lateAnswer).commands
        (framePacket stopBody (.reply 0)).tag := by
  have htick : autoConnectTick.Reaches retrying newSession (.ok ()) (attempted lateAnswer) :=
    Program.reaches_along (by decide +kernel) (by decide +kernel)
  have hconnect : ensureConnected.Reaches retrying (attempted lateAnswer) (.ok ())
      (reconnected 1 (attempted lateAnswer)) :=
    Program.reaches_along (by decide +kernel) (by decide +kernel)
  have hfollows : (StubCall.waitForStop none).code.Follows retrying []
      (reconnected 1 (attempted lateAnswer)) := by decide +kernel
  have houtcome : ((StubCall.waitForStop none).code.run retrying []
      (reconnected 1 (attempted lateAnswer))).1 = .ok [framePacket stopBody (.reply 0)] := by
    decide +kernel
  have hcall := Program.reaches_along hfollows houtcome
  have hraised := Program.reaches_run
    (follows_machine (byteLink Origin) (ensureConnected : Code Origin Unit) lateAnswer newSession)
  have herror : ((ensureConnected : Code Origin Unit).run (machine (byteLink Origin)) lateAnswer
      newSession).1 = .error (.connectionLost
        ("Cannot reach Dolphin GDB stub at " ++ endpoint ++ ": timed out")) := by decide +kernel
  have hworld : ((ensureConnected : Code Origin Unit).run (machine (byteLink Origin)) lateAnswer
      newSession).2.1 = attempted lateAnswer := by decide +kernel
  rw [herror, hworld] at hraised
  refine ⟨⟨_, hraised⟩, fun h => absurd h.sock (by decide +kernel), _, _, labelled_newSession,
    .more rfl htick (by decide +kernel) trivial (.none _), hconnect, .call _ hcall (.nil _), ?_⟩
  exact ⟨0, rfl, le_rfl, by decide +kernel⟩

end Later

end DolphinRe.FailedConnects
