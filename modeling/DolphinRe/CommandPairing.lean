import DolphinRe.StubBehaviour

/-!
# Pairing of commands and replies

The client sends no sequence numbers, so which reply a command receives is
decided by the order of the stub's output alone. As long as only waiting for a
stop may time out, every command gets its own reply and every stop is
delivered once and in order.
-/

namespace DolphinRe.CommandPairing

open GdbPackets GdbWire GdbTokens EffectProgram SessionMachine GdbClient LinkRefinement
  StubBehaviour

section Calls

variable {τ : Type}

/-- Client calls that exchange packets with the stub; `cmd` is for commands
that are answered. -/
inductive Call where
  | cmd (command : {command : Command // command.answered = true})
  | continueAsync
  | waitForStop (timeout : Option ℕ)
  | drainPendingReplies

/-- What a call returns. -/
inductive Outcome (τ : Type) where
  | reply (packet : Packet τ)
  | resumed
  | stop (packet : Packet τ)
  /-- Waiting for a stop timed out. -/
  | noStop
  | drained (packets : List (Packet τ))
  deriving DecidableEq, Repr

/-- The stop replies a call hands out. -/
def Outcome.stops : Outcome τ → List (Packet τ)
  | .stop packet => [packet]
  | .drained packets => packets
  | _ => []

/-- The command replies a call hands out. -/
def Outcome.replies : Outcome τ → List (Packet τ)
  | .reply packet => [packet]
  | _ => []

/-- One call; only a timed-out wait for a stop is survived. -/
def Call.code : Call → Code τ (Outcome τ)
  | .cmd command => do
    let packet ← GdbClient.cmd command.val
    pure (.reply packet)
  | .continueAsync => do
    GdbClient.continueAsync
    pure .resumed
  | .waitForStop timeout => do
    match ← (GdbClient.waitForStop timeout).attempt with
    | .ok packet => pure (.stop packet)
    | .error e => if isTimeout e then pure .noStop else throwing e
  | .drainPendingReplies => do
    let packets ← GdbClient.drainPendingReplies
    pure (.drained packets)

/-- A run of calls. -/
def performAll : List Call → Code τ (List (Outcome τ))
  | [] => pure []
  | call :: calls => do
    let outcome ← call.code
    let outcomes ← performAll calls
    pure (outcome :: outcomes)

/-- Number of packets a call sends. -/
def Call.packets : Call → ℕ
  | .cmd _ => 1
  | .continueAsync => 1
  | _ => 0

/-- Whether an outcome is the one due to a call made after `n` packets. -/
def Due (n : ℕ) : Call → Outcome Origin → Prop
  | .cmd _, .reply packet => packet.tag = .reply n
  | .continueAsync, .resumed => True
  | .waitForStop _, .stop packet => packet.tag.isStop = true
  | .waitForStop _, .noStop => True
  | .drainPendingReplies, .drained packets => ∀ packet ∈ packets, packet.tag.isStop = true
  | _, _ => False

/-- Every outcome of a run is due to its call. -/
def AllDue : ℕ → List Call → List (Outcome Origin) → Prop
  | _, [], [] => True
  | n, call :: calls, outcome :: outcomes =>
    Due n call outcome ∧ AllDue (n + call.packets) calls outcomes
  | _, _, _ => False

end Calls

/-- An acknowledgement immediately followed by one reply frame; for a command
that is not answered, the acknowledgement alone. -/
def isAnswer (command : Command) (n : ℕ) : Tokens → Bool
  | [.ack tag, .frame _ tag'] => command.answered && tag = .reply n && tag' = .reply n
  | [.ack tag] => !command.answered && tag = .reply n
  | _ => false

/-- What the stub sends at once when a message arrives. -/
def answersAdjacent (o : Op Origin) (response : Tokens) (n : ℕ) : Bool :=
  match o with
  | .send (.packet command) => isAnswer command n response
  | .send .interrupt => response = []
  | _ => true

/-- The stub answers each command with an acknowledgement immediately followed
by one reply frame, `c` with the acknowledgement alone; anything it sends of
its own accord is a stop reply. -/
def AnswersAdjacent : Discipline Origin := fun o c w _ =>
  (∀ a ∈ c.acts, isStopFrame a.token = true) ∧ answersAdjacent o c.response w.commands = true

instance (o : Op Origin) (c : Choice Origin Unit) (w : World Origin Unit) (answer : o.Answer) :
    Decidable (AnswersAdjacent o c w answer) :=
  inferInstanceAs (Decidable (_ ∧ _))

section Delivery

/-- Only stop replies are unread. -/
def Quiet (unread : Tokens) : Prop := ∀ t ∈ unread, isStopFrame t = true

/-- The next acknowledgement is that of command `n`, and its answer follows at once. -/
def AckDue (n : ℕ) (answer unread : Tokens) : Prop :=
  ∃ before after, unread = before ++ .ack (.reply n) :: (answer ++ after) ∧ Quiet before ∧ Quiet after

/-- The answer is the next thing unread. -/
def AnswerDue (answer unread : Tokens) : Prop := ∃ after, unread = answer ++ after ∧ Quiet after

/-- The books of a connection: the shape of what is unread, and the accounts
of stops handed out and of replies sent. -/
structure Books (shape : Tokens → Prop) (stops replies : List (Packet Origin)) (n : ℕ)
    (w : TokenWorld) : Prop where
  /-- What is unread has the shape that the last operation leaves. -/
  shape : shape w.link
  /-- Only stops are stashed. -/
  stashed : ∀ packet ∈ w.pendingReplies, packet.tag.isStop = true
  /-- Stops handed out, stashed and unread are the stops sent, in order. -/
  fifo : stops ++ w.pendingReplies ++ stopPackets w.link = stopPackets w.emitted
  /-- The replies handed out are the replies sent, in order. -/
  answered : replies = replyPackets w.emitted
  /-- As many commands have been sent. -/
  count : w.commands = n

theorem Quiet.append {ts us : Tokens} (ht : Quiet ts) (hu : Quiet us) : Quiet (ts ++ us) :=
  fun t h => (List.mem_append.mp h).elim (ht t) (hu t)

theorem AckDue.append {n : ℕ} {answer ts us : Tokens} (ht : AckDue n answer ts) (hu : Quiet us) :
    AckDue n answer (ts ++ us) := by
  obtain ⟨before, after, rfl, hbefore, hafter⟩ := ht
  exact ⟨before, after ++ us, by simp, hbefore, hafter.append hu⟩

theorem AnswerDue.append {answer ts us : Tokens} (ht : AnswerDue answer ts) (hu : Quiet us) :
    AnswerDue answer (ts ++ us) := by
  obtain ⟨after, rfl, hafter⟩ := ht
  exact ⟨after ++ us, by simp, hafter.append hu⟩

theorem stashed_of_quiet {ts : Tokens} (packet : Packet Origin) (h : packet ∈ stopPackets ts) :
    packet.tag.isStop = true := by
  obtain ⟨t, -, ht⟩ := List.mem_filterMap.mp h
  cases t with
  | ack tag => simp at ht
  | stray byte tag => simp at ht
  | frame body tag =>
    cases tag with
    | reply n => simp at ht
    | stop n cause =>
      simp only [Option.some.injEq] at ht
      subst ht
      rfl

variable {shape : Tokens → Prop} {stops replies : List (Packet Origin)} {n : ℕ} {w : TokenWorld}

/-- Stops sent of the stub's own accord keep the books. -/
theorem Books.absorb (hshape : ∀ ts us, shape ts → Quiet us → shape (ts ++ us))
    (h : Books shape stops replies n w) {acts : List (StubAct Origin)}
    (hacts : ∀ a ∈ acts, isStopFrame a.token = true) :
    Books shape stops replies n (w.absorb (tokenLink Origin) acts) := by
  have hquiet : Quiet (acts.map StubAct.token) := by
    intro t ht
    obtain ⟨a, ha, rfl⟩ := List.mem_map.mp ht
    exact hacts a ha
  cases hopen : w.sockOpen with
  | false =>
    obtain ⟨hlink, hemitted⟩ := World.absorb_closed (tokenLink Origin) hopen acts
    exact ⟨by rw [hlink]; exact h.shape, by simpa using h.stashed,
      by rw [hlink, hemitted]; simpa using h.fifo, by rw [hemitted]; exact h.answered,
      by simpa using h.count⟩
  | true =>
    obtain ⟨hlink, hemitted⟩ := World.absorb_open hopen acts
    refine ⟨by rw [hlink]; exact hshape _ _ h.shape hquiet, by simpa using h.stashed, ?_, ?_,
      by simpa using h.count⟩
    · rw [hlink, hemitted, stopPackets_append, stopPackets_append, ← h.fifo]
      simp
    · rw [hemitted, replyPackets_append, replyPackets_of_stops hquiet, List.append_nil]
      exact h.answered

/-- The machine of the pairing theorem over tokens. -/
abbrev adjacentMachine : Machine (signature Origin) (Choice Origin TokenNet) TokenWorld :=
  disciplined (tokenLink Origin) AnswersAdjacent

/-- The answer to a command, given the body of its reply. -/
def answerTo (command : Command) (n : ℕ) (body : Body) : Tokens :=
  if command.answered then [.frame body (.reply n)] else []

/-- What the stub may answer to a command. -/
theorem answer_of_adjacent {command : Command} {response : Tokens} {m : ℕ}
    (h : isAnswer command m response = true) :
    ∃ body, response = .ack (.reply m) :: answerTo command m body := by
  unfold answerTo
  unfold isAnswer at h
  split at h
  · rename_i tag body tag'
    simp only [Bool.and_eq_true, decide_eq_true_eq] at h
    obtain ⟨⟨hanswered, rfl⟩, rfl⟩ := h
    exact ⟨body, by rw [if_pos hanswered]⟩
  · rename_i tag
    simp only [Bool.and_eq_true, decide_eq_true_eq, Bool.not_eq_true'] at h
    obtain ⟨hanswered, rfl⟩ := h
    exact ⟨⟨[], by simp⟩, by rw [if_neg (by simp [hanswered])]⟩
  · simp at h

/-- Sending a command on quiet books makes its acknowledgement due. -/
theorem wp_send_command (command : Command) (h : Books Quiet stops replies n w) :
    (sendall (.packet command)).wp adjacentMachine (fun r w' => r = .ok () →
      ∃ body, Books (AckDue n (answerTo command n body)) stops
        (replies ++ replyPackets (answerTo command n body)) (n + 1) w') w := by
  rw [wp_sendall]
  rintro c ⟨-, hacts, hresponse⟩ hok
  dsimp only [withNet, withLink] at hacts hresponse
  have hbooks := h.absorb (fun _ _ => Quiet.append) hacts
  obtain ⟨body, hbody⟩ := answer_of_adjacent hresponse
  obtain ⟨-, hdelivered⟩ := World.send_ok hok
  rw [h.count] at hbody
  refine ⟨body, ?_⟩
  change Books _ _ _ _ (World.send _ _ _ _).2
  rw [hdelivered]
  refine ⟨⟨_, [], ?_, hbooks.shape, by simp [Quiet]⟩, hbooks.stashed, ?_, ?_, ?_⟩
  · change _ ++ c.response = _
    rw [hbody, List.append_nil]
  · change _ ++ stopPackets (_ ++ c.response) = stopPackets (_ ++ c.response)
    rw [stopPackets_append, stopPackets_append, ← hbooks.fifo]
    simp only [List.append_assoc]
    rfl
  · change _ = replyPackets (_ ++ c.response)
    rw [replyPackets_append, ← hbooks.answered, hbody]
    rfl
  · change _ + 1 = _
    rw [hbooks.count]

/-- Reading the acknowledgement stashes the stops before it. -/
theorem wp_consumeAck_due {answer : Tokens} (h : Books (AckDue n answer) stops replies (n + 1) w) :
    (consumeAck : Code Origin Unit).wp adjacentMachine (fun r w' => r = .ok () →
      Books (AnswerDue answer) stops replies (n + 1) w') w := by
  rw [wp_consumeAck]
  rintro c ⟨-, hacts, -⟩ hok
  dsimp only [withNet, withLink] at hacts
  have hbooks := h.absorb (fun _ _ => AckDue.append) hacts
  change (World.consumeAck (tokenLink Origin) c (w.absorb _ c.acts)).1 = .ok () at hok
  change Books _ _ _ _ (World.consumeAck (tokenLink Origin) c (w.absorb _ c.acts)).2
  change Books _ _ _ _ (w.absorb (tokenLink Origin) c.acts) at hbooks
  generalize w.absorb (tokenLink Origin) c.acts = v at hok hbooks ⊢
  cases hopen : v.sockOpen with
  | false => simp [World.consumeAck_closed hopen] at hok
  | true =>
    rw [World.consumeAck_open hopen] at hok ⊢
    obtain ⟨before, after, hlink, hbefore, hafter⟩ := hbooks.shape
    rcases takeAck_through_stops hbefore c.net.ending c.net.arrived c.net.ackFails (.reply n)
        (answer ++ after) with htake | ⟨e, herror⟩
    · have hread : (tokenLink Origin).consumeAck c.net v.link =
          (.ok (.reply n), stopPackets before, answer ++ after) := by
        rw [hlink]
        exact htake
      rw [hread]
      refine ⟨⟨after, rfl, hafter⟩, ?_, ?_, hbooks.answered, hbooks.count⟩
      · intro packet hp
        exact (List.mem_append.mp hp).elim (hbooks.stashed packet) (stashed_of_quiet packet)
      · have hfifo := hbooks.fifo
        rw [hlink, stopPackets_append] at hfifo
        rw [← hfifo]
        change _ = _ ++ (_ ++ stopPackets (answer ++ after))
        simp
    · have hread : ((tokenLink Origin).consumeAck c.net v.link).1 = .error e := by
        rw [hlink]
        exact herror
      simp [hread, Except.map] at hok

/-- Reading the reply hands it out. -/
theorem wp_read_answer {body : Body} (timeout : Option ℕ)
    (h : Books (AnswerDue [.frame body (.reply n)]) stops replies (n + 1) w) :
    (readPacketFromWire timeout).wp adjacentMachine (fun r w' => ∀ packet, r = .ok packet →
      packet = framePacket body (.reply n) ∧ Books Quiet stops replies (n + 1) w') w := by
  rw [wp_readPacketFromWire]
  rintro c ⟨-, hacts, -⟩ packet hok
  dsimp only [withNet, withLink] at hacts
  have hbooks := h.absorb (fun _ _ => AnswerDue.append) hacts
  change (World.readPacket (tokenLink Origin) c (w.absorb _ c.acts)).1 = .ok packet at hok
  change _ ∧ Books _ _ _ _ (World.readPacket (tokenLink Origin) c (w.absorb _ c.acts)).2
  change Books _ _ _ _ (w.absorb (tokenLink Origin) c.acts) at hbooks
  generalize w.absorb (tokenLink Origin) c.acts = v at hok hbooks ⊢
  cases hopen : v.sockOpen with
  | false => simp [World.readPacket_closed hopen] at hok
  | true =>
    rw [World.readPacket_open hopen] at hok ⊢
    obtain ⟨after, hlink, hafter⟩ := hbooks.shape
    rw [List.singleton_append] at hlink
    rcases takeFrame_head c.net body (.reply n) after with htake | ⟨e, herror⟩
    · have hread : (tokenLink Origin).readPacket c.net v.link =
          (.ok (framePacket body (.reply n)), after) := by
        rw [hlink]
        exact htake
      rw [hread] at hok ⊢
      refine ⟨(Except.ok.inj hok).symm, hafter, hbooks.stashed, ?_, hbooks.answered, hbooks.count⟩
      have hfifo := hbooks.fifo
      rw [hlink] at hfifo
      exact hfifo
    · have hread : ((tokenLink Origin).readPacket c.net v.link).1 = .error e := by
        rw [hlink]
        exact herror
      rw [hread] at hok
      exact absurd hok (by simp)

/-- `_send_packet` on quiet books makes the answer due. -/
theorem wp_sendPacket_due (command : Command) (h : Books Quiet stops replies n w) :
    (sendPacket command).wp adjacentMachine (fun r w' => r = .ok () →
      ∃ body, Books (AnswerDue (answerTo command n body)) stops
        (replies ++ replyPackets (answerTo command n body)) (n + 1) w') w := by
  unfold sendPacket
  rw [Program.bind_eq, Program.wp_bind]
  refine Program.wp_mono ?_ (wp_send_command command h)
  intro r v hv
  cases r with
  | error e => exact fun h => absurd h (by simp)
  | ok u =>
    obtain ⟨body, hbooks⟩ := hv rfl
    exact Program.wp_mono (fun r v' hv' hr => ⟨body, hv' hr⟩) (wp_consumeAck_due hbooks)

/-- `cmd` hands out the reply to its own command. -/
theorem wp_cmd_due {command : Command} (hanswered : command.answered = true)
    (h : Books Quiet stops replies n w) :
    (cmd command).wp adjacentMachine (fun r w' => ∀ packet, r = .ok packet →
      packet.tag = .reply n ∧ Books Quiet stops (replies ++ [packet]) (n + 1) w') w := by
  unfold cmd
  rw [Program.bind_eq, Program.wp_bind]
  refine Program.wp_mono ?_ (wp_sendPacket_due command h)
  intro r v hv
  cases r with
  | error e => exact fun packet h => absurd h (by simp)
  | ok u =>
    obtain ⟨body, hbooks⟩ := hv rfl
    rw [answerTo, if_pos hanswered] at hbooks
    refine Program.wp_mono ?_ (wp_read_answer none hbooks)
    intro r v' hv' packet hr
    obtain ⟨rfl, hquiet⟩ := hv' packet hr
    exact ⟨rfl, hquiet⟩

/-- `continue_async` hands out nothing. -/
theorem wp_continueAsync_due (h : Books Quiet stops replies n w) :
    (GdbClient.continueAsync : Code Origin Unit).wp adjacentMachine (fun r w' => r = .ok () →
      Books Quiet stops replies (n + 1) w') w := by
  refine Program.wp_mono ?_ (wp_sendPacket_due .resume h)
  intro r v hv hr
  obtain ⟨body, hbooks⟩ := hv hr
  obtain ⟨after, hlink, hafter⟩ := hbooks.shape
  refine ⟨?_, hbooks.stashed, hbooks.fifo, ?_, hbooks.count⟩
  · rw [hlink]
    exact hafter
  · rw [← hbooks.answered]
    exact (List.append_nil replies).symm

/-- The first of quiet tokens is a stop reply. -/
theorem Quiet.head {t : Token Origin} {ts : Tokens} (h : Quiet (t :: ts)) :
    ∃ body m cause, t = .frame body (.stop m cause) ∧ Quiet ts := by
  have ht := h t List.mem_cons_self
  have hts : Quiet ts := fun u hu => h u (List.mem_cons_of_mem t hu)
  cases t with
  | ack tag => simp [isStopFrame] at ht
  | stray byte tag => simp [isStopFrame] at ht
  | frame body tag =>
    cases tag with
    | reply m => simp [isStopFrame] at ht
    | stop m cause => exact ⟨body, m, cause, rfl, hts⟩

/-- Reading a packet from quiet books hands out the first unread stop, or times
out and changes nothing. -/
theorem wp_read_stop (timeout : Option ℕ) (hpending : w.pendingReplies = [])
    (h : Books Quiet stops replies n w) :
    (readPacketFromWire timeout).wp adjacentMachine (fun r w' => match r with
      | .ok packet => packet.tag.isStop = true ∧ Books Quiet (stops ++ [packet]) replies n w'
      | .error e => isTimeout e = true → Books Quiet stops replies n w') w := by
  rw [wp_readPacketFromWire]
  rintro c ⟨-, hacts, -⟩
  dsimp only [withNet, withLink] at hacts
  have hbooks := h.absorb (fun _ _ => Quiet.append) hacts
  have hnone : (w.absorb (tokenLink Origin) c.acts).pendingReplies = [] := by simpa using hpending
  change match (World.readPacket (tokenLink Origin) c (w.absorb _ c.acts)).1 with
    | .ok packet => packet.tag.isStop = true ∧ Books Quiet (stops ++ [packet]) replies n
        (World.readPacket (tokenLink Origin) c (w.absorb _ c.acts)).2
    | .error e => isTimeout e = true → Books Quiet stops replies n
        (World.readPacket (tokenLink Origin) c (w.absorb _ c.acts)).2
  change Books _ _ _ _ (w.absorb (tokenLink Origin) c.acts) at hbooks
  generalize w.absorb (tokenLink Origin) c.acts = v at hbooks hnone ⊢
  cases hopen : v.sockOpen with
  | false =>
    rw [World.readPacket_closed hopen]
    exact fun ht => absurd ht (by simp [isTimeout])
  | true =>
    rw [World.readPacket_open hopen]
    rcases hread : (tokenLink Origin).readPacket c.net v.link with ⟨e | packet, left⟩
    · intro ht
      have hleft : left = v.link := by
        have herror : (takeFrame c.net v.link).1 = .error e := congrArg Prod.fst hread
        have hkept := takeFrame_timeout c.net v.link herror ht
        exact (congrArg Prod.snd hread).symm.trans hkept
      subst hleft
      exact ⟨hbooks.shape, hbooks.stashed, hbooks.fifo, hbooks.answered, hbooks.count⟩
    · cases hlink : v.link with
      | nil =>
        obtain ⟨e, herror⟩ := takeFrame_nil c.net
        have : ((tokenLink Origin).readPacket c.net v.link).1 = .error e := by
          rw [hlink]
          exact herror
        simp [hread] at this
      | cons t ts =>
        have hshape := hbooks.shape
        rw [hlink] at hshape hread
        obtain ⟨body, m, cause, rfl, hts⟩ := hshape.head
        rcases takeFrame_head c.net body (.stop m cause) ts with htake | ⟨e, herror⟩
        · change takeFrame c.net _ = _ at hread
          rw [htake] at hread
          simp only [Prod.mk.injEq, Except.ok.injEq] at hread
          obtain ⟨rfl, rfl⟩ := hread
          refine ⟨rfl, hts, hbooks.stashed, ?_, hbooks.answered, hbooks.count⟩
          have hfifo := hbooks.fifo
          rw [hlink, hnone, List.append_nil] at hfifo
          rw [← hfifo]
          change stops ++ [_] ++ v.pendingReplies ++ stopPackets ts = _
          rw [hnone]
          simp [stopPackets]
        · change takeFrame c.net _ = _ at hread
          rw [hread] at herror
          simp at herror

/-- `wait_for_stop` hands out the oldest stop, or times out and changes nothing. -/
theorem wp_waitForStop_due (timeout : Option ℕ) (h : Books Quiet stops replies n w) :
    (GdbClient.waitForStop timeout).wp adjacentMachine (fun r w' => match r with
      | .ok packet => packet.tag.isStop = true ∧ Books Quiet (stops ++ [packet]) replies n w'
      | .error e => isTimeout e = true → Books Quiet stops replies n w') w := by
  unfold GdbClient.waitForStop readPacket
  rw [Program.bind_eq, Program.wp_bind, wp_access]
  rintro c -
  cases hpending : w.pendingReplies with
  | nil =>
    have hsame : (adjacentMachine.step .popPending c w).2 = w := by
      change {w with pendingReplies := w.pendingReplies.tail} = w
      rw [hpending]
      cases w
      simp_all
    have hnone : (adjacentMachine.step .popPending c w).1 = none := by
      change w.pendingReplies.head? = none
      rw [hpending]
      rfl
    rw [Program.onValue_ok, hnone, hsame]
    exact wp_read_stop timeout hpending h
  | cons packet rest =>
    have hsome : (adjacentMachine.step .popPending c w).1 = some packet := by
      change w.pendingReplies.head? = some packet
      rw [hpending]
      rfl
    rw [Program.onValue_ok, hsome]
    have hrest : ∀ p ∈ w.pendingReplies.tail, p.tag.isStop = true :=
      fun p hp => h.stashed p (List.mem_of_mem_tail hp)
    refine ⟨h.stashed packet (by rw [hpending]; exact List.mem_cons_self), h.shape, hrest, ?_,
      h.answered, h.count⟩
    have hfifo := h.fifo
    rw [hpending] at hfifo
    refine Eq.trans ?_ hfifo
    change stops ++ [packet] ++ w.pendingReplies.tail ++ stopPackets w.link = _
    rw [hpending]
    simp

end Delivery

section Runs

variable {stops replies : List (Packet Origin)} {n : ℕ} {w : TokenWorld}

/-- One call keeps the books and returns what is due. -/
theorem wp_call_due (call : Call) (h : Books Quiet stops replies n w) :
    call.code.wp adjacentMachine (fun r w' => ∀ outcome, r = .ok outcome → Due n call outcome ∧
      Books Quiet (stops ++ outcome.stops) (replies ++ outcome.replies) (n + call.packets) w') w := by
  cases call with
  | cmd command =>
    simp only [Call.code, Program.bind_eq, Program.wp_bind]
    refine Program.wp_mono ?_ (wp_cmd_due command.property h)
    intro r v hv
    cases r with
    | error e => exact fun outcome ho => absurd ho (by simp)
    | ok packet =>
      rintro outcome ⟨⟩
      obtain ⟨htag, hbooks⟩ := hv packet rfl
      exact ⟨htag, by simpa [Outcome.stops, Outcome.replies, Call.packets] using hbooks⟩
  | continueAsync =>
    simp only [Call.code, Program.bind_eq, Program.wp_bind]
    refine Program.wp_mono ?_ (wp_continueAsync_due h)
    intro r v hv
    cases r with
    | error e => exact fun outcome ho => absurd ho (by simp)
    | ok u =>
      rintro outcome ⟨⟩
      exact ⟨trivial, by simpa [Outcome.stops, Outcome.replies, Call.packets] using hv rfl⟩
  | waitForStop timeout =>
    simp only [Call.code, Program.bind_eq, Program.wp_bind, Program.wp_attempt]
    refine Program.wp_mono ?_ (wp_waitForStop_due timeout h)
    intro r v hv
    cases r with
    | ok packet =>
      rintro outcome ⟨⟩
      exact ⟨hv.1, by simpa [Outcome.stops, Outcome.replies, Call.packets] using hv.2⟩
    | error e =>
      dsimp only [Program.onValue_ok]
      cases ht : isTimeout e with
      | false => exact fun outcome ho => by simp at ho
      | true =>
        rintro outcome ⟨⟩
        exact ⟨trivial, by simpa [Outcome.stops, Outcome.replies, Call.packets] using hv ht⟩
  | drainPendingReplies =>
    simp only [Call.code, GdbClient.drainPendingReplies, Program.bind_eq, Program.wp_bind]
    rintro c - outcome ⟨⟩
    refine ⟨h.stashed, h.shape, by simp [disciplined, machine, Machine.restrict, World.step], ?_, ?_,
      h.count⟩
    · refine Eq.trans ?_ h.fifo
      change stops ++ w.pendingReplies ++ [] ++ stopPackets w.link = _
      rw [List.append_nil]
    · exact (List.append_nil replies).trans h.answered

/-- A run of calls keeps the books and returns what is due. -/
theorem wp_performAll_due (calls : List Call) (h : Books Quiet stops replies n w) :
    (performAll calls).wp adjacentMachine (fun r w' => ∀ outcomes, r = .ok outcomes →
      AllDue n calls outcomes ∧ ∃ m, Books Quiet (stops ++ outcomes.flatMap Outcome.stops)
        (replies ++ outcomes.flatMap Outcome.replies) m w') w := by
  induction calls generalizing stops replies n w with
  | nil =>
    rintro outcomes ⟨⟩
    exact ⟨trivial, n, by simpa using h⟩
  | cons call calls ih =>
    simp only [performAll, Program.bind_eq, Program.wp_bind]
    refine Program.wp_mono ?_ (wp_call_due call h)
    intro r v hv
    cases r with
    | error e => exact fun outcomes ho => absurd ho (by simp)
    | ok outcome =>
      obtain ⟨hdue, hbooks⟩ := hv outcome rfl
      rw [Program.onValue_ok, Program.wp_bind]
      refine Program.wp_mono ?_ (ih hbooks)
      intro r' v' hv'
      cases r' with
      | error e => exact fun outcomes ho => absurd ho (by simp)
      | ok rest =>
        rintro outcomes ⟨⟩
        obtain ⟨hrest, m, hm⟩ := hv' rest rfl
        exact ⟨⟨hdue, hrest⟩, m, by simpa using hm⟩

end Runs

/-- The machine of the pairing theorem over bytes. -/
abbrev byteMachine (allowed : Discipline Origin) :
    Machine (signature Origin) (Choice Origin Net) (World Origin (Buffers Origin)) :=
  disciplined (byteLink Origin) allowed

/-- When nothing but a wait for a stop times out, the k-th command receives
exactly the reply to it, and the stops handed out, then stashed, then unread in
the receive buffer and on the wire are the stops sent, in order, each once. -/
theorem commands_paired_and_stops_fifo (calls : List Call) (script : List (Choice Origin Net))
    (w w' : World Origin (Buffers Origin)) (outcomes : List (Outcome Origin))
    (rest : List (Choice Origin Net)) (hfresh : w.link.unread = [] ∧ w.pendingReplies = [] ∧
      w.emitted = [] ∧ w.commands = 0)
    (hstub : (performAll calls).Follows (byteMachine AnswersAdjacent) script w)
    (hrun : (performAll calls).run (byteMachine AnswersAdjacent) script w =
      (.ok outcomes, w', rest)) :
    AllDue 0 calls outcomes ∧ outcomes.flatMap Outcome.replies = replyPackets w'.emitted ∧
      ∃ unread, w'.link.unread = renderAll unread ∧ Quiet unread ∧
        outcomes.flatMap Outcome.stops ++ w'.pendingReplies ++ stopPackets unread =
          stopPackets w'.emitted := by
  obtain ⟨hunread, hpending, hemitted, hcommands⟩ := hfresh
  have hbooks : Books Quiet [] [] 0 (withLink w ([] : Tokens)) :=
    ⟨by simp [Quiet, withLink], by simp [withLink, hpending], by simp [withLink, hpending, hemitted],
      by simp [withLink, hemitted], hcommands⟩
  have htokens := wp_performAll_due calls hbooks
  have hbytes := (disciplined_simulates byteLink_refines AnswersAdjacent).wp
    (Q := fun r v => ∀ outcomes, r = .ok outcomes → AllDue 0 calls outcomes ∧
      outcomes.flatMap Outcome.replies = replyPackets v.emitted ∧
      ∃ unread, v.link.unread = renderAll unread ∧ Quiet unread ∧
        outcomes.flatMap Outcome.stops ++ v.pendingReplies ++ stopPackets unread =
          stopPackets v.emitted)
    (by
      rintro r v v' ⟨l, rfl, hl⟩ hv outcomes hr
      obtain ⟨hdue, m, hm⟩ := hv outcomes hr
      exact ⟨hdue, hm.answered, l, hl, hm.shape, hm.fifo⟩)
    (⟨[], rfl, hunread⟩ : Same Renders w (withLink w [])) htokens
  have hpost := Program.run_of_wp hbytes hstub
  rw [hrun] at hpost
  exact hpost outcomes rfl

section Sample

/-- A stop reply with its number. -/
def stopToken (number : ℕ) : Token Origin := .frame stopBody (.stop number .interrupt)

/-- The packet a stop reply arrives as. -/
def stopPacket (number : ℕ) : Packet Origin := framePacket stopBody (.stop number .interrupt)

/-- A connected session over bytes with nothing in flight. -/
def connectedWorld : World Origin (Buffers Origin) := freshWorld .empty

/-- Resume, wait, send a command between two stops, and collect both. -/
def sampleCalls : List Call :=
  [.continueAsync, .waitForStop (some 200), .cmd ⟨.currentThread, rfl⟩, .drainPendingReplies,
    .waitForStop none]

/-- Bytes arrive one at a time. -/
def trickle : Net := ⟨List.replicate 12 (.bytes 0), []⟩

/-- The stub's side of the sample: one stop before the command's acknowledgement
and one right after its reply. -/
def sampleScript : List (Choice Origin Net) :=
  [{net := trickle, response := [.ack (.reply 0)]},
    {net := trickle},
    {net := trickle, acts := [⟨stopToken 0, true⟩]},
    {net := trickle, acts := [⟨stopToken 1, false⟩],
      response := [.ack (.reply 1), .frame threadBody (.reply 1)]},
    {net := trickle, acts := [⟨stopToken 2, false⟩]},
    {net := trickle},
    {net := trickle}]

/-- What the sample returns. -/
def sampleOutcomes : List (Outcome Origin) :=
  [.resumed, .stop (stopPacket 0), .reply (framePacket threadBody (.reply 1)),
    .drained [stopPacket 1], .stop (stopPacket 2)]

/-- The sample at the end of its run. -/
def sampleEnd : World Origin (Buffers Origin) :=
  ((performAll sampleCalls).run (byteMachine AnswersAdjacent) sampleScript connectedWorld).2.1

theorem commands_paired_and_stops_fifo_sample :
    AllDue 0 sampleCalls sampleOutcomes ∧
      sampleOutcomes.flatMap Outcome.replies = replyPackets sampleEnd.emitted ∧
      ∃ unread, sampleEnd.link.unread = renderAll unread ∧ Quiet unread ∧
        sampleOutcomes.flatMap Outcome.stops ++ sampleEnd.pendingReplies ++ stopPackets unread =
          stopPackets sampleEnd.emitted :=
  commands_paired_and_stops_fifo sampleCalls sampleScript connectedWorld sampleEnd sampleOutcomes
    ((performAll sampleCalls).run (byteMachine AnswersAdjacent) sampleScript connectedWorld).2.2
    (by decide) (by decide +kernel) (Prod.ext (by decide +kernel) rfl)

end Sample

end DolphinRe.CommandPairing
