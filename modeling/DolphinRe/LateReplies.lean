import DolphinRe.CommandPairing

/-!
# Replies that arrive after their command gave up

The stub answers in order, but possibly after the client stopped waiting. A
command that times out after its acknowledgement does no harm: the late reply
is stashed by the next command. A command that times out before its
acknowledgement shifts every later command by one reply, for good.
-/

namespace DolphinRe.LateReplies

open GdbPackets GdbWire GdbTokens EffectProgram SessionMachine GdbClient LinkRefinement
  StubBehaviour CommandPairing

/-- Client operations built on one command. -/
inductive Request where
  | readRegister (regnum : ℕ)
  | readRegisterBytes (regnum : ℕ)
  | readRegisters
  | readMem (addr size : ℤ)
  | writeMem (addr : ℤ) (data : List UInt8)
  | setBreak (insert : Bool) (kind : BpKind) (addr size : ℤ)
  | whyHalted
  | probeResponsive (timeout : ℕ)
  deriving DecidableEq, Repr

section Requests

variable {τ : Type}

/-- One operation, with its result dropped. -/
def Request.code : Request → Code τ Unit
  | .readRegister regnum => do let _ ← GdbClient.readRegister regnum
  | .readRegisterBytes regnum => do let _ ← GdbClient.readRegisterBytes regnum
  | .readRegisters => do let _ ← GdbClient.readRegisters
  | .readMem addr size => do let _ ← GdbClient.readMem addr size
  | .writeMem addr data => GdbClient.writeMem addr data
  | .setBreak insert kind addr size => do let _ ← GdbClient.setBreak insert kind addr size
  | .whyHalted => do let _ ← GdbClient.whyHalted
  | .probeResponsive timeout => do let _ ← GdbClient.probeResponsive timeout

/-- A run of operations; one that raises does not end the run. -/
def serveAll : List Request → Code τ Unit
  | [] => pure ()
  | request :: requests => do
    let _ ← request.code.attempt
    serveAll requests

/-- How one command went. -/
structure Exchange (τ : Type) where
  /-- Whether it timed out while waiting for its acknowledgement. -/
  ackTimedOut : Bool
  /-- The payload it returned, if any. -/
  payload : Option (Packet τ)
  deriving DecidableEq, Repr

/-- Change the exchange in progress. -/
def onLast (f : Exchange τ → Exchange τ) : List (Exchange τ) → List (Exchange τ)
  | [] => []
  | [exchange] => [f exchange]
  | exchange :: exchanges => exchange :: onLast f exchanges

/-- Account for one event. -/
def record (exchanges : List (Exchange τ)) : Obs τ → List (Exchange τ)
  | .sent (.packet _) _ => exchanges ++ [⟨false, none⟩]
  | .ackFault _ => onLast (fun exchange => {exchange with ackTimedOut := true}) exchanges
  | .got packet => onLast (fun exchange => {exchange with payload := some packet}) exchanges
  | _ => exchanges

/-- The commands of a run, in order. -/
def exchanges (trace : List (Obs τ)) : List (Exchange τ) := trace.foldl record []

/-- Number of commands that got an acknowledgement. -/
def acknowledged (exchanges : List (Exchange τ)) : ℕ :=
  (exchanges.filter fun exchange => !exchange.ackTimedOut).length

/-- The last exchange is the one amended. -/
theorem onLast_append (f : Exchange τ → Exchange τ) (before : List (Exchange τ))
    (exchange : Exchange τ) : onLast f (before ++ [exchange]) = before ++ [f exchange] := by
  induction before with
  | nil => rfl
  | cons head before ih =>
    cases before with
    | nil => rfl
    | cons next before => exact congrArg (head :: ·) ih

/-- Acknowledgements are counted piece by piece. -/
theorem acknowledged_append (before after : List (Exchange τ)) :
    acknowledged (before ++ after) = acknowledged before + acknowledged after := by
  simp [acknowledged]

/-- Every command is acknowledged exactly when none timed out waiting for it. -/
theorem acknowledged_eq_length_iff (exchanges : List (Exchange τ)) :
    acknowledged exchanges = exchanges.length ↔
      ∀ exchange ∈ exchanges, exchange.ackTimedOut = false := by
  unfold acknowledged
  rw [List.length_filter_eq_length_iff]
  simp

end Requests

/-- Place of a token in the answers of the stub: command number, and whether it
is the reply rather than the acknowledgement. -/
def slot : Token Origin → Option (ℕ × Bool)
  | .ack (.reply n) => some (n, false)
  | .frame _ (.reply n) => some (n, true)
  | _ => none

/-- The place due at a position: acknowledgement and reply of each command in turn. -/
def slotAt (i : ℕ) : ℕ × Bool := (i / 2, i % 2 = 1)

/-- Tokens answer the first `n` commands in order, as far as they go. -/
def inOrder (tokens : Tokens) (n : ℕ) : Bool :=
  tokens.length ≤ 2 * n && tokens.zipIdx.all fun entry => slot entry.1 = some (slotAt entry.2)

/-- Whether the outcome of an access is one the stub and the network permit. -/
def permitted (o : Op Origin) (answer : o.Answer) : Bool :=
  match o, answer with
  | .send _, answer => onlyTimesOut answer
  | .consumeAck, answer => onlyTimesOut answer
  | .readPacketFromWire _, answer => onlyTimesOut answer
  | _, _ => true

/-- The stub acknowledges and answers every command in order, at any later
time; reads may time out anywhere, and the connection stays up. -/
def AnswersLate : Discipline Origin := fun o c w answer =>
  inOrder (w.emitted ++ c.acts.map StubAct.token) w.commands = true ∧ c.response = [] ∧
    permitted o answer = true

instance (o : Op Origin) (c : Choice Origin Unit) (w : World Origin Unit) (answer : o.Answer) :
    Decidable (AnswersLate o c w answer) :=
  inferInstanceAs (Decidable (_ ∧ _))

section Streams

/-- Tokens that continue the answers from a position on. -/
def Continues (k : ℕ) (tokens : Tokens) : Prop :=
  ∀ i t, tokens[i]? = some t → slot t = some (slotAt (k + i))

/-- What is sent in turns goes on in turns. -/
theorem Continues.tail {k : ℕ} {t : Token Origin} {ts : Tokens} (h : Continues k (t :: ts)) :
    Continues (k + 1) ts := by
  intro i u hu
  have := h (i + 1) u (by simpa using hu)
  rwa [show k + 1 + i = k + (i + 1) by omega]

/-- Its first token is the one whose turn it is. -/
theorem Continues.head {k : ℕ} {t : Token Origin} {ts : Tokens} (h : Continues k (t :: ts)) :
    slot t = some (slotAt k) := h 0 t rfl

/-- At an even position the next token is an acknowledgement. -/
theorem Continues.head_ack {k : ℕ} {t : Token Origin} {ts : Tokens} (h : Continues k (t :: ts))
    (hk : k % 2 = 0) : t = .ack (.reply (k / 2)) := by
  have hslot := h.head
  cases t with
  | stray byte tag => simp [slot] at hslot
  | ack tag =>
    cases tag with
    | stop n cause => simp [slot] at hslot
    | reply n =>
      simp only [slot, slotAt, Option.some.injEq, Prod.mk.injEq] at hslot
      rw [hslot.1]
  | frame body tag =>
    cases tag with
    | stop n cause => simp [slot] at hslot
    | reply n => simp [slot, slotAt, hk] at hslot

/-- At an odd position the next token is a reply. -/
theorem Continues.head_frame {k : ℕ} {t : Token Origin} {ts : Tokens} (h : Continues k (t :: ts))
    (hk : k % 2 = 1) : ∃ body, t = .frame body (.reply (k / 2)) := by
  have hslot := h.head
  cases t with
  | stray byte tag => simp [slot] at hslot
  | ack tag =>
    cases tag with
    | stop n cause => simp [slot] at hslot
    | reply n => simp [slot, slotAt, hk] at hslot
  | frame body tag =>
    cases tag with
    | stop n cause => simp [slot] at hslot
    | reply n =>
      simp only [slot, slotAt, Option.some.injEq, Prod.mk.injEq] at hslot
      exact ⟨body, by rw [hslot.1]⟩

/-- What is sent in order is sent in turns. -/
theorem inOrder_continues {tokens : Tokens} {n : ℕ} (h : inOrder tokens n = true) :
    Continues 0 tokens := by
  intro i t hi
  unfold inOrder at h
  rw [Bool.and_eq_true, List.all_eq_true] at h
  have hmem : (t, i) ∈ tokens.zipIdx := List.mem_zipIdx_iff_getElem?.mpr hi
  have hslot := h.2 _ hmem
  rw [Nat.zero_add]
  simpa using hslot

/-- So is what is left of it. -/
theorem Continues.drop {tokens : Tokens} (h : Continues 0 tokens) (k : ℕ) :
    Continues k (tokens.drop k) := by
  intro i t hi
  have := h (k + i) t (by rwa [List.getElem?_drop] at hi)
  rwa [Nat.zero_add] at this

/-- A read that fails with a timeout ended in one. -/
theorem Ending.eq_timeout {ending : Ending} (h : isTimeout ending.error = true) :
    ending = .timeout := by
  cases ending with
  | timeout => rfl
  | reset => simp [Ending.error, connectionReset, isTimeout] at h
  | lost message => simp [Ending.error, isTimeout] at h

/-- Result of an acknowledgement read on answers in order: the next
acknowledgement is taken, or the read times out having stashed at most the
reply before it. -/
def AckResult (k : ℕ) (ts : Tokens) (r : Except PyError Origin × List (Packet Origin) × Tokens) :
    Prop :=
  match r.1 with
  | .ok _ => ∃ j ≤ ts.length, r.2.2 = ts.drop j ∧ k + j = 2 * ((k + 1) / 2) + 1
  | .error e => isTimeout e = true → ∃ j ≤ ts.length, r.2.2 = ts.drop j ∧ (k + j + 1) / 2 = (k + 1) / 2

/-- A wait that ends without an acknowledgement consumes nothing. -/
theorem ackResult_ended {k : ℕ} (ts : Tokens) (ending : Ending) :
    AckResult k ts (.error ending.error, [], ending.left ts) := by
  intro ht
  rw [Ending.eq_timeout ht]
  exact ⟨0, Nat.zero_le _, rfl, by omega⟩

/-- At an even position the acknowledgement comes first. -/
theorem takeAck_even {k : ℕ} {ts : Tokens} (h : Continues k ts) (hk : k % 2 = 0)
    (ending : Ending) (arrived : Option ℕ) (fails : List Bool) :
    AckResult k ts (takeAck ending arrived fails ts) := by
  cases ts with
  | nil =>
    have hended := ackResult_ended (k := k) [] ending
    cases ending <;> exact hended
  | cons t ts =>
    by_cases harrived : arrived = some 0
    · unfold takeAck
      rw [if_pos harrived]
      exact ackResult_ended _ ending
    · unfold takeAck
      rw [if_neg harrived, h.head_ack hk]
      exact ⟨1, by simp, rfl, by omega⟩

/-- At any position at most one acknowledgement is consumed. -/
theorem takeAck_inOrder {k : ℕ} {ts : Tokens} (h : Continues k ts) (ending : Ending)
    (arrived : Option ℕ) (fails : List Bool) :
    AckResult k ts (takeAck ending arrived fails ts) := by
  rcases Nat.mod_two_eq_zero_or_one k with hk | hk
  · exact takeAck_even h hk ending arrived fails
  cases ts with
  | nil =>
    have hended := ackResult_ended (k := k) [] ending
    cases ending <;> exact hended
  | cons t ts =>
    by_cases harrived : arrived = some 0
    · unfold takeAck
      rw [if_pos harrived]
      exact ackResult_ended _ ending
    unfold takeAck
    rw [if_neg harrived]
    obtain ⟨body, rfl⟩ := h.head_frame hk
    dsimp only
    by_cases hfails : fails.headD false = true
    · rw [if_pos hfails]
      exact fun ht => absurd ht (by simp [isTimeout])
    · rw [if_neg hfails]
      have hrest := takeAck_even h.tail (by omega) ending (arrived.map (· - 1)) fails.tail
      rcases hread : takeAck ending (arrived.map (· - 1)) fails.tail ts with ⟨outcome, packets, left⟩
      rw [hread] at hrest
      cases outcome with
      | ok tag =>
        obtain ⟨j, hj, hleft, hpos⟩ := hrest
        exact ⟨j + 1, by simpa using hj, by simpa using hleft, by omega⟩
      | error e =>
        intro ht
        obtain ⟨j, hj, hleft, hpos⟩ := hrest ht
        exact ⟨j + 1, by simpa using hj, by simpa using hleft, by omega⟩

/-- Result of a packet read where a reply is due: that reply is returned, or
the read times out and everything stays in place. -/
def ReadResult (k : ℕ) (ts : Tokens) (r : Except PyError (Packet Origin) × Tokens) : Prop :=
  match r.1 with
  | .ok packet => packet.tag = .reply (k / 2) ∧ 1 ≤ ts.length ∧ r.2 = ts.drop 1
  | .error e => isTimeout e = true → r.2 = ts

/-- At an odd position the reply comes first. -/
theorem takeFrame_inOrder {k : ℕ} {ts : Tokens} (h : Continues k ts) (hk : k % 2 = 1)
    (net : TokenNet) : ReadResult k ts (takeFrame net ts) := by
  cases ts with
  | nil =>
    change isTimeout net.ending.error = true → net.ending.left [] = []
    cases net.ending <;> exact fun _ => rfl
  | cons t ts =>
    obtain ⟨body, rfl⟩ := h.head_frame hk
    rcases hread : takeFrame net (.frame body (.reply (k / 2)) :: ts) with ⟨e | packet, left⟩
    · rw [hread]
      intro ht
      have hkept := takeFrame_timeout net _ (congrArg Prod.fst hread) ht
      exact (congrArg Prod.snd hread).symm.trans hkept
    · rcases takeFrame_head net body (.reply (k / 2)) ts with htake | ⟨e, herror⟩
      · rw [htake] at hread
        rw [htake]
        exact ⟨rfl, by simp, rfl⟩
      · rw [hread] at herror
        simp at herror

end Streams

section Serving

/-- The machine of late answers over tokens. -/
abbrev lateMachine : Machine (signature Origin) (Choice Origin TokenNet) TokenWorld :=
  disciplined (tokenLink Origin) AnswersLate

/-- The client has consumed the first `k` tokens sent, and its commands went as listed. -/
structure Served (k : ℕ) (past : List (Exchange Origin)) (w : TokenWorld) : Prop where
  /-- The connection is open. -/
  connected : w.sockOpen = true
  /-- Acknowledgements and replies have been sent in turns. -/
  order : Continues 0 w.emitted
  /-- No more has been consumed than sent. -/
  position : k ≤ w.emitted.length
  /-- What is unread is the rest. -/
  unread : w.link = w.emitted.drop k
  /-- The exchanges recorded are those listed. -/
  went : exchanges w.trace = past
  /-- As many commands have been sent. -/
  count : w.commands = past.length

/-- A returned payload answers the command at the distance of the
acknowledgements missed so far. -/
def Shifted (past : List (Exchange Origin)) : Prop :=
  ∀ (n : ℕ) (exchange : Exchange Origin) (packet : Packet Origin), past[n]? = some exchange →
    exchange.payload = some packet → packet.tag = .reply (acknowledged (past.take n))

/-- Between commands, every acknowledgement consumed was counted. -/
structure Level (k : ℕ) (past : List (Exchange Origin)) (w : TokenWorld) : Prop extends
    Served k past w where
  /-- As many acknowledgements have been consumed as commands count as acknowledged. -/
  level : (k + 1) / 2 = acknowledged past
  /-- What each of them returned is as late as acknowledgements were missed before it. -/
  shifted : Shifted past

variable {k : ℕ} {past : List (Exchange Origin)} {w : TokenWorld}

/-- What the stub sends on its own is unread. -/
theorem Served.absorb (h : Served k past w) {acts : List (StubAct Origin)}
    (hacts : inOrder (w.emitted ++ acts.map StubAct.token) w.commands = true) :
    Served k past (w.absorb (tokenLink Origin) acts) := by
  obtain ⟨hlink, hemitted⟩ := World.absorb_open h.connected acts
  refine ⟨by simpa using h.connected, ?_, ?_, ?_, by simpa using h.went, by simpa using h.count⟩
  · rw [hemitted]
    exact inOrder_continues hacts
  · rw [hemitted, List.length_append]
    exact Nat.le_add_right_of_le h.position
  · rw [hlink, hemitted, h.unread, List.drop_append_of_le_length h.position]

/-- Each event is recorded in turn. -/
theorem exchanges_snoc (trace : List (Obs Origin)) (event : Obs Origin) :
    exchanges (trace ++ [event]) = record (exchanges trace) event := by
  simp [exchanges]

/-- Adding a command that returned nothing keeps the shift. -/
theorem Shifted.snoc {exchange : Exchange Origin} (h : Shifted past)
    (hpayload : ∀ packet, exchange.payload = some packet →
      packet.tag = .reply (acknowledged past)) : Shifted (past ++ [exchange]) := by
  intro n ex packet hn hp
  rcases Nat.lt_trichotomy n past.length with hlt | heq | hgt
  · rw [List.getElem?_append_left hlt] at hn
    rw [List.take_append_of_le_length hlt.le]
    exact h n ex packet hn hp
  · subst heq
    rw [List.getElem?_concat_length] at hn
    cases hn
    rw [List.take_left' rfl]
    exact hpayload packet hp
  · rw [List.getElem?_eq_none (by simp; omega)] at hn
    simp at hn

/-- Sending a command opens an exchange; a send does not fail here. -/
theorem wp_open_exchange (command : Command) (h : Served k past w) :
    (sendall (.packet command)).wp lateMachine (fun r w' => r = .ok () ∧
      Served k (past ++ [⟨false, none⟩]) w') w := by
  rw [wp_sendall]
  rintro c ⟨-, hacts, hresponse, hpermitted⟩
  dsimp only [withNet, withLink] at hacts hresponse
  have hserved := h.absorb hacts
  change onlyTimesOut (World.send (tokenLink Origin) (.packet command) c (w.absorb _ c.acts)).1 = true
    at hpermitted
  change (World.send (tokenLink Origin) (.packet command) c (w.absorb _ c.acts)).1 = .ok () ∧
    Served _ _ (World.send (tokenLink Origin) (.packet command) c (w.absorb _ c.acts)).2
  generalize w.absorb (tokenLink Origin) c.acts = v at hpermitted hserved ⊢
  rcases hsend : (World.send (tokenLink Origin) (.packet command) c v).1 with e | u
  · exfalso
    unfold World.send at hsend
    rw [if_pos hserved.connected] at hsend
    split_ifs at hsend with hfails
    simp only [World.send, if_pos hserved.connected, if_pos hfails, onlyTimesOut, World.sendError,
      isTimeout] at hpermitted
    exact absurd hpermitted (by simp)
  · obtain ⟨-, hdelivered⟩ := World.send_ok hsend
    rw [hdelivered]
    refine ⟨rfl, hserved.connected, ?_, ?_, ?_, ?_, ?_⟩
    · change Continues 0 (v.emitted ++ c.response)
      rw [hresponse, List.append_nil]
      exact hserved.order
    · change k ≤ (v.emitted ++ c.response).length
      rw [hresponse, List.append_nil]
      exact hserved.position
    · change v.link ++ c.response = (v.emitted ++ c.response).drop k
      rw [hresponse, List.append_nil, List.append_nil]
      exact hserved.unread
    · change exchanges (v.trace ++ [_]) = _
      rw [exchanges_snoc, hserved.went]
      rfl
    · change v.commands + 1 = _
      rw [hserved.count, List.length_append]
      rfl

/-- A token read on ordered answers moves the position forward. -/
theorem Served.advance {j : ℕ} {v : TokenWorld} (h : Served k past w)
    (hj : j ≤ w.link.length) (hlink : v.link = w.link.drop j) (hopen : v.sockOpen = true)
    (hemitted : v.emitted = w.emitted) (hcommands : v.commands = w.commands) :
    v.sockOpen = true ∧ Continues 0 v.emitted ∧ k + j ≤ v.emitted.length ∧
      v.link = v.emitted.drop (k + j) ∧ v.commands = past.length := by
  rw [h.unread, List.length_drop] at hj
  refine ⟨hopen, by rw [hemitted]; exact h.order, ?_, ?_, hcommands.trans h.count⟩
  · have hpos := h.position
    rw [hemitted]
    omega
  · rw [hlink, h.unread, List.drop_drop, hemitted]

/-- Reading the acknowledgement takes the next one due, or gives the command up. -/
theorem wp_await_ack (h : Served k (past ++ [⟨false, none⟩]) w)
    (hlevel : (k + 1) / 2 = acknowledged past) (hshifted : Shifted past) :
    (consumeAck : Code Origin Unit).wp lateMachine (fun r w' => match r with
      | .ok () => Served (2 * acknowledged past + 1) (past ++ [⟨false, none⟩]) w'
      | .error _ => ∃ k', Level k' (past ++ [⟨true, none⟩]) w') w := by
  rw [wp_consumeAck]
  rintro c ⟨-, hacts, -, hpermitted⟩
  dsimp only [withNet, withLink] at hacts
  have hserved := h.absorb hacts
  change onlyTimesOut (World.consumeAck (tokenLink Origin) c (w.absorb _ c.acts)).1 = true
    at hpermitted
  change match (World.consumeAck (tokenLink Origin) c (w.absorb _ c.acts)).1 with
    | .ok () => Served _ _ (World.consumeAck (tokenLink Origin) c (w.absorb _ c.acts)).2
    | .error _ => ∃ k', Level k' _ (World.consumeAck (tokenLink Origin) c (w.absorb _ c.acts)).2
  generalize w.absorb (tokenLink Origin) c.acts = v at hpermitted hserved ⊢
  rw [World.consumeAck_open hserved.connected] at hpermitted ⊢
  have hcontinues : Continues k v.link := by
    rw [hserved.unread]
    exact hserved.order.drop k
  have hread := takeAck_inOrder hcontinues c.net.ending c.net.arrived c.net.ackFails
  change AckResult k v.link ((tokenLink Origin).consumeAck c.net v.link) at hread
  generalize (tokenLink Origin).consumeAck c.net v.link = result at hread hpermitted ⊢
  rcases result with ⟨outcome, packets, left⟩
  cases outcome with
  | ok tag =>
    obtain ⟨j, hj, hleft, hpos⟩ := hread
    obtain ⟨hopen, horder, hposition, hunread, hcount⟩ := hserved.advance (v := {v with
      pendingReplies := v.pendingReplies ++ packets, link := left,
      trace := v.trace ++ [.acked tag]}) hj hleft hserved.connected rfl rfl
    rw [hpos, hlevel] at hposition hunread
    refine ⟨rfl, horder, hposition, hunread, ?_, hcount⟩
    change exchanges (v.trace ++ [_]) = _
    rw [exchanges_snoc, hserved.went]
    rfl
  | error e =>
    obtain ⟨j, hj, hleft, hpos⟩ := hread hpermitted
    have hstill : (!World.losesConnection (.error e : Except PyError Origin)) = true := by
      obtain ⟨message, rfl⟩ := eq_of_isTimeout hpermitted
      rfl
    obtain ⟨-, horder, hposition, hunread, hcount⟩ := hserved.advance (v := {v with
      pendingReplies := v.pendingReplies ++ packets, link := left,
      trace := v.trace ++ [.ackFault e]}) hj hleft hserved.connected rfl rfl
    refine ⟨k + j, ⟨⟨hstill, horder, hposition, hunread, ?_, ?_⟩, ?_, ?_⟩⟩
    · change exchanges (v.trace ++ [_]) = _
      rw [exchanges_snoc, hserved.went]
      exact onLast_append _ _ _
    · simpa using hcount
    · rw [hpos, hlevel, acknowledged_append]
      rfl
    · exact hshifted.snoc (by simp)

/-- Reading the reply returns the one due, or leaves it for later. -/
theorem wp_await_reply (timeout : Option ℕ)
    (h : Served (2 * acknowledged past + 1) (past ++ [⟨false, none⟩]) w) (hshifted : Shifted past) :
    (readPacketFromWire timeout).wp lateMachine (fun _ w' =>
      ∃ k' payload, Level k' (past ++ [⟨false, payload⟩]) w') w := by
  rw [wp_readPacketFromWire]
  rintro c ⟨-, hacts, -, hpermitted⟩
  dsimp only [withNet, withLink] at hacts
  have hserved := h.absorb hacts
  change onlyTimesOut (World.readPacket (tokenLink Origin) c (w.absorb _ c.acts)).1 = true
    at hpermitted
  change ∃ k' payload, Level k' _ (World.readPacket (tokenLink Origin) c (w.absorb _ c.acts)).2
  generalize w.absorb (tokenLink Origin) c.acts = v at hpermitted hserved ⊢
  rw [World.readPacket_open hserved.connected] at hpermitted ⊢
  have hcontinues : Continues (2 * acknowledged past + 1) v.link := by
    rw [hserved.unread]
    exact hserved.order.drop _
  have hread := takeFrame_inOrder hcontinues (by omega) c.net
  change ReadResult _ v.link ((tokenLink Origin).readPacket c.net v.link) at hread
  generalize (tokenLink Origin).readPacket c.net v.link = result at hread hpermitted ⊢
  rcases result with ⟨e | packet, left⟩
  · have hleft : left = v.link := hread hpermitted
    have hstill : (!World.losesConnection (.error e : Except PyError (Packet Origin))) = true := by
      obtain ⟨message, rfl⟩ := eq_of_isTimeout hpermitted
      rfl
    refine ⟨2 * acknowledged past + 1, none, ⟨⟨hstill, hserved.order, hserved.position, ?_, ?_,
      hserved.count⟩, ?_, hshifted.snoc (by simp)⟩⟩
    · exact hleft.trans hserved.unread
    · change exchanges (v.trace ++ [_]) = _
      rw [exchanges_snoc, hserved.went]
      rfl
    · rw [acknowledged_append]
      change _ = _ + 1
      omega
  · obtain ⟨htag, hlength, hleft⟩ := hread
    obtain ⟨-, horder, hposition, hunread, hcount⟩ := hserved.advance (v := {v with
      link := left, trace := v.trace ++ [.got packet]}) hlength hleft hserved.connected rfl rfl
    refine ⟨2 * acknowledged past + 1 + 1, some packet, ⟨⟨rfl, horder, hposition, hunread, ?_, ?_⟩,
      ?_, ?_⟩⟩
    · change exchanges (v.trace ++ [_]) = _
      rw [exchanges_snoc, hserved.went]
      exact onLast_append _ _ _
    · simpa using hcount
    · rw [acknowledged_append]
      change _ = _ + 1
      omega
    · refine hshifted.snoc fun p hp => ?_
      obtain rfl := Option.some.inj hp
      rw [htag, show (2 * acknowledged past + 1) / 2 = acknowledged past by omega]

end Serving

section Requests

/-- Between commands, for some position and past. -/
def Between (w : TokenWorld) : Prop := ∃ k past, Level k past w

/-- A command sent by hand, whose reply is then read off the wire. -/
theorem keeps_exchange {α : Type} (command : Command) (timeout : Option ℕ)
    {f : Packet Origin → Code Origin α} (hf : ∀ packet, Program.Keeps lateMachine Between (f packet)) :
    Program.Keeps lateMachine Between
      ((sendPacket command).bind fun _ => (readPacketFromWire timeout).bind f) := by
  rintro w ⟨k, past, h⟩
  simp only [sendPacket, Program.bind_eq, Program.wp_bind]
  refine Program.wp_mono ?_ (wp_open_exchange command h.toServed)
  rintro r v ⟨rfl, hopened⟩
  rw [Program.onValue_ok]
  refine Program.wp_mono ?_ (wp_await_ack hopened h.level h.shifted)
  intro r v' hv'
  cases r with
  | error e => exact ⟨_, _, hv'.choose_spec⟩
  | ok u =>
    rw [Program.onValue_ok, Program.wp_bind]
    refine Program.wp_mono ?_ (wp_await_reply timeout hv' h.shifted)
    rintro r v'' ⟨k', payload, hlevel⟩
    cases r with
    | error e => exact ⟨_, _, hlevel⟩
    | ok packet => exact hf packet v'' ⟨_, _, hlevel⟩

/-- A command keeps the client between commands. -/
theorem keeps_cmd {α : Type} (command : Command) {f : Packet Origin → Code Origin α}
    (hf : ∀ packet, Program.Keeps lateMachine Between (f packet)) :
    Program.Keeps lateMachine Between ((cmd command).bind f) := by
  have hassoc : (cmd command).bind f =
      (sendPacket command).bind fun _ => (readPacketFromWire none).bind f := by
    simp only [cmd, Program.bind_eq]
    exact Program.bind_assoc _ _ _
  rw [hassoc]
  exact keeps_exchange command none hf

/-- The socket timeout is no part of the account. -/
theorem keeps_setTimeout (timeout : ℕ) :
    Program.Keeps lateMachine Between (access (.setTimeout timeout)) := by
  rintro w ⟨k, past, h⟩ c -
  exact ⟨k, past, ⟨⟨h.connected, h.order, h.position, h.unread, h.went, h.count⟩, h.level, h.shifted⟩⟩

/-- So does a probe. -/
theorem keeps_probeResponsive (timeout : ℕ) :
    Program.Keeps lateMachine Between (probeResponsive timeout) := by
  unfold probeResponsive
  refine Program.keeps_bind (fun w h c _ => h) fun isOpen => ?_
  cases isOpen with
  | false => exact Program.keeps_done _
  | true =>
    refine Program.keeps_bind (fun w h c _ => h) fun old => ?_
    refine Program.keeps_bind (keeps_setTimeout timeout) fun _ => ?_
    refine Program.keeps_ensuring (Program.keeps_handle ?_ fun e => ?_) (keeps_setTimeout old)
    · exact keeps_exchange .currentThread (some timeout) fun packet => Program.keeps_done _
    · split_ifs
      · exact Program.keeps_done _
      · exact Program.keeps_raise _

/-- Every operation keeps the account, whatever it makes of its reply. -/
theorem keeps_request (request : Request) :
    Program.Keeps lateMachine Between (request.code : Code Origin Unit) := by
  have hdrop : ∀ {α : Type} {p : Code Origin α}, Program.Keeps lateMachine Between p →
      Program.Keeps lateMachine Between (p.bind fun _ => Program.done ()) :=
    fun hp => Program.keeps_bind hp fun _ => Program.keeps_done ()
  cases request with
  | readRegister regnum => exact hdrop (keeps_cmd _ fun _ => Program.keeps_done _)
  | readRegisterBytes regnum => exact hdrop (keeps_cmd _ fun _ => Program.keeps_done _)
  | readRegisters =>
    exact hdrop (keeps_cmd _ fun _ =>
      Program.keeps_bind (Program.keeps_ofExcept _) fun _ => Program.keeps_ofExcept _)
  | readMem addr size =>
    exact hdrop (keeps_cmd _ fun _ =>
      Program.keeps_bind (Program.keeps_ofExcept _) fun _ => Program.keeps_ofExcept _)
  | writeMem addr data =>
    refine keeps_cmd _ fun reply => Program.keeps_bind (Program.keeps_ofExcept _) fun _ => ?_
    split_ifs
    · exact Program.keeps_raise _
    · exact Program.keeps_done _
  | setBreak insert kind addr size =>
    refine hdrop (keeps_cmd _ fun reply => ?_)
    split_ifs
    · exact Program.keeps_raise _
    · exact Program.keeps_raise _
    · exact Program.keeps_done _
  | whyHalted =>
    refine hdrop ?_
    have hcmd := keeps_cmd .whyHalted (f := Program.done) fun _ => Program.keeps_done _
    rwa [Program.bind_done] at hcmd
  | probeResponsive timeout => exact hdrop (keeps_probeResponsive timeout)

/-- So does every sequence of requests. -/
theorem keeps_serveAll (requests : List Request) :
    Program.Keeps lateMachine Between (serveAll requests) := by
  induction requests with
  | nil => exact Program.keeps_done ()
  | cons request requests ih =>
    exact Program.keeps_bind (Program.keeps_attempt (keeps_request request)) fun _ => ih

end Requests

/-- The account of a run starts empty. -/
theorem between_start {w : TokenWorld} (hopen : w.sockOpen = true) (hlink : w.link = [])
    (hemitted : w.emitted = []) (htrace : w.trace = []) (hcommands : w.commands = 0) :
    Between w :=
  ⟨0, [], ⟨⟨hopen, by simp [hemitted, Continues], by simp, by simp [hlink, hemitted],
    by simp [htrace, exchanges], hcommands⟩, rfl, by simp [Shifted]⟩⟩

/-- Under late answers in order, a command of the run returns the reply to
itself exactly when no earlier command gave up waiting for its acknowledgement. -/
theorem reply_is_own_iff_no_missed_ack (requests : List Request)
    (script : List (Choice Origin Net)) (w : World Origin (Buffers Origin))
    (hfresh : w.sockOpen = true ∧ w.link.unread = [] ∧ w.emitted = [] ∧ w.trace = [] ∧
      w.commands = 0)
    (hstub : (serveAll requests).Follows (byteMachine AnswersLate) script w) :
    ∀ (n : ℕ) (exchange : Exchange Origin) (packet : Packet Origin),
      (exchanges ((serveAll requests).run (byteMachine AnswersLate) script w).2.1.trace)[n]? =
        some exchange → exchange.payload = some packet →
      (packet.tag = .reply n ↔ ∀ earlier ∈ (exchanges ((serveAll requests).run
        (byteMachine AnswersLate) script w).2.1.trace).take n, earlier.ackTimedOut = false) := by
  obtain ⟨hopen, hunread, hemitted, htrace, hcommands⟩ := hfresh
  have htokens := keeps_serveAll requests (withLink w ([] : Tokens))
    (between_start hopen rfl hemitted htrace hcommands)
  have hbytes := (disciplined_simulates byteLink_refines AnswersLate).wp
    (Q := fun _ v => Shifted (exchanges v.trace))
    (by
      rintro r v v' ⟨l, rfl, -⟩ ⟨k, past, hlevel⟩
      have hwent : exchanges v.trace = past := hlevel.went
      rw [hwent]
      exact hlevel.shifted)
    (⟨[], rfl, hunread⟩ : Same Renders w (withLink w [])) htokens
  have hshifted := Program.run_of_wp hbytes hstub
  intro n exchange packet hn hpayload
  rw [hshifted n exchange packet hn hpayload, ← acknowledged_eq_length_iff]
  have hlength := (List.getElem?_eq_some_iff.mp hn).1
  rw [List.length_take_of_le hlength.le]
  simp

section Sample

/-- The reply to the read of one register. -/
def registerBody : Body := ⟨asciiBytes "80003100".toList, by decide⟩

/-- Ask why the target halted, then read the program counter. -/
def lateRequests : List Request := [.whyHalted, .readRegister 0x40]

/-- The first command gives up before its acknowledgement; acknowledgement and
reply arrive while the second one waits. -/
def lateScript : List (Choice Origin Net) :=
  [{net := default},
    {net := default},
    {net := default},
    {net := trickle, acts := [⟨.ack (.reply 0), false⟩, ⟨.frame stopBody (.reply 0), false⟩]},
    {net := trickle, acts := [⟨.ack (.reply 1), false⟩, ⟨.frame registerBody (.reply 1), false⟩]}]

/-- The late run at its end. -/
def lateEnd : World Origin (Buffers Origin) :=
  ((serveAll lateRequests).run (byteMachine AnswersLate) lateScript connectedWorld).2.1

/-- After a missed acknowledgement the reply is the one to the command before. -/
theorem reply_is_own_iff_no_missed_ack_late :
    (framePacket stopBody (Origin.reply 0)).tag = .reply 1 ↔
      ∀ earlier ∈ (exchanges lateEnd.trace).take 1, earlier.ackTimedOut = false := by
  have hread : (exchanges lateEnd.trace)[1]? =
      some ⟨false, some (framePacket stopBody (.reply 0))⟩ := by decide +kernel
  exact reply_is_own_iff_no_missed_ack lateRequests lateScript connectedWorld (by decide)
    (by decide +kernel) 1 _ _ hread rfl

/-- The register read returns the reply to the command that gave up before it. -/
theorem late_reply_goes_to_the_next_command :
    ∃ (requests : List Request) (script : List (Choice Origin Net)),
      (serveAll requests).Follows (byteMachine AnswersLate) script connectedWorld ∧
      ¬∀ (n : ℕ) (exchange : Exchange Origin) (packet : Packet Origin),
        (exchanges ((serveAll requests).run (byteMachine AnswersLate) script
          connectedWorld).2.1.trace)[n]? = some exchange →
        exchange.payload = some packet → packet.tag = .reply n := by
  refine ⟨lateRequests, lateScript, by decide +kernel, fun hown => ?_⟩
  have hread : (exchanges lateEnd.trace)[1]? =
      some ⟨false, some (framePacket stopBody (.reply 0))⟩ := by decide +kernel
  have htag := hown 1 _ _ hread rfl
  exact absurd htag (by decide)

end Sample

end DolphinRe.LateReplies
