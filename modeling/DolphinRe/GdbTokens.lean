import DolphinRe.StreamDecoding

/-!
# Token-level readers and their refinement

A link is what the client's two readers act on. The byte link follows the
client's loops; the token link only counts how many tokens arrive before the
read ends. Every call on the byte link is a call on the token link with the
same answer, so statements about tokens hold of bytes.
-/

namespace DolphinRe.GdbTokens

open GdbPackets GdbWire
open StreamDecoding (recv_ok recv_short recv_error fillUntil_ok firstPacket firstPacket_split
  exists_of_firstPacket readPacketFromWire_stream)

/-- How a read ends when what it waits for does not arrive. -/
inductive Ending where
  | timeout
  | reset
  | lost (message : String)
  deriving DecidableEq, Repr

/-- The exception a read ends with. -/
def Ending.error : Ending → PyError
  | .timeout => timedOut
  | .reset => connectionReset
  | .lost message => .connectionLost message

/-- A lost connection takes the unread data with it. -/
def Ending.left {α : Type} : Ending → List α → List α
  | .lost _, _ => []
  | _, unread => unread

/-- What the network does during one call on the token link. -/
structure TokenNet where
  /-- Number of tokens that arrive; `none` when nothing is held back. -/
  arrived : Option ℕ
  /-- How the read ends when it needs more than what arrives. -/
  ending : Ending
  /-- Successive failures of the client's acknowledgements. -/
  ackFails : List Bool
  deriving DecidableEq, Repr

instance : Inhabited TokenNet := ⟨⟨none, .timeout, []⟩⟩

section TokenReaders

variable {τ : Type}

/-- Take tokens up to the first acknowledgement, stashing frames. -/
def takeAck (ending : Ending) : Option ℕ → List Bool → List (Token τ) →
    Except PyError τ × List (Packet τ) × List (Token τ)
  | _, _, [] => (.error ending.error, [], [])
  | arrived, fails, token :: rest =>
    if arrived = some 0 then (.error ending.error, [], ending.left (token :: rest))
    else match token with
      | .ack tag => (.ok tag, [], rest)
      | .stray byte _ => (.error (unexpectedAck byte.val), [], rest)
      | .frame body tag =>
        if fails.headD false then (.error (.connectionLost "ack send failed"), [], [])
        else match takeAck ending (arrived.map (· - 1)) fails.tail rest with
          | (outcome, packets, left) => (outcome, framePacket body tag :: packets, left)

/-- The first frame among the tokens that arrive, and what follows it. -/
def firstFrame : Option ℕ → List (Token τ) → Option (Packet τ × List (Token τ))
  | _, [] => none
  | arrived, token :: rest =>
    if arrived = some 0 then none
    else match token with
      | .frame body tag => some (framePacket body tag, rest)
      | _ => firstFrame (arrived.map (· - 1)) rest

/-- Take the first frame, dropping what precedes it; a read that ends early
leaves every token in place. -/
def takeFrame (net : TokenNet) (tokens : List (Token τ)) :
    Except PyError (Packet τ) × List (Token τ) :=
  match firstFrame net.arrived tokens with
  | none => (.error net.ending.error, net.ending.left tokens)
  | some (packet, rest) =>
    if net.ackFails.headD false then (.error (.connectionLost "ack send failed"), [])
    else (.ok packet, rest)

end TokenReaders

/-- The receiving side of a connection: `N` is what the network decides during
one call. -/
structure Link (τ N L : Type) where
  /-- Nothing received and nothing on the wire. -/
  fresh : L
  /-- The stub sends tokens. -/
  emit : List (Token τ) → L → L
  /-- `_consume_ack`: tag of the acknowledgement and stashed packets. -/
  consumeAck : N → L → Except PyError τ × List (Packet τ) × L
  /-- `_read_packet_from_wire`. -/
  readPacket : N → L → Except PyError (Packet τ) × L

/-- The link that reads bytes as the client does. -/
def byteLink (τ : Type) : Link τ Net (Buffers τ) where
  fresh := .empty
  emit := Buffers.emit
  consumeAck net b := consumeAck b net
  readPacket net b := ((readPacketFromWire b net).1, (readPacketFromWire b net).2.1)

/-- The link that reads whole tokens. -/
def tokenLink (τ : Type) : Link τ TokenNet (List (Token τ)) where
  fresh := []
  emit new tokens := tokens ++ new
  consumeAck net tokens := takeAck net.ending net.arrived net.ackFails tokens
  readPacket net tokens := takeFrame net tokens

/-- One link refines another: related states stay related, and whatever the
network does to the first has a counterpart with the same answer. -/
structure Refines {τ N N' L L' : Type} (A : Link τ N L) (B : Link τ N' L')
    (R : L → L' → Prop) : Prop where
  /-- New connections are related. -/
  fresh : R A.fresh B.fresh
  /-- They stay related when the stub sends something. -/
  emit : ∀ new l l', R l l' → R (A.emit new l) (B.emit new l')
  /-- Reads of an acknowledgement match, with what they stash. -/
  consumeAck : ∀ net l l', R l l' → ∃ net',
    (A.consumeAck net l).1 = (B.consumeAck net' l').1 ∧
    (A.consumeAck net l).2.1 = (B.consumeAck net' l').2.1 ∧
    R (A.consumeAck net l).2.2 (B.consumeAck net' l').2.2
  /-- Reads of a packet match. -/
  readPacket : ∀ net l l', R l l' → ∃ net',
    (A.readPacket net l).1 = (B.readPacket net' l').1 ∧
    R (A.readPacket net l).2 (B.readPacket net' l').2

section Interruptions

variable {τ : Type}

/-- How a failed read leaves the unread bytes. -/
def Interrupted (e : PyError) (before after : List (Cell τ)) : Prop :=
  ∃ ending : Ending, e = ending.error ∧ after = ending.left before

theorem Interrupted.of_recv {e : PyError} (h : e = timedOut ∨ e = connectionReset)
    (unread : List (Cell τ)) : Interrupted e unread unread := by
  cases h with
  | inl h => exact ⟨.timeout, h, rfl⟩
  | inr h => exact ⟨.reset, h, rfl⟩

theorem Interrupted.of_lost (message : String) (unread : List (Cell τ)) :
    Interrupted (.connectionLost message) unread [] :=
  ⟨.lost message, rfl, rfl⟩

/-- The read-more loop raises without losing bytes, unless the connection is lost. -/
theorem fillUntil_error {ready : List (Cell τ) → Bool} {lost : String} {b b' : Buffers τ}
    {arrivals rest : List Arrival} {e : PyError}
    (h : fillUntil ready lost b arrivals = (.error e, b', rest)) :
    Interrupted e b.unread b'.unread := by
  induction arrivals generalizing b with
  | nil =>
    unfold fillUntil at h
    split_ifs at h with hr
    · simp at h
    · simp only [Prod.mk.injEq, Except.error.injEq] at h
      rw [← h.1, ← h.2.1]
      exact Interrupted.of_recv (Or.inl rfl) _
  | cons arrival arrivals ih =>
    unfold fillUntil at h
    split_ifs at h with hr
    · simp at h
    · split at h
      · simp only [Prod.mk.injEq, Except.error.injEq] at h
        rw [← h.1, ← h.2.1]
        exact Interrupted.of_lost _ _
      · rename_i chunk wire' hne hrecv
        have hi := ih h
        cases chunk with
        | nil => exact (hne rfl).elim
        | cons c chunk =>
          have hw := recv_ok c hrecv
          simp only [Buffers.unread, List.append_assoc] at hi ⊢
          rwa [hw] at hi
      · rename_i e' wire' hrecv
        simp only [Prod.mk.injEq, Except.error.injEq] at h
        obtain ⟨hw, he⟩ := recv_error hrecv
        rw [← h.1, ← h.2.1, hw]
        exact Interrupted.of_recv he _

end Interruptions

section Endings

variable {τ : Type}

theorem renderAll_left (ending : Ending) (ts : List (Token τ)) :
    renderAll (ending.left ts) = ending.left (renderAll ts) := by
  cases ending <;> rfl

theorem takeAck_none (ending : Ending) (fails : List Bool) (ts : List (Token τ)) :
    takeAck ending (some 0) fails ts = (.error ending.error, [], ending.left ts) := by
  cases ts with
  | nil => cases ending <;> rfl
  | cons t ts => rfl

theorem takeAck_frame (ending : Ending) (arrived : Option ℕ) (fails : List Bool) (body : Body)
    (tag : τ) (ts : List (Token τ)) :
    takeAck ending (arrived.map (· + 1)) (false :: fails) (.frame body tag :: ts) =
      ((takeAck ending arrived fails ts).1,
        framePacket body tag :: (takeAck ending arrived fails ts).2.1,
        (takeAck ending arrived fails ts).2.2) := by
  cases arrived <;> simp [takeAck]

theorem firstFrame_none (ts : List (Token τ)) : firstFrame (some 0) ts = none := by
  cases ts <;> rfl

theorem firstFrame_of_frameless {before : List (Token τ)}
    (h : ∀ t ∈ before, Token.isFrame t = false) (body : Body) (tag : τ) (after : List (Token τ)) :
    firstFrame none (before ++ .frame body tag :: after) = some (framePacket body tag, after) := by
  induction before with
  | nil => rfl
  | cons t before ih =>
    have hrest := ih fun u hu => h u (List.mem_cons_of_mem t hu)
    have ht := h t List.mem_cons_self
    cases t with
    | frame body tag => simp [Token.isFrame] at ht
    | ack tag => simpa [firstFrame] using hrest
    | stray byte tag => simpa [firstFrame] using hrest

end Endings

section PacketReader

variable {τ : Type}

/-- A rendered stream that contains `$` starts with frameless tokens, then a frame. -/
theorem exists_frame {ts : List (Token τ)} (h : (renderAll ts).any isDollar = true) :
    ∃ before body tag after, ts = before ++ .frame body tag :: after ∧
      ∀ t ∈ before, Token.isFrame t = false := by
  induction ts with
  | nil => simp at h
  | cons t ts ih =>
    cases t with
    | frame body tag => exact ⟨[], body, tag, ts, rfl, by simp⟩
    | ack tag =>
      have ht : (renderAll ts).any isDollar = true := by
        simpa [Token.render, isDollar] using h
      obtain ⟨before, body, tag', after, rfl, hb⟩ := ih ht
      exact ⟨.ack tag :: before, body, tag', after, rfl, by simpa [Token.isFrame] using hb⟩
    | stray byte tag =>
      have ht : (renderAll ts).any isDollar = true := by
        have hne := byte.property.1
        simpa [Token.render, isDollar, hne] using h
      obtain ⟨before, body, tag', after, rfl, hb⟩ := ih ht
      exact ⟨.stray byte tag :: before, body, tag', after, rfl, by simpa [Token.isFrame] using hb⟩

theorem hash_free_cells (tag : τ) (body : Body) : ∀ c ∈ cells tag body.val, isHash c = false := by
  intro c hc
  obtain ⟨b, hb, rfl⟩ := List.mem_map.mp hc
  have hne : b ≠ 35 := fun h => body.property (h ▸ hb)
  simp [isHash, hne]

/-- The stream behind the `$` of a frame. -/
def afterDollar (body : Body) (tag : τ) (after : List (Token τ)) : List (Cell τ) :=
  cells tag body.val ++ ⟨35, tag⟩ :: (cells tag (checksumField body.val) ++ renderAll after)

theorem renderAll_frame (before : List (Token τ)) (body : Body) (tag : τ)
    (after : List (Token τ)) : renderAll (before ++ .frame body tag :: after) =
      renderAll before ++ ⟨36, tag⟩ :: afterDollar body tag after := by
  simp [Token.render, afterDollar]

/-- The first packet of a rendered stream is its first frame. -/
theorem firstPacket_renderAll {ts : List (Token τ)} {packet : Packet τ} {rest : List (Cell τ)}
    (h : firstPacket (renderAll ts) = some (packet, rest)) :
    ∃ before body tag after, ts = before ++ .frame body tag :: after ∧
      (∀ t ∈ before, Token.isFrame t = false) ∧ packet = framePacket body tag ∧ rest = renderAll after := by
  have hdollar : (renderAll ts).any isDollar = true := by
    obtain ⟨before, dollar, payload, hash, x, y, hts, -, hdollar, -⟩ := exists_of_firstPacket h
    rw [hts, List.any_append, List.any_cons, hdollar, Bool.true_or, Bool.or_true]
  obtain ⟨before, body, tag, after, rfl, hbefore⟩ := exists_frame hdollar
  have hclean : ∀ c ∈ renderAll before, isDollar c = false := fun c hc => by
    simp [isDollar, dollar_free_render hbefore c hc]
  -- the checksum field is two bytes long
  have hfirst : firstPacket (renderAll (before ++ .frame body tag :: after)) =
      some (⟨decodeReplace ((cells tag body.val).map Cell.byte), tag⟩, renderAll after) := by
    rw [renderAll_frame]
    exact firstPacket_split hclean rfl (hash_free_cells tag body) rfl
  rw [hfirst, Option.some.injEq, Prod.mk.injEq] at h
  refine ⟨before, body, tag, after, rfl, hbefore, ?_, h.2.symm⟩
  rw [← h.1]
  simp [framePacket, cells, Function.comp_def]

/-- A packet read off the wire is the first frame, and what follows it stays unread. -/
theorem readPacketFromWire_ok {ts : List (Token τ)} {b b' : Buffers τ} {net net' : Net}
    {packet : Packet τ} (hb : b.unread = renderAll ts)
    (h : readPacketFromWire b net = (.ok packet, b', net')) :
    ∃ before body tag after, ts = before ++ .frame body tag :: after ∧
      (∀ t ∈ before, Token.isFrame t = false) ∧ packet = framePacket body tag ∧
      b'.unread = renderAll after := by
  have hfirst := readPacketFromWire_stream h
  rw [hb] at hfirst
  exact firstPacket_renderAll hfirst

/-- A packet read that raises keeps every unread byte, unless the connection is lost. -/
theorem readPacketFromWire_error {b b' : Buffers τ} {net net' : Net} {e : PyError}
    (h : readPacketFromWire b net = (.error e, b', net')) :
    Interrupted e b.unread b'.unread := by
  unfold readPacketFromWire at h
  split at h
  · rename_i h₁
    simp only [Prod.mk.injEq, Except.error.injEq] at h
    rw [← h.1, ← h.2.1]
    exact fillUntil_error h₁
  rename_i b₁ rest₁ h₁
  rw [← (fillUntil_ok h₁).2.1]
  split at h
  · simp only [Prod.mk.injEq, Except.error.injEq] at h
    rw [← h.1, ← h.2.1]
    exact Interrupted.of_recv (Or.inl rfl) _
  dsimp only at h
  split at h
  · rename_i h₂
    simp only [Prod.mk.injEq, Except.error.injEq] at h
    rw [← h.1, ← h.2.1]
    exact fillUntil_error h₂
  rename_i b₂ rest₂ h₂
  rw [← (fillUntil_ok h₂).2.1]
  split at h
  · rename_i h₃
    simp only [Prod.mk.injEq, Except.error.injEq] at h
    rw [← h.1, ← h.2.1]
    exact fillUntil_error h₃
  rw [← (fillUntil_ok (by assumption)).2.1]
  split_ifs at h
  · simp only [Prod.mk.injEq, Except.error.injEq] at h
    rw [← h.1, ← h.2.1]
    exact Interrupted.of_lost _ _
  · simp at h

/-- `_read_packet_from_wire` on bytes is `takeFrame` on tokens. -/
theorem readPacket_refines (net : Net) {b : Buffers τ} {ts : List (Token τ)}
    (hb : b.unread = renderAll ts) : ∃ net' : TokenNet,
      (readPacketFromWire b net).1 = (takeFrame net' ts).1 ∧
      (readPacketFromWire b net).2.1.unread = renderAll (takeFrame net' ts).2 := by
  rcases hread : readPacketFromWire b net with ⟨outcome, b', net₁⟩
  cases outcome with
  | ok packet =>
    obtain ⟨before, body, tag, after, rfl, hbefore, rfl, hafter⟩ := readPacketFromWire_ok hb hread
    refine ⟨⟨none, .timeout, []⟩, ?_⟩
    rw [takeFrame, firstFrame_of_frameless hbefore]
    exact ⟨rfl, hafter⟩
  | error e =>
    obtain ⟨ending, rfl, hleft⟩ := readPacketFromWire_error hread
    refine ⟨⟨some 0, ending, []⟩, ?_⟩
    rw [takeFrame, firstFrame_none]
    refine ⟨rfl, ?_⟩
    rw [hleft, hb]
    exact (renderAll_left ending ts).symm

end PacketReader

section AckReader

variable {τ : Type}

/-- One missing byte takes one `recv`. -/
theorem readMissing_one (wire : List (Cell τ)) (arrival : Arrival) (arrivals : List Arrival) :
    readMissing 1 [] wire (arrival :: arrivals) = match recv 1 arrival wire with
      | (.ok [], _) => (.error (.connectionLost "socket closed mid-read"), .empty, arrivals)
      | (.ok (c :: chunk), wire') => (.ok (c :: chunk), ⟨[], wire'⟩, arrivals)
      | (.error e, wire') => (.error e, ⟨[], wire'⟩, arrivals) := by
  rw [readMissing, if_neg (by simp)]
  rcases recv 1 arrival wire with ⟨_ | ⟨_ | ⟨c, chunk⟩⟩, wire'⟩
  · rfl
  · rfl
  · cases arrivals <;> simp [readMissing]

/-- Reading one byte takes the first unread one. -/
theorem readExact_one_ok {b b' : Buffers τ} {arrivals rest : List Arrival} {out : List (Cell τ)}
    (h : readExact 1 b arrivals = (.ok out, b', rest)) :
    ∃ c, out = [c] ∧ b.unread = c :: b'.unread := by
  rcases b with ⟨_ | ⟨c, buf⟩, wire⟩
  · rw [readExact, if_neg (by simp), List.take_nil] at h
    cases arrivals with
    | nil => simp [readMissing] at h
    | cons arrival arrivals =>
      rw [readMissing_one] at h
      rcases hrecv : recv 1 arrival wire with ⟨_ | ⟨_ | ⟨c, chunk⟩⟩, wire'⟩
      · simp [hrecv] at h
      · simp [hrecv] at h
      · simp only [hrecv, Prod.mk.injEq, Except.ok.injEq] at h
        have hw := recv_ok c hrecv
        have hshort := recv_short hrecv
        have hnil : chunk = [] := List.length_eq_zero_iff.mp (by simpa using hshort)
        subst hnil
        exact ⟨c, h.1.symm, by rw [← h.2.1, Buffers.unread, List.nil_append, ← hw]; rfl⟩
  · rw [readExact, if_pos (by simp)] at h
    simp only [List.take_succ_cons, List.take_zero, List.drop_succ_cons, List.drop_zero,
      Prod.mk.injEq, Except.ok.injEq] at h
    exact ⟨c, h.1.symm, by rw [← h.2.1]; rfl⟩

/-- Failing to read one byte keeps every unread byte, unless the connection is lost. -/
theorem readExact_one_error {b b' : Buffers τ} {arrivals rest : List Arrival} {e : PyError}
    (h : readExact 1 b arrivals = (.error e, b', rest)) :
    Interrupted e b.unread b'.unread := by
  rcases b with ⟨_ | ⟨c, buf⟩, wire⟩
  · rw [readExact, if_neg (by simp), List.take_nil] at h
    cases arrivals with
    | nil =>
      simp only [readMissing, List.length_nil, Nat.le_zero_eq, Nat.one_ne_zero, if_false,
        Prod.mk.injEq, Except.error.injEq] at h
      rw [← h.1, ← h.2.1]
      exact Interrupted.of_recv (Or.inl rfl) _
    | cons arrival arrivals =>
      rw [readMissing_one] at h
      rcases hrecv : recv 1 arrival wire with ⟨e' | ⟨_ | ⟨c, chunk⟩⟩, wire'⟩
      · obtain ⟨hw, he⟩ := recv_error hrecv
        simp only [hrecv, Prod.mk.injEq, Except.error.injEq] at h
        rw [← h.1, ← h.2.1, hw]
        exact Interrupted.of_recv he _
      · simp only [hrecv, Prod.mk.injEq, Except.error.injEq] at h
        rw [← h.1, ← h.2.1]
        exact Interrupted.of_lost _ _
      · simp [hrecv] at h
  · simp [readExact] at h

/-- The first unread byte tells the first unread token. -/
theorem head_token {ts : List (Token τ)} {c : Cell τ} {unread : List (Cell τ)}
    (h : renderAll ts = c :: unread) :
    (∃ tag rest, ts = .ack tag :: rest ∧ c = ⟨43, tag⟩ ∧ unread = renderAll rest) ∨
    (∃ byte tag rest, ts = .stray byte tag :: rest ∧ c = ⟨byte.val, tag⟩ ∧
      unread = renderAll rest) ∨
    (∃ body tag rest, ts = .frame body tag :: rest ∧ c = ⟨36, tag⟩ ∧
      unread = afterDollar body tag rest) := by
  cases ts with
  | nil => simp at h
  | cons t rest =>
    cases t with
    | ack tag =>
      simp only [renderAll_cons, Token.render, List.singleton_append, List.cons.injEq] at h
      exact Or.inl ⟨tag, rest, rfl, h.1.symm, h.2.symm⟩
    | stray byte tag =>
      simp only [renderAll_cons, Token.render, List.singleton_append, List.cons.injEq] at h
      exact Or.inr (Or.inl ⟨byte, tag, rest, rfl, h.1.symm, h.2.symm⟩)
    | frame body tag =>
      have hframe := renderAll_frame [] body tag rest
      rw [List.nil_append, renderAll_nil, List.nil_append, h, List.cons.injEq] at hframe
      exact Or.inr (Or.inr ⟨body, tag, rest, rfl, hframe.1, hframe.2⟩)

/-- `_consume_ack` on bytes is `takeAck` on tokens, as long as the fuel counts
every unread byte. -/
theorem consumeAckLoop_refines (fuel : ℕ) (net : Net) {b : Buffers τ} {ts : List (Token τ)}
    (hb : b.unread = renderAll ts) (hfuel : b.unread.length < fuel) : ∃ net' : TokenNet,
      (consumeAckLoop fuel b net).1 = (takeAck net'.ending net'.arrived net'.ackFails ts).1 ∧
      (consumeAckLoop fuel b net).2.1 = (takeAck net'.ending net'.arrived net'.ackFails ts).2.1 ∧
      (consumeAckLoop fuel b net).2.2.unread =
        renderAll (takeAck net'.ending net'.arrived net'.ackFails ts).2.2 := by
  induction fuel generalizing b ts net with
  | zero => omega
  | succ fuel ih =>
    rw [consumeAckLoop]
    rcases hread : readExact 1 b net.arrivals with ⟨e | out, b₁, rest⟩
    · obtain ⟨ending, rfl, hleft⟩ := readExact_one_error hread
      refine ⟨⟨some 0, ending, []⟩, ?_⟩
      rw [takeAck_none, hleft, hb]
      exact ⟨rfl, rfl, (renderAll_left ending ts).symm⟩
    obtain ⟨c, rfl, hcons⟩ := readExact_one_ok hread
    dsimp only
    rcases head_token (hb.symm.trans hcons) with ⟨tag, ts', rfl, rfl, hrest⟩ |
      ⟨byte, tag, ts', rfl, rfl, hrest⟩ | ⟨body, tag, ts', rfl, rfl, hrest⟩
    · exact ⟨⟨none, .timeout, []⟩, rfl, rfl, hrest⟩
    · rw [if_neg byte.property.2, if_neg byte.property.1]
      exact ⟨⟨none, .timeout, []⟩, rfl, rfl, hrest⟩
    · rw [if_neg (show ¬((36 : UInt8) = 43) by decide), if_pos rfl]
      have hback : (⟨⟨36, tag⟩ :: b₁.recvBuf, b₁.wire⟩ : Buffers τ).unread =
          renderAll (.frame body tag :: ts') := by
        rw [← hb, hcons]
        rfl
      rcases hpacket : readPacketFromWire ⟨⟨36, tag⟩ :: b₁.recvBuf, b₁.wire⟩
        ⟨rest, net.ackFails⟩ with ⟨e | packet, b₂, net₂⟩
      · obtain ⟨ending, rfl, hleft⟩ := readPacketFromWire_error hpacket
        refine ⟨⟨some 0, ending, []⟩, ?_⟩
        rw [takeAck_none, hleft, hback]
        exact ⟨rfl, rfl, (renderAll_left ending _).symm⟩
      · obtain ⟨before, body', tag', after, hsplit, hbefore, hp, hafter⟩ :=
          readPacketFromWire_ok hback hpacket
        cases before with
        | cons t before =>
          have ht := hbefore t List.mem_cons_self
          simp only [List.cons_append, List.cons.injEq] at hsplit
          simp [← hsplit.1, Token.isFrame] at ht
        | nil =>
          simp only [List.nil_append, List.cons.injEq, Token.frame.injEq] at hsplit
          obtain ⟨⟨rfl, rfl⟩, rfl⟩ := hsplit
          have hshort : b₂.unread.length < fuel := by
            rw [hb, renderAll_cons, List.length_append] at hfuel
            rw [hafter]
            simp only [Token.render, List.length_append, List.length_cons] at hfuel
            omega
          obtain ⟨⟨arrived, ending, fails⟩, houtcome, hpackets, hunread⟩ := ih net₂ hafter hshort
          refine ⟨⟨arrived.map (· + 1), ending, false :: fails⟩, ?_⟩
          rw [takeAck_frame]
          dsimp only
          rw [houtcome, hpackets, hp]
          exact ⟨rfl, rfl, hunread⟩

/-- `_consume_ack` on bytes is `takeAck` on tokens. -/
theorem consumeAck_refines (net : Net) {b : Buffers τ} {ts : List (Token τ)}
    (hb : b.unread = renderAll ts) : ∃ net' : TokenNet,
      (consumeAck b net).1 = (takeAck net'.ending net'.arrived net'.ackFails ts).1 ∧
      (consumeAck b net).2.1 = (takeAck net'.ending net'.arrived net'.ackFails ts).2.1 ∧
      (consumeAck b net).2.2.unread =
        renderAll (takeAck net'.ending net'.arrived net'.ackFails ts).2.2 :=
  consumeAckLoop_refines _ net hb (Nat.lt_succ_self _)

/-- Buffers and tokens describe the same unread data. -/
def Renders (b : Buffers τ) (ts : List (Token τ)) : Prop := b.unread = renderAll ts

/-- The byte link refines the token link. -/
theorem byteLink_refines : Refines (byteLink τ) (tokenLink τ) Renders where
  fresh := rfl
  emit new b ts h := by
    unfold Renders Buffers.unread at *
    simp only [byteLink, tokenLink, Buffers.emit, renderAll_append, ← h, List.append_assoc]
  consumeAck net _ _ h := consumeAck_refines net h
  readPacket net _ _ h := readPacket_refines net h

end AckReader

end DolphinRe.GdbTokens
