import DolphinRe.GdbWire
import Mathlib.Data.List.Infix
import Mathlib.Data.List.TakeWhile

/-!
# Decoding a stream, whatever the chunks

What the readers take off the stream is a function of the bytes alone: the
first `$`, the `#` after it and two more bytes delimit a packet. However the
bytes arrive, and wherever a read times out and is tried again, the readers
consume what they would consume with everything at hand.
-/

namespace DolphinRe.StreamDecoding

open PythonText GdbPackets GdbWire

section Receiving

variable {τ : Type}

/-- A `recv` that returns data moves it off the front of the wire. -/
theorem recv_ok {limit : ℕ} {arrival : Arrival} {wire wire' chunk : List (Cell τ)} (c : Cell τ)
    (h : recv limit arrival wire = (.ok (c :: chunk), wire')) : (c :: chunk) ++ wire' = wire := by
  cases arrival with
  | bytes extra =>
    unfold recv at h
    split_ifs at h
    · simp at h
    · simp only [Prod.mk.injEq, Except.ok.injEq] at h
      rw [← h.1, ← h.2, List.take_append_drop]
  | timeout => simp [recv] at h
  | closed => simp [recv] at h
  | reset => simp [recv] at h

/-- A `recv` returns no more than asked for. -/
theorem recv_short {limit : ℕ} {arrival : Arrival} {wire wire' chunk : List (Cell τ)}
    (h : recv limit arrival wire = (.ok chunk, wire')) : chunk.length ≤ limit := by
  cases arrival with
  | bytes extra =>
    unfold recv at h
    split_ifs at h
    · simp at h
    · simp only [Prod.mk.injEq, Except.ok.injEq] at h
      rw [← h.1, List.length_take]
      omega
  | timeout => simp [recv] at h
  | closed =>
    simp only [recv, Prod.mk.injEq, Except.ok.injEq] at h
    simp [← h.1]
  | reset => simp [recv] at h

/-- A `recv` that raises leaves the wire alone. -/
theorem recv_error {limit : ℕ} {arrival : Arrival} {wire wire' : List (Cell τ)} {e : PyError}
    (h : recv limit arrival wire = (.error e, wire')) :
    wire' = wire ∧ (e = timedOut ∨ e = connectionReset) := by
  cases arrival with
  | bytes extra =>
    unfold recv at h
    split_ifs at h with hw
    · simp only [Prod.mk.injEq, Except.error.injEq] at h
      exact ⟨by rw [← h.2, hw], Or.inl h.1.symm⟩
    · simp at h
  | timeout =>
    simp only [recv, Prod.mk.injEq, Except.error.injEq] at h
    exact ⟨h.2.symm, Or.inl h.1.symm⟩
  | closed => simp [recv] at h
  | reset =>
    simp only [recv, Prod.mk.injEq, Except.error.injEq] at h
    exact ⟨h.2.symm, Or.inr h.1.symm⟩

/-- The read-more loop ends well with its condition met, the buffer extended
and no unread byte lost. -/
theorem fillUntil_ok {ready : List (Cell τ) → Bool} {lost : String} {b b' : Buffers τ}
    {arrivals rest : List Arrival} (h : fillUntil ready lost b arrivals = (.ok (), b', rest)) :
    ready b'.recvBuf = true ∧ b'.unread = b.unread ∧ b.recvBuf <+: b'.recvBuf := by
  induction arrivals generalizing b with
  | nil =>
    unfold fillUntil at h
    split_ifs at h with hr
    · simp only [Prod.mk.injEq, true_and] at h
      rw [← h.1]
      exact ⟨hr, rfl, List.prefix_rfl⟩
    · simp at h
  | cons arrival arrivals ih =>
    unfold fillUntil at h
    split_ifs at h with hr
    · simp only [Prod.mk.injEq, true_and] at h
      rw [← h.1]
      exact ⟨hr, rfl, List.prefix_rfl⟩
    · split at h
      · simp at h
      · rename_i chunk wire' hne hrecv
        obtain ⟨hready, hunread, hprefix⟩ := ih h
        refine ⟨hready, hunread.trans ?_, (List.prefix_append _ _).trans hprefix⟩
        cases chunk with
        | nil => exact (hne rfl).elim
        | cons c chunk =>
          have hw := recv_ok c hrecv
          simp only [Buffers.unread, List.append_assoc]
          rw [hw]
      · simp at h

end Receiving

section Packets

variable {τ : Type}

/-- The first packet of a stream and what follows it, if the stream holds one. -/
def firstPacket (s : List (Cell τ)) : Option (Packet τ × List (Cell τ)) :=
  match s.dropWhile fun c => !isDollar c with
  | [] => none
  | dollar :: body =>
    match body.dropWhile fun c => !isHash c with
    | _ :: _ :: _ :: rest =>
      some (⟨decodeReplace ((body.takeWhile fun c => !isHash c).map Cell.byte), dollar.tag⟩, rest)
    | _ => none

/-- More bytes do not change a packet that is complete. -/
theorem firstPacket_append {s rest : List (Cell τ)} {packet : Packet τ}
    (h : firstPacket s = some (packet, rest)) (more : List (Cell τ)) :
    firstPacket (s ++ more) = some (packet, rest ++ more) := by
  unfold firstPacket at h ⊢
  cases hstart : s.dropWhile fun c => !isDollar c with
  | nil =>
    rw [hstart] at h
    simp at h
  | cons dollar body =>
    rw [hstart] at h
    dsimp only at h
    have hstart' : (s ++ more).dropWhile (fun c => !isDollar c) = dollar :: (body ++ more) := by
      rw [List.dropWhile_append, hstart]
      rfl
    rw [hstart']
    dsimp only
    cases hend : body.dropWhile fun c => !isHash c with
    | nil =>
      rw [hend] at h
      simp at h
    | cons hash field =>
      have hend' : (body ++ more).dropWhile (fun c => !isHash c) = hash :: (field ++ more) := by
        rw [List.dropWhile_append, hend]
        rfl
      have hpayload : (body ++ more).takeWhile (fun c => !isHash c) = body.takeWhile fun c => !isHash c := by
        have hlt : (body.takeWhile fun c => !isHash c).length ≠ body.length := by
          have hsum := congrArg List.length (List.takeWhile_append_dropWhile (p := fun c => !isHash c) (l := body))
          rw [hend, List.length_append, List.length_cons] at hsum
          omega
        rw [List.takeWhile_append, if_neg hlt]
      rw [hend', hpayload]
      rw [hend] at h
      match field, h with
      | _ :: _ :: tail, h =>
        simp only [Option.some.injEq, Prod.mk.injEq] at h
        obtain ⟨hp, hr⟩ := h
        simp [hp, hr]

/-- A stream split at its first `$` and at the `#` after it. -/
theorem firstPacket_split {before payload rest : List (Cell τ)} {dollar hash x y : Cell τ}
    (hbefore : ∀ c ∈ before, isDollar c = false) (hdollar : isDollar dollar = true)
    (hpayload : ∀ c ∈ payload, isHash c = false) (hhash : isHash hash = true) :
    firstPacket (before ++ dollar :: (payload ++ hash :: x :: y :: rest)) =
      some (⟨decodeReplace (payload.map Cell.byte), dollar.tag⟩, rest) := by
  have hskip : ∀ c ∈ before, (!isDollar c) = true := fun c hc => by rw [hbefore c hc]; rfl
  have htake : ∀ c ∈ payload, (!isHash c) = true := fun c hc => by rw [hpayload c hc]; rfl
  have hstart : (before ++ dollar :: (payload ++ hash :: x :: y :: rest)).dropWhile
      (fun c => !isDollar c) = dollar :: (payload ++ hash :: x :: y :: rest) := by
    rw [List.dropWhile_append_of_pos hskip, List.dropWhile_cons_of_neg (by simp [hdollar])]
  have hend : (payload ++ hash :: x :: y :: rest).dropWhile (fun c => !isHash c) =
      hash :: x :: y :: rest := by
    rw [List.dropWhile_append_of_pos htake, List.dropWhile_cons_of_neg (by simp [hhash])]
  have htext : (payload ++ hash :: x :: y :: rest).takeWhile (fun c => !isHash c) = payload := by
    rw [List.takeWhile_append_of_pos htake, List.takeWhile_cons_of_neg (by simp [hhash]),
      List.append_nil]
  unfold firstPacket
  rw [hstart]
  dsimp only
  rw [hend, htext]

/-- The parts of a stream that holds a packet. -/
theorem exists_of_firstPacket {s rest : List (Cell τ)} {packet : Packet τ}
    (h : firstPacket s = some (packet, rest)) : ∃ before dollar payload hash x y,
      s = before ++ dollar :: (payload ++ hash :: x :: y :: rest) ∧
      (∀ c ∈ before, isDollar c = false) ∧ isDollar dollar = true ∧
      (∀ c ∈ payload, isHash c = false) ∧ isHash hash = true ∧
      packet = ⟨decodeReplace (payload.map Cell.byte), dollar.tag⟩ := by
  unfold firstPacket at h
  split at h
  · simp at h
  · rename_i dollar body hstart
    split at h
    · rename_i hash x y tail hend
      simp only [Option.some.injEq, Prod.mk.injEq] at h
      obtain ⟨rfl, rfl⟩ := h
      have hjoin := List.takeWhile_append_dropWhile (p := fun c => !isDollar c) (l := s)
      have hjoin' := List.takeWhile_append_dropWhile (p := fun c => !isHash c) (l := body)
      rw [hstart] at hjoin
      rw [hend] at hjoin'
      refine ⟨s.takeWhile fun c => !isDollar c, dollar, body.takeWhile fun c => !isHash c, hash, x, y,
        ?_, ?_, ?_, ?_, ?_, rfl⟩
      · rw [hjoin', hjoin]
      · intro c hc
        simpa using List.mem_takeWhile_imp hc
      · have hhead := List.head?_dropWhile_not (fun c => !isDollar c) s
        rw [hstart] at hhead
        simpa using hhead
      · intro c hc
        simpa using List.mem_takeWhile_imp hc
      · have hhead := List.head?_dropWhile_not (fun c => !isHash c) body
        rw [hend] at hhead
        simpa using hhead
    · simp at h

/-- The first hit of a list split at it. -/
theorem hit_of_split {α : Type} {p : α → Bool} {before : List α} {x : α}
    (hbefore : ∀ a ∈ before, p a = false) (hx : p x = true) (after : List α) :
    (before ++ x :: after).any p = true ∧ (before ++ x :: after).find? p = some x ∧
      (before ++ x :: after).findIdx p = before.length := by
  induction before with
  | nil => simp [hx, List.findIdx_cons]
  | cons a before ih =>
    have ha : p a = false := hbefore a List.mem_cons_self
    obtain ⟨hany, hfind, hidx⟩ := ih fun c hc => hbefore c (List.mem_cons_of_mem a hc)
    refine ⟨?_, ?_, ?_⟩
    · rw [List.cons_append, List.any_cons, hany, Bool.or_true]
    · rw [List.cons_append, List.find?_cons_of_neg (by simp [ha])]
      exact hfind
    · rw [List.cons_append, List.findIdx_cons, ha, hidx]
      rfl

/-- A list that holds a hit, split at the first one. -/
theorem exists_split {α : Type} {p : α → Bool} {s : List α} (h : s.any p = true) :
    ∃ before x after, s = before ++ x :: after ∧ (∀ a ∈ before, p a = false) ∧ p x = true ∧
      s.find? p = some x ∧ s.findIdx p = before.length := by
  obtain ⟨before, x, after, rfl, hx, hbefore⟩ : ∃ before x after, s = before ++ x :: after ∧
      p x = true ∧ ∀ a ∈ before, p a = false := by
    obtain ⟨x, hx⟩ := Option.isSome_iff_exists.mp (List.find?_isSome.mpr (List.any_eq_true.mp h))
    obtain ⟨hpx, before, after, hs, hbefore⟩ := List.find?_eq_some_iff_append.mp hx
    exact ⟨before, x, after, hs, hpx, fun a ha => by simpa using hbefore a ha⟩
  obtain ⟨-, hfind, hidx⟩ := hit_of_split hbefore hx after
  exact ⟨before, x, after, rfl, hbefore, hx, hfind, hidx⟩

/-- The payload between the marks. -/
theorem payload_of_split {α : Type} (before payload back : List α) (dollar : α) :
    ((before ++ dollar :: (payload ++ back)).take (before.length + 1 + payload.length)).drop
      (before.length + 1) = payload := by
  have hwhole : before ++ dollar :: (payload ++ back) = (before ++ [dollar]) ++ (payload ++ back) := by simp
  rw [List.drop_take, Nat.add_sub_cancel_left, hwhole, List.drop_left' (by simp), List.take_left' rfl]

/-- What comes behind the two checksum digits. -/
theorem rest_of_split {α : Type} (before payload rest : List α) (dollar hash x y : α) :
    (before ++ dollar :: (payload ++ hash :: x :: y :: rest)).drop (before.length + 1 + payload.length + 3) =
      rest := by
  have hcount : before.length + 1 + payload.length + 3 =
      (before ++ dollar :: (payload ++ [hash, x, y])).length := by
    simp only [List.length_append, List.length_cons, List.length_nil]
    omega
  have hwhole : before ++ dollar :: (payload ++ hash :: x :: y :: rest) =
      (before ++ dollar :: (payload ++ [hash, x, y])) ++ rest := by simp
  rw [hcount, hwhole, List.drop_left]

/-- A packet read off the wire is the first of the stream, and what follows it stays unread. -/
theorem readPacketFromWire_stream {b b' : Buffers τ} {net net' : Net} {packet : Packet τ}
    (h : readPacketFromWire b net = (.ok packet, b', net')) :
    firstPacket b.unread = some (packet, b'.unread) := by
  unfold readPacketFromWire at h
  split at h
  · simp at h
  rename_i b₁ rest₁ h₁
  obtain ⟨hready₁, hunread₁, -⟩ := fillUntil_ok h₁
  obtain ⟨before, dollar, after, hbuf₁, hbefore, hdollar, hfind, hidx⟩ := exists_split hready₁
  rw [hfind, hidx] at h
  dsimp only at h
  split at h
  · simp at h
  rename_i b₂ rest₂ h₂
  obtain ⟨hready₂, hunread₂, more₂, hmore₂⟩ := fillUntil_ok h₂
  have hbody₂ : b₂.recvBuf.drop (before.length + 1) = after ++ more₂ := by
    rw [← hmore₂, hbuf₁, List.append_assoc, List.cons_append, List.drop_append]
    simp
  rw [hbody₂] at hready₂ h
  obtain ⟨payload, hash, tail, hsplit, hpayload, hhash, -, hidx₂⟩ := exists_split hready₂
  rw [hidx₂] at h
  split at h
  · simp at h
  rename_i b₃ rest₃ h₃
  obtain ⟨hready₃, hunread₃, more₃, hmore₃⟩ := fillUntil_ok h₃
  have hbuf₃ : b₃.recvBuf = before ++ dollar :: (payload ++ hash :: (tail ++ more₃)) := by
    have hjoin : b₃.recvBuf = before ++ dollar :: ((after ++ more₂) ++ more₃) := by
      rw [← hmore₃, ← hmore₂, hbuf₁]
      simp
    rw [hjoin, hsplit]
    simp
  have hlength : before.length + 1 + payload.length + 3 ≤ b₃.recvBuf.length :=
    of_decide_eq_true hready₃
  have hfield : 2 ≤ (tail ++ more₃).length := by
    rw [hbuf₃] at hlength
    simp only [List.length_append, List.length_cons] at hlength ⊢
    omega
  obtain ⟨x, y, rest, hfield⟩ : ∃ x y rest, tail ++ more₃ = x :: y :: rest := by
    match htail : tail ++ more₃, hfield with
    | x :: y :: rest, _ => exact ⟨x, y, rest, rfl⟩
  rw [hfield] at hbuf₃
  split_ifs at h with hack
  · simp at h
  simp only [Prod.mk.injEq, Except.ok.injEq] at h
  obtain ⟨hp, hb', -⟩ := h
  have htake : (b₃.recvBuf.take (before.length + 1 + payload.length)).drop (before.length + 1) =
      payload := by
    rw [hbuf₃, payload_of_split]
  have hdrop : b₃.recvBuf.drop (before.length + 1 + payload.length + 3) = rest := by
    rw [hbuf₃, rest_of_split]
  rw [htake] at hp
  rw [hdrop] at hb'
  have hstream : b.unread = b₃.recvBuf ++ b₃.wire := by
    rw [← hunread₁, ← hunread₂, ← hunread₃, Buffers.unread]
  have hfirst : firstPacket b₃.recvBuf = some (packet, rest) := by
    rw [hbuf₃, firstPacket_split hbefore hdollar hpayload hhash, hp]
  rw [hstream, firstPacket_append hfirst, ← hb']
  rfl

end Packets

section Supplies

variable {τ : Type}

/-- Arrivals on a connection that stays up. With everything at hand no read
times out before the wire is empty. -/
structure Supply (atHand : Bool) (arrivals : List Arrival) (wire : List (Cell τ)) : Prop where
  /-- The connection is neither closed nor reset. -/
  stays : ∀ a ∈ arrivals, a ≠ .closed ∧ a ≠ .reset
  /-- With everything at hand there is no timeout, and data for every read. -/
  prompt : atHand = true → (∀ a ∈ arrivals, a ≠ .timeout) ∧ wire.length ≤ arrivals.length

/-- One arrival of a supply: a timeout, or some bytes off the front of the wire. -/
theorem Supply.recv {atHand : Bool} {arrival : Arrival} {rest : List Arrival}
    {wire : List (Cell τ)} (hs : Supply atHand (arrival :: rest) wire) (limit : ℕ) :
    (recv (limit + 1) arrival wire = (.error timedOut, wire) ∧ Supply atHand rest wire ∧
      (atHand = true → wire = [])) ∨
    ∃ c chunk wire', recv (limit + 1) arrival wire = (.ok (c :: chunk), wire') ∧
      (c :: chunk) ++ wire' = wire ∧ Supply atHand rest wire' := by
  have hstays : ∀ a ∈ rest, a ≠ .closed ∧ a ≠ .reset :=
    fun a ha => hs.stays a (List.mem_cons_of_mem _ ha)
  have hprompt : atHand = true → ∀ a ∈ rest, a ≠ .timeout :=
    fun ht a ha => (hs.prompt ht).1 a (List.mem_cons_of_mem _ ha)
  cases arrival with
  | closed => exact ((hs.stays .closed List.mem_cons_self).1 rfl).elim
  | reset => exact ((hs.stays .reset List.mem_cons_self).2 rfl).elim
  | timeout =>
    have hlate : atHand ≠ true := fun ht => (hs.prompt ht).1 .timeout List.mem_cons_self rfl
    exact Or.inl ⟨rfl, ⟨hstays, fun ht => (hlate ht).elim⟩, fun ht => (hlate ht).elim⟩
  | bytes extra =>
    cases wire with
    | nil => exact Or.inl ⟨rfl, ⟨hstays, fun ht => ⟨hprompt ht, Nat.zero_le _⟩⟩, fun _ => rfl⟩
    | cons c wire =>
      have hcount : min (limit + 1) (extra + 1) = min limit extra + 1 := by omega
      refine Or.inr ⟨c, wire.take (min limit extra), wire.drop (min limit extra), ?_, ?_, hstays, ?_⟩
      · rw [GdbWire.recv, if_neg (List.cons_ne_nil c wire), hcount]
        rfl
      · rw [List.cons_append, List.take_append_drop]
      · intro ht
        have hlen := (hs.prompt ht).2
        rw [List.length_cons, List.length_cons] at hlen
        exact ⟨hprompt ht, by rw [List.length_drop]; omega⟩

/-- The read-more loop on a supply: it ends with its condition met, or it times
out with every received byte still in the buffer. -/
theorem fillUntil_supply {atHand : Bool} {ready : List (Cell τ) → Bool} {lost : String}
    {b b' : Buffers τ} {arrivals rest : List Arrival} {outcome : Except PyError Unit}
    (hs : Supply atHand arrivals b.wire)
    (h : fillUntil ready lost b arrivals = (outcome, b', rest)) :
    (Supply atHand rest b'.wire ∧ b'.wire <:+ b.wire) ∧ b'.unread = b.unread ∧
      b.recvBuf <+: b'.recvBuf ∧ (outcome = .ok () ∧ ready b'.recvBuf = true ∨
        outcome = .error timedOut ∧ ready b'.recvBuf = false ∧ (atHand = true → b'.wire = [])) := by
  induction arrivals generalizing b with
  | nil =>
    have hdry : atHand = true → b.wire = [] := fun ht =>
      List.length_eq_zero_iff.mp (Nat.le_zero.mp (hs.prompt ht).2)
    unfold fillUntil at h
    split_ifs at h with hr
    · simp only [Prod.mk.injEq] at h
      obtain ⟨rfl, rfl, rfl⟩ := h
      exact ⟨⟨hs, List.suffix_rfl⟩, rfl, List.prefix_rfl, Or.inl ⟨rfl, hr⟩⟩
    · simp only [Prod.mk.injEq] at h
      obtain ⟨rfl, rfl, rfl⟩ := h
      exact ⟨⟨hs, List.suffix_rfl⟩, rfl, List.prefix_rfl, Or.inr ⟨rfl, by simpa using hr, hdry⟩⟩
  | cons arrival arrivals ih =>
    unfold fillUntil at h
    split_ifs at h with hr
    · simp only [Prod.mk.injEq] at h
      obtain ⟨rfl, rfl, rfl⟩ := h
      exact ⟨⟨hs, List.suffix_rfl⟩, rfl, List.prefix_rfl, Or.inl ⟨rfl, hr⟩⟩
    · obtain ⟨hrecv, hs', hdry⟩ | ⟨c, chunk, wire', hrecv, hw, hs'⟩ := hs.recv 4095
      · rw [hrecv] at h
        simp only [Prod.mk.injEq] at h
        obtain ⟨rfl, rfl, rfl⟩ := h
        exact ⟨⟨hs', List.suffix_rfl⟩, rfl, List.prefix_rfl, Or.inr ⟨rfl, by simpa using hr, hdry⟩⟩
      · rw [hrecv] at h
        obtain ⟨⟨hrest, hsuffix⟩, hunread, hprefix, hend⟩ := ih hs' h
        refine ⟨⟨hrest, hsuffix.trans ⟨_, hw⟩⟩, hunread.trans ?_, (List.prefix_append _ _).trans hprefix, hend⟩
        simp only [Buffers.unread, List.append_assoc]
        rw [hw]

/-- The one byte that `_consume_ack` asks for: the first of the stream, or a timeout. -/
theorem readExact_supply {atHand : Bool} {b b' : Buffers τ} {arrivals rest : List Arrival}
    {outcome : Except PyError (List (Cell τ))} (hs : Supply atHand arrivals b.wire)
    (h : readExact 1 b arrivals = (outcome, b', rest)) :
    (Supply atHand rest b'.wire ∧ b'.wire <:+ b.wire) ∧
      ((∃ c, outcome = .ok [c] ∧ b.unread = c :: b'.unread) ∨
        outcome = .error timedOut ∧ b'.unread = b.unread ∧ (atHand = true → b.unread = [])) := by
  obtain ⟨_ | ⟨c, buf⟩, wire⟩ := b
  · rw [readExact, if_neg (by simp), List.take_nil] at h
    cases arrivals with
    | nil =>
      simp only [readMissing, List.length_nil, Nat.le_zero_eq, Nat.one_ne_zero, if_false,
        Prod.mk.injEq] at h
      obtain ⟨rfl, rfl, rfl⟩ := h
      exact ⟨⟨hs, List.suffix_rfl⟩, Or.inr ⟨rfl, rfl, fun ht =>
        List.length_eq_zero_iff.mp (Nat.le_zero.mp (hs.prompt ht).2)⟩⟩
    | cons arrival arrivals =>
      simp only [readMissing, List.length_nil, Nat.le_zero_eq, Nat.one_ne_zero, if_false,
        Nat.sub_zero, List.nil_append] at h
      obtain ⟨hrecv, hs', hdry⟩ | ⟨c, chunk, wire', hrecv, hw, hs'⟩ := hs.recv 0
      · rw [hrecv] at h
        simp only [Prod.mk.injEq] at h
        obtain ⟨rfl, rfl, rfl⟩ := h
        exact ⟨⟨hs', List.suffix_rfl⟩, Or.inr ⟨rfl, rfl, hdry⟩⟩
      · have hshort := recv_short hrecv
        have hnil : chunk = [] := List.length_eq_zero_iff.mp (by simpa using hshort)
        subst hnil
        rw [hrecv] at h
        have hdone : readMissing 1 [c] wire' arrivals = (.ok [c], ⟨[], wire'⟩, arrivals) := by
          cases arrivals <;> rfl
        dsimp only at h
        rw [hdone] at h
        simp only [Prod.mk.injEq] at h
        obtain ⟨rfl, rfl, rfl⟩ := h
        exact ⟨⟨hs', _, hw⟩, Or.inl ⟨c, rfl, hw.symm⟩⟩
  · rw [readExact, if_pos (by simp)] at h
    simp only [List.take_succ_cons, List.take_zero, List.drop_succ_cons, List.drop_zero,
      Prod.mk.injEq] at h
    obtain ⟨rfl, rfl, rfl⟩ := h
    exact ⟨⟨hs, List.suffix_rfl⟩, Or.inl ⟨c, rfl, rfl⟩⟩

/-- The three conditions that the packet reader waits for, on a buffer that holds a packet. -/
theorem ready_of_firstPacket {s rest : List (Cell τ)} {packet : Packet τ}
    (h : firstPacket s = some (packet, rest)) :
    s.any isDollar = true ∧ (s.drop (s.findIdx isDollar + 1)).any isHash = true ∧
      s.findIdx isDollar + 1 + (s.drop (s.findIdx isDollar + 1)).findIdx isHash + 3 ≤ s.length := by
  obtain ⟨before, dollar, payload, hash, x, y, hs, hbefore, hdollar, hpayload, hhash, -⟩ :=
    exists_of_firstPacket h
  obtain ⟨hany, -, hidx⟩ := hit_of_split hbefore hdollar (payload ++ hash :: x :: y :: rest)
  obtain ⟨hany', -, hidx'⟩ := hit_of_split hpayload hhash (x :: y :: rest)
  rw [← hs] at hany hidx
  have hbody : s.drop (before.length + 1) = payload ++ hash :: x :: y :: rest := by
    have hwhole : s = (before ++ [dollar]) ++ (payload ++ hash :: x :: y :: rest) := by
      rw [hs]
      simp
    rw [hwhole, List.drop_left' (by simp)]
  have hlength : s.length = before.length + (payload.length + (rest.length + 3) + 1) := by
    rw [hs]
    simp
  rw [hidx, hbody, hidx']
  exact ⟨hany, hany', by omega⟩

/-- The place of the first hit does not move when bytes are added. -/
theorem findIdx_of_prefix {α : Type} {p : α → Bool} {s t : List α} (h : s <+: t)
    (hany : s.any p = true) : t.findIdx p = s.findIdx p := by
  obtain ⟨more, rfl⟩ := h
  obtain ⟨before, x, after, rfl, hbefore, hx, -, hidx⟩ := exists_split hany
  rw [hidx, List.append_assoc, List.cons_append]
  exact (hit_of_split hbefore hx _).2.2

/-- The packet reader on a supply: it takes the first packet of the stream, or
it times out and no unread byte is lost. With everything at hand it times out
only if the stream holds no packet. -/
theorem readPacketFromWire_supply {atHand : Bool} {b b' : Buffers τ} {arrivals : List Arrival}
    {net' : Net} {outcome : Except PyError (Packet τ)} (hs : Supply atHand arrivals b.wire)
    (h : readPacketFromWire b ⟨arrivals, []⟩ = (outcome, b', net')) :
    (Supply atHand net'.arrivals b'.wire ∧ net'.ackFails = [] ∧ b'.wire <:+ b.wire) ∧
      ((∃ packet, outcome = .ok packet ∧ firstPacket b.unread = some (packet, b'.unread)) ∨
        outcome = .error timedOut ∧ b'.unread = b.unread ∧
          (atHand = true → firstPacket b.unread = none)) := by
  have hread := h
  -- dry: with everything at hand the buffer is the whole stream
  have dry : ∀ {s : List (Cell τ)}, s ++ b'.wire = b.unread →
      (atHand = true → b'.wire = []) → (∀ found, firstPacket s ≠ some found) →
      atHand = true → firstPacket b.unread = none := by
    intro s hstream hwire hnone ht
    rw [hwire ht, List.append_nil] at hstream
    rw [← hstream]
    exact Option.eq_none_iff_forall_ne_some.mpr hnone
  unfold readPacketFromWire at h
  rcases h₁ : fillUntil (·.any isDollar) "socket closed waiting for packet start" b arrivals with
    ⟨outcome₁, b₁, rest₁⟩
  obtain ⟨⟨hs₁, hsuffix₁⟩, hunread₁, -, hend₁⟩ := fillUntil_supply hs h₁
  rw [h₁] at h
  obtain ⟨rfl, hdollar⟩ | ⟨rfl, hno, hdry⟩ := hend₁
  swap
  · simp only [Prod.mk.injEq] at h
    obtain ⟨rfl, rfl, rfl⟩ := h
    refine ⟨⟨hs₁, rfl, hsuffix₁⟩, Or.inr ⟨rfl, hunread₁, dry hunread₁ hdry fun found hp => ?_⟩⟩
    rw [(ready_of_firstPacket hp).1] at hno
    exact absurd hno (by decide)
  obtain ⟨before, dollar, after, -, -, -, hfind, -⟩ := exists_split hdollar
  dsimp only at h
  rw [hfind] at h
  dsimp only at h
  rcases h₂ : fillUntil (fun buf => (buf.drop (b₁.recvBuf.findIdx isDollar + 1)).any isHash)
      "socket closed waiting for packet end" b₁ rest₁ with ⟨outcome₂, b₂, rest₂⟩
  obtain ⟨⟨hs₂, hsuffix₂⟩, hunread₂, hprefix₂, hend₂⟩ := fillUntil_supply hs₁ h₂
  have hplace := findIdx_of_prefix hprefix₂ hdollar
  rw [h₂] at h
  obtain ⟨rfl, hhash⟩ | ⟨rfl, hno, hdry⟩ := hend₂
  swap
  · simp only [Prod.mk.injEq] at h
    obtain ⟨rfl, rfl, rfl⟩ := h
    refine ⟨⟨hs₂, rfl, hsuffix₂.trans hsuffix₁⟩, Or.inr ⟨rfl, hunread₂.trans hunread₁,
      dry (hunread₂.trans hunread₁) hdry fun found hp => ?_⟩⟩
    have hready := (ready_of_firstPacket hp).2.1
    rw [hplace, hno] at hready
    exact absurd hready (by decide)
  dsimp only at h
  rcases h₃ : fillUntil (fun buf => decide (b₁.recvBuf.findIdx isDollar + 1 +
      (b₂.recvBuf.drop (b₁.recvBuf.findIdx isDollar + 1)).findIdx isHash + 3 ≤ buf.length))
      "socket closed waiting for checksum" b₂ rest₂ with ⟨outcome₃, b₃, rest₃⟩
  obtain ⟨⟨hs₃, hsuffix₃⟩, hunread₃, hprefix₃, hend₃⟩ := fillUntil_supply hs₂ h₃
  rw [h₃] at h
  obtain ⟨rfl, hlength⟩ | ⟨rfl, hno, hdry⟩ := hend₃
  swap
  · simp only [Prod.mk.injEq] at h
    obtain ⟨rfl, rfl, rfl⟩ := h
    have hstream := (hunread₃.trans hunread₂).trans hunread₁
    refine ⟨⟨hs₃, rfl, (hsuffix₃.trans hsuffix₂).trans hsuffix₁⟩, Or.inr ⟨rfl, hstream, dry hstream hdry fun found hp => ?_⟩⟩
    have hready := (ready_of_firstPacket hp).2.2
    have hplace₃ := findIdx_of_prefix (hprefix₂.trans hprefix₃) hdollar
    have hplace₄ := findIdx_of_prefix (hprefix₃.drop (b₁.recvBuf.findIdx isDollar + 1)) hhash
    rw [hplace₃, hplace₄] at hready
    exact of_decide_eq_false hno hready
  simp only [List.headD_nil, Bool.false_eq_true, if_false, Prod.mk.injEq] at h
  obtain ⟨rfl, rfl, rfl⟩ := h
  exact ⟨⟨hs₃, rfl, (hsuffix₃.trans hsuffix₂).trans hsuffix₁⟩,
    Or.inl ⟨_, rfl, readPacketFromWire_stream hread⟩⟩

end Supplies

section Readings

variable {τ : Type}

/-- The two readers of the decoder. -/
inductive Read where
  /-- `_consume_ack`. -/
  | ack
  /-- `_read_packet_from_wire`. -/
  | packet
  deriving DecidableEq, Repr

/-- What a reader takes off the stream. -/
inductive Item (τ : Type) where
  | ack (tag : τ)
  | payload (packet : Packet τ)
  /-- A byte that is neither `+` nor `$`, consumed by the error it raises. -/
  | raised (error : PyError)
  deriving DecidableEq, Repr

/-- What one `_consume_ack` call consumed, and whether it is over. -/
def ackItems (outcome : Except PyError τ) (packets : List (Packet τ)) : List (Item τ) × Bool :=
  match outcome with
  | .ok tag => (packets.map .payload ++ [.ack tag], true)
  | .error e =>
    if e = timedOut then (packets.map .payload, false) else (packets.map .payload ++ [.raised e], true)

/-- One call of a reader: what it consumed, whether it is over or has timed
out, and the buffers it leaves. -/
def attempt (read : Read) (b : Buffers τ) (arrivals : List Arrival) :
    List (Item τ) × Bool × Buffers τ :=
  match read with
  | .ack =>
    match consumeAck b ⟨arrivals, []⟩ with
    | (outcome, packets, b') => ((ackItems outcome packets).1, (ackItems outcome packets).2, b')
  | .packet =>
    match readPacketFromWire b ⟨arrivals, []⟩ with
    | (.ok packet, b', _) => ([.payload packet], true, b')
    | (.error e, b', _) => if e = timedOut then ([], false, b') else ([.raised e], true, b')

/-- Where a sequence of reads stands: what it has consumed so far, the buffers
and the reads that are still to be made. -/
structure Reading (τ : Type) where
  /-- What has been consumed so far. -/
  consumed : List (Item τ)
  /-- The buffers. -/
  buffers : Buffers τ
  /-- The reads that are still to be made. -/
  remaining : List Read
  deriving DecidableEq, Repr

/-- Put what was consumed before in front. -/
def Reading.after (items : List (Item τ)) (r : Reading τ) : Reading τ :=
  ⟨items ++ r.consumed, r.buffers, r.remaining⟩

/-- Make the reads in order, one call for each entry of the schedule; a call
that times out is made again. -/
def perform : List (List Arrival) → List Read → Buffers τ → Reading τ
  | [], reads, b => ⟨[], b, reads⟩
  | _ :: _, [], b => ⟨[], b, []⟩
  | arrivals :: schedule, read :: reads, b =>
    match attempt read b arrivals with
    | (items, true, b') => (perform schedule reads b').after items
    | (items, false, b') => (perform schedule (read :: reads) b').after items

/-- Make the reads in order with the whole stream available: every `recv` has
all it asks for until the wire is empty. -/
def performAtOnce : List Read → Buffers τ → Reading τ
  | [], b => ⟨[], b, []⟩
  | read :: reads, b =>
    match attempt read b (List.replicate b.wire.length (.bytes 4095)) with
    | (items, true, b') => (performAtOnce reads b').after items
    | (items, false, b') => ⟨items, b', read :: reads⟩

/-- What a reader makes of a stream: the items it consumes, whether it ends and
the stream it leaves. -/
inductive Scan : Read → List (Cell τ) → List (Item τ) → Bool → List (Cell τ) → Prop
  | packet {s rest : List (Cell τ)} {packet : Packet τ} (h : firstPacket s = some (packet, rest)) :
    Scan .packet s [.payload packet] true rest
  | noPacket {s : List (Cell τ)} (h : firstPacket s = none) : Scan .packet s [] false s
  | acked {c : Cell τ} {s : List (Cell τ)} (h : c.byte = 43) : Scan .ack (c :: s) [.ack c.tag] true s
  | refused {c : Cell τ} {s : List (Cell τ)} (hack : c.byte ≠ 43) (hframe : c.byte ≠ 36) :
    Scan .ack (c :: s) [.raised (unexpectedAck c.byte)] true s
  | empty : Scan .ack [] [] false []
  | cut {c : Cell τ} {s : List (Cell τ)} (hframe : c.byte = 36) (h : firstPacket (c :: s) = none) :
    Scan .ack (c :: s) [] false (c :: s)
  | frame {c : Cell τ} {s rest s' : List (Cell τ)} {packet : Packet τ} {items : List (Item τ)}
      {fin : Bool} (hframe : c.byte = 36) (h : firstPacket (c :: s) = some (packet, rest))
      (tail : Scan .ack rest items fin s') : Scan .ack (c :: s) (.payload packet :: items) fin s'

/-- A stream has one reading. -/
theorem Scan.unique {read : Read} {s s₁ s₂ : List (Cell τ)} {items₁ items₂ : List (Item τ)}
    {fin₁ fin₂ : Bool} (h₁ : Scan read s items₁ fin₁ s₁) (h₂ : Scan read s items₂ fin₂ s₂) :
    items₁ = items₂ ∧ fin₁ = fin₂ ∧ s₁ = s₂ := by
  induction h₁ generalizing items₂ with
  | packet h =>
    cases h₂ with
    | packet h' => simpa using h.symm.trans h'
    | noPacket h' => simp [h] at h'
  | noPacket h =>
    cases h₂ with
    | packet h' => simp [h] at h'
    | noPacket _ => simp
  | acked h =>
    cases h₂ with
    | acked _ => simp
    | refused hack _ => exact (hack h).elim
    | cut hframe _ => simp [h] at hframe
    | frame hframe _ _ => simp [h] at hframe
  | refused hack hframe =>
    cases h₂ with
    | acked h => exact (hack h).elim
    | refused _ _ => simp
    | cut h _ => exact (hframe h).elim
    | frame h _ _ => exact (hframe h).elim
  | empty =>
    cases h₂ with
    | empty => simp
  | cut hframe h =>
    cases h₂ with
    | acked h' => simp [h'] at hframe
    | refused _ h' => exact (h' hframe).elim
    | cut _ _ => simp
    | frame _ h' _ => simp [h] at h'
  | frame hframe h tail ih =>
    cases h₂ with
    | acked h' => simp [h'] at hframe
    | refused _ h' => exact (h' hframe).elim
    | cut _ h' => simp [h] at h'
    | frame _ h' tail' =>
      obtain ⟨rfl, rfl⟩ : _ = _ ∧ _ = _ := by simpa using h.symm.trans h'
      obtain ⟨rfl, rfl, rfl⟩ := ih tail'
      simp

/-- Consuming `items` brings a reader from one stream to the other, from where
it reads on as if never interrupted. -/
def Resumes (read : Read) (s : List (Cell τ)) (items : List (Item τ)) (s' : List (Cell τ)) : Prop :=
  ∀ more fin rest, Scan read s' more fin rest → Scan read s (items ++ more) fin rest

/-- What one call of a reader does to the stream. -/
structure Progress (atHand : Bool) (read : Read) (s : List (Cell τ)) (items : List (Item τ))
    (fin : Bool) (s' : List (Cell τ)) : Prop where
  /-- A read that finishes has consumed what one scan of the stream does. -/
  ends : fin = true → Scan read s items true s'
  /-- A read that times out can be resumed. -/
  resumes : fin = false → Resumes read s items s'
  /-- With everything at hand it times out only where the stream ends. -/
  dry : fin = false → atHand = true → Scan read s items false s'

/-- The error for an unexpected byte is not a timeout. -/
theorem unexpectedAck_ne (byte : UInt8) : unexpectedAck byte ≠ timedOut := by
  unfold unexpectedAck timedOut
  split_ifs <;> simp

/-- A stashed packet comes first. -/
theorem ackItems_cons (outcome : Except PyError τ) (packet : Packet τ) (packets : List (Packet τ)) :
    ackItems outcome (packet :: packets) =
      (.payload packet :: (ackItems outcome packets).1, (ackItems outcome packets).2) := by
  cases outcome with
  | ok tag => rfl
  | error e =>
    dsimp only [ackItems]
    split_ifs <;> rfl

/-- A frame stashed before the rest. -/
theorem Progress.frame {atHand : Bool} {c : Cell τ} {s rest s' : List (Cell τ)} {packet : Packet τ}
    {items : List (Item τ)} {fin : Bool} (hframe : c.byte = 36)
    (h : firstPacket (c :: s) = some (packet, rest)) (hp : Progress atHand .ack rest items fin s') :
    Progress atHand .ack (c :: s) (.payload packet :: items) fin s' where
  ends hfin := .frame hframe h (hp.ends hfin)
  resumes hfin more fin' rest' hscan := .frame hframe h (hp.resumes hfin more fin' rest' hscan)
  dry hfin ht := .frame hframe h (hp.dry hfin ht)

/-- The ack reader on a supply, by induction on the stashed frames. -/
theorem consumeAckLoop_supply {atHand : Bool} (fuel : ℕ) {b b' : Buffers τ}
    {arrivals : List Arrival} {outcome : Except PyError τ} {packets : List (Packet τ)}
    (hs : Supply atHand arrivals b.wire) (hfuel : b.unread.length < fuel)
    (h : consumeAckLoop fuel b ⟨arrivals, []⟩ = (outcome, packets, b')) :
    Progress atHand .ack b.unread (ackItems outcome packets).1 (ackItems outcome packets).2
      b'.unread ∧ b'.wire <:+ b.wire := by
  induction fuel generalizing b arrivals packets with
  | zero => omega
  | succ fuel ih =>
    unfold consumeAckLoop at h
    rcases hread : readExact 1 b arrivals with ⟨taken, b₁, rest⟩
    obtain ⟨⟨hs₁, hsuffix₁⟩, hend⟩ := readExact_supply hs hread
    rw [hread] at h
    obtain ⟨c, rfl, hc⟩ | ⟨rfl, hsame, hdry⟩ := hend
    swap
    · simp only [Prod.mk.injEq] at h
      obtain ⟨rfl, rfl, rfl⟩ := h
      rw [hsame]
      refine ⟨⟨by simp [ackItems], fun _ more fin rest hscan => hscan, fun _ ht => ?_⟩, hsuffix₁⟩
      rw [hdry ht]
      exact .empty
    dsimp only at h
    rw [hc]
    split_ifs at h with hack hframe
    · simp only [Prod.mk.injEq] at h
      obtain ⟨rfl, rfl, rfl⟩ := h
      exact ⟨⟨fun _ => .acked hack, by simp [ackItems], by simp [ackItems]⟩, hsuffix₁⟩
    · rcases hpacket : readPacketFromWire ⟨c :: b₁.recvBuf, b₁.wire⟩ ⟨rest, []⟩ with ⟨found, b₂, net₂⟩
      have hback : (⟨c :: b₁.recvBuf, b₁.wire⟩ : Buffers τ).unread = c :: b₁.unread := rfl
      obtain ⟨⟨hs₂, hfails, hsuffix₂⟩, hpend⟩ := readPacketFromWire_supply (b := ⟨c :: b₁.recvBuf, b₁.wire⟩) hs₁ hpacket
      rw [hpacket] at h
      rw [hback] at hpend
      obtain ⟨packet, rfl, hfirst⟩ | ⟨rfl, hsame, hdry⟩ := hpend
      · have hshorter : b₂.unread.length < fuel := by
          obtain ⟨before, dollar, payload, hash, x, y, hparts, -⟩ := exists_of_firstPacket hfirst
          have hlen := congrArg List.length hparts
          rw [hc] at hfuel
          simp only [List.length_append, List.length_cons] at hlen hfuel
          omega
        obtain ⟨arrivals₂, fails₂⟩ := net₂
        subst hfails
        dsimp only at h
        rcases htail : consumeAckLoop fuel b₂ ⟨arrivals₂, []⟩ with ⟨outcome', packets', b₃⟩
        rw [htail] at h
        simp only [Prod.mk.injEq] at h
        obtain ⟨rfl, rfl, rfl⟩ := h
        obtain ⟨hprogress, hsuffix₃⟩ := ih hs₂ hshorter htail
        rw [ackItems_cons]
        exact ⟨hprogress.frame hframe hfirst, (hsuffix₃.trans hsuffix₂).trans hsuffix₁⟩
      · simp only [Prod.mk.injEq] at h
        obtain ⟨rfl, rfl, rfl⟩ := h
        rw [hsame]
        exact ⟨⟨by simp [ackItems], fun _ more fin rest hscan => hscan,
          fun _ ht => .cut hframe (hdry ht)⟩, hsuffix₂.trans hsuffix₁⟩
    · simp only [Prod.mk.injEq] at h
      obtain ⟨rfl, rfl, rfl⟩ := h
      have hraised : ackItems (.error (unexpectedAck c.byte)) ([] : List (Packet τ)) =
          ([.raised (unexpectedAck c.byte)], true) := by
        rw [ackItems, if_neg (unexpectedAck_ne c.byte)]
        rfl
      rw [hraised]
      exact ⟨⟨fun _ => .refused hack hframe, by simp, by simp⟩, hsuffix₁⟩

/-- One call of a reader on a supply. -/
theorem attempt_supply {atHand : Bool} {read : Read} {b b' : Buffers τ} {arrivals : List Arrival}
    {items : List (Item τ)} {fin : Bool} (hs : Supply atHand arrivals b.wire)
    (h : attempt read b arrivals = (items, fin, b')) :
    Progress atHand read b.unread items fin b'.unread ∧ b'.wire <:+ b.wire := by
  cases read with
  | ack =>
    rcases hack : consumeAck b ⟨arrivals, []⟩ with ⟨outcome, packets, b₁⟩
    have hprogress := consumeAckLoop_supply _ hs (Nat.lt_succ_self _) hack
    rw [attempt, hack] at h
    simp only [Prod.mk.injEq] at h
    obtain ⟨rfl, rfl, rfl⟩ := h
    exact hprogress
  | packet =>
    rcases hread : readPacketFromWire b ⟨arrivals, []⟩ with ⟨outcome, b₁, net₁⟩
    obtain ⟨⟨-, -, hsuffix⟩, hend⟩ := readPacketFromWire_supply hs hread
    rw [attempt, hread] at h
    obtain ⟨packet, rfl, hfirst⟩ | ⟨rfl, hsame, hdry⟩ := hend
    · simp only [Prod.mk.injEq] at h
      obtain ⟨rfl, rfl, rfl⟩ := h
      exact ⟨⟨fun _ => .packet hfirst, by simp, by simp⟩, hsuffix⟩
    · simp only [if_true, Prod.mk.injEq] at h
      obtain ⟨rfl, rfl, rfl⟩ := h
      rw [hsame]
      exact ⟨⟨by simp, fun _ more fin rest hscan => hscan, fun _ ht => .noPacket (hdry ht)⟩, hsuffix⟩

/-- What a sequence of reads makes of a stream, and the reads that the stream is too short for. -/
inductive ScanAll : List Read → List (Cell τ) → List (Item τ) → List (Cell τ) → List Read → Prop
  | done {s : List (Cell τ)} : ScanAll [] s [] s []
  | dry {read : Read} {reads : List Read} {s s' : List (Cell τ)} {items : List (Item τ)}
      (h : Scan read s items false s') : ScanAll (read :: reads) s items s' (read :: reads)
  | next {read : Read} {reads remaining : List Read} {s s' s'' : List (Cell τ)}
      {items more : List (Item τ)} (h : Scan read s items true s')
      (rest : ScanAll reads s' more s'' remaining) :
      ScanAll (read :: reads) s (items ++ more) s'' remaining

/-- A stream has one reading by a sequence of reads. -/
theorem ScanAll.unique {reads remaining₁ remaining₂ : List Read} {s s₁ s₂ : List (Cell τ)}
    {items₁ items₂ : List (Item τ)} (h₁ : ScanAll reads s items₁ s₁ remaining₁)
    (h₂ : ScanAll reads s items₂ s₂ remaining₂) :
    items₁ = items₂ ∧ s₁ = s₂ ∧ remaining₁ = remaining₂ := by
  induction h₁ generalizing items₂ with
  | done =>
    cases h₂ with
    | done => simp
  | dry h =>
    cases h₂ with
    | dry h' =>
      obtain ⟨rfl, -, rfl⟩ := h.unique h'
      simp
    | next h' _ => exact absurd (h.unique h').2.1 (by decide)
  | next h rest ih =>
    cases h₂ with
    | dry h' => exact absurd (h.unique h').2.1 (by decide)
    | next h' rest' =>
      obtain ⟨rfl, -, rfl⟩ := h.unique h'
      obtain ⟨rfl, rfl, rfl⟩ := ih rest'
      simp

/-- A reading taken up again where the first read was interrupted. -/
theorem Resumes.scanAll {read : Read} {reads remaining : List Read} {s s' s'' : List (Cell τ)}
    {items more : List (Item τ)} (h : Resumes read s items s')
    (hall : ScanAll (read :: reads) s' more s'' remaining) :
    ScanAll (read :: reads) s (items ++ more) s'' remaining := by
  cases hall with
  | dry hscan => exact .dry (h _ _ _ hscan)
  | next hscan rest =>
    rw [← List.append_assoc]
    exact .next (h _ _ _ hscan) rest

/-- With everything at hand the reads make of the stream what there is to make of it. -/
theorem performAtOnce_scans (reads : List Read) (b : Buffers τ) :
    ScanAll reads b.unread (performAtOnce reads b).consumed (performAtOnce reads b).buffers.unread
      (performAtOnce reads b).remaining := by
  induction reads generalizing b with
  | nil => exact .done
  | cons read reads ih =>
    have hs : Supply true (List.replicate b.wire.length (.bytes 4095)) b.wire :=
      ⟨fun a ha => by simp [List.eq_of_mem_replicate ha], fun _ =>
        ⟨fun a ha => by simp [List.eq_of_mem_replicate ha], by rw [List.length_replicate]⟩⟩
    rcases h : attempt read b (List.replicate b.wire.length (.bytes 4095)) with ⟨items, fin, b'⟩
    obtain ⟨hprogress, -⟩ := attempt_supply hs h
    rw [performAtOnce, h]
    cases fin with
    | true => exact .next (hprogress.ends rfl) (ih b')
    | false => exact .dry (hprogress.dry rfl rfl)

/-- The entries of a schedule on a connection that stays up: chunks and timeouts. -/
def Patient (schedule : List (List Arrival)) : Prop :=
  ∀ arrivals ∈ schedule, ∀ a ∈ arrivals, a ≠ .closed ∧ a ≠ .reset

/-- Whatever the schedule, reading on from where it leaves the reads completes
the reading of the whole stream. -/
theorem perform_scans {schedule : List (List Arrival)} (hp : Patient schedule) {reads : List Read}
    {b : Buffers τ} {more : List (Item τ)} {rest : List (Cell τ)} {remaining : List Read}
    (hrest : ScanAll (perform schedule reads b).remaining (perform schedule reads b).buffers.unread
      more rest remaining) :
    ScanAll reads b.unread ((perform schedule reads b).consumed ++ more) rest remaining := by
  induction schedule generalizing reads b with
  | nil => exact hrest
  | cons arrivals schedule ih =>
    have hp' : Patient schedule := fun arrivals' ha => hp arrivals' (List.mem_cons_of_mem _ ha)
    cases reads with
    | nil => exact hrest
    | cons read reads =>
      have hs : Supply false arrivals b.wire :=
        ⟨hp arrivals List.mem_cons_self, fun h => absurd h (by decide)⟩
      rcases h : attempt read b arrivals with ⟨items, fin, b'⟩
      obtain ⟨hprogress, -⟩ := attempt_supply hs h
      rw [perform, h] at hrest ⊢
      cases fin with
      | true =>
        dsimp only [Reading.after] at hrest ⊢
        rw [List.append_assoc]
        exact .next (hprogress.ends rfl) (ih hp' hrest)
      | false =>
        dsimp only [Reading.after] at hrest ⊢
        rw [List.append_assoc]
        exact (hprogress.resumes rfl).scanAll (ih hp' hrest)

/-- A reader that ran dry consumes nothing when it is called again. -/
theorem Scan.dry_again {read : Read} {s s' : List (Cell τ)} {items : List (Item τ)} {fin : Bool}
    (h : Scan read s items fin s') (hfin : fin = false) : Scan read s' [] false s' := by
  induction h with
  | packet _ => simp at hfin
  | noPacket h => exact .noPacket h
  | acked _ => simp at hfin
  | refused _ _ => simp at hfin
  | empty => exact .empty
  | cut hframe h => exact .cut hframe h
  | frame _ _ _ ih => exact ih hfin

/-- With nothing left on the wire a call receives nothing and still makes of
the buffer what there is to make of it. -/
theorem attempt_received {read : Read} {b b' : Buffers τ} {items : List (Item τ)} {fin : Bool}
    (hwire : b.wire = []) (h : attempt read b [] = (items, fin, b')) :
    Scan read b.unread items fin b'.unread ∧ b'.wire = [] := by
  have hs : Supply true [] b.wire :=
    ⟨fun a ha => absurd ha List.not_mem_nil, fun _ =>
      ⟨fun a ha => absurd ha List.not_mem_nil, by rw [hwire]; exact Nat.le_refl _⟩⟩
  obtain ⟨hprogress, hsuffix⟩ := attempt_supply hs h
  rw [hwire] at hsuffix
  refine ⟨?_, List.suffix_nil.mp hsuffix⟩
  cases fin with
  | true => exact hprogress.ends rfl
  | false => exact hprogress.dry rfl rfl

/-- Calls of a reader that ran dry change nothing. -/
theorem perform_stuck (n : ℕ) {read : Read} (reads : List Read) {b : Buffers τ} (hwire : b.wire = [])
    (hdry : Scan read b.unread [] false b.unread) :
    (perform (List.replicate n []) (read :: reads) b).consumed = [] ∧
      (perform (List.replicate n []) (read :: reads) b).buffers.unread = b.unread ∧
      (perform (List.replicate n []) (read :: reads) b).remaining = read :: reads := by
  induction n generalizing b with
  | zero => exact ⟨rfl, rfl, rfl⟩
  | succ n ih =>
    rcases h : attempt read b [] with ⟨items, fin, b'⟩
    obtain ⟨hscan, hwire'⟩ := attempt_received hwire h
    obtain ⟨rfl, rfl, hsame⟩ := hscan.unique hdry
    rw [← hsame] at hdry
    obtain ⟨hconsumed, hunread, hremaining⟩ := ih hwire' hdry
    rw [List.replicate_succ, perform, h]
    exact ⟨by simpa [Reading.after] using hconsumed, hunread.trans hsame, hremaining⟩

/-- Once the whole stream has been received, one more call of each read
finishes the reading. -/
theorem perform_received (reads : List Read) {n : ℕ} {b : Buffers τ} (hn : reads.length ≤ n)
    (hwire : b.wire = []) :
    ScanAll reads b.unread (perform (List.replicate n []) reads b).consumed
      (perform (List.replicate n []) reads b).buffers.unread
      (perform (List.replicate n []) reads b).remaining := by
  induction n generalizing reads b with
  | zero =>
    have hnil : reads = [] := List.length_eq_zero_iff.mp (Nat.le_zero.mp hn)
    subst hnil
    exact .done
  | succ n ih =>
    cases reads with
    | nil => exact .done
    | cons read reads =>
      have hn' : reads.length ≤ n := by rw [List.length_cons] at hn; omega
      rcases h : attempt read b [] with ⟨items, fin, b'⟩
      obtain ⟨hscan, hwire'⟩ := attempt_received hwire h
      rw [List.replicate_succ, perform, h]
      cases fin with
      | true => exact .next hscan (ih reads hn' hwire')
      | false =>
        obtain ⟨hconsumed, hunread, hremaining⟩ :=
          perform_stuck n reads hwire' (hscan.dry_again rfl)
        dsimp only [Reading.after]
        rw [hconsumed, hunread, hremaining, List.append_nil]
        exact .dry hscan

/-- However the stream is cut into chunks and wherever timeouts fall, what the
reads have consumed is continued by reading the rest at once to exactly what
reading the whole stream at once consumes, down to the same unconsumed suffix.
When all reads are over nothing is left to continue, and once the stream has
been received one more call of each remaining read continues it. -/
theorem chunks_and_timeouts_change_nothing (schedule : List (List Arrival)) (hp : Patient schedule)
    (reads : List Read) (b : Buffers τ) :
    let run := perform schedule reads b
    let whole := performAtOnce reads b
    let rest := performAtOnce run.remaining run.buffers
    let last := perform (List.replicate run.remaining.length []) run.remaining run.buffers
    (run.consumed ++ rest.consumed = whole.consumed ∧ rest.buffers.unread = whole.buffers.unread ∧
      rest.remaining = whole.remaining) ∧
    (run.remaining = [] →
      run.consumed = whole.consumed ∧ run.buffers.unread = whole.buffers.unread) ∧
    (run.buffers.wire = [] →
      run.consumed ++ last.consumed = whole.consumed ∧
        last.buffers.unread = whole.buffers.unread ∧ last.remaining = whole.remaining) := by
  intro run whole rest last
  have hwhole : ScanAll reads b.unread whole.consumed whole.buffers.unread whole.remaining :=
    performAtOnce_scans reads b
  have hagree : run.consumed ++ rest.consumed = whole.consumed ∧
      rest.buffers.unread = whole.buffers.unread ∧ rest.remaining = whole.remaining :=
    (perform_scans hp (performAtOnce_scans run.remaining run.buffers)).unique hwhole
  refine ⟨hagree, fun hdone => ?_, fun hwire => ?_⟩
  · obtain ⟨hconsumed, hunread, -⟩ := hagree
    have hrest : rest = ⟨[], run.buffers, []⟩ := by
      change performAtOnce run.remaining run.buffers = _
      rw [hdone]
      rfl
    rw [hrest] at hconsumed hunread
    exact ⟨by rw [← hconsumed, List.append_nil], hunread⟩
  · have hlast := perform_received run.remaining (Nat.le_refl _) hwire
    exact (perform_scans hp hlast).unique hwhole

/-- Two frames around an acknowledgement. -/
def cutStream : Buffers Unit := ⟨[], cells () (asciiBytes "$T05#b9+$OK#9a".toList)⟩

/-- The first frame is cut inside its payload and inside its checksum, the
second one inside its checksum, and a timeout strikes at each cut. -/
def cutSchedule : List (List Arrival) :=
  [[.bytes 2, .timeout], [.bytes 2, .timeout], [.bytes 0], [.timeout], [.bytes 0],
    [.bytes 4, .timeout], [.bytes 0, .bytes 0]]

theorem chunks_and_timeouts_change_nothing_cut :
    (perform cutSchedule [.packet, .ack, .packet] cutStream).consumed =
      [.payload ⟨"T05".toList, ()⟩, .ack (), .payload ⟨"OK".toList, ()⟩] ∧
    (perform cutSchedule [.packet, .ack, .packet] cutStream).consumed =
      (performAtOnce [.packet, .ack, .packet] cutStream).consumed := by
  have hp : Patient cutSchedule := by
    unfold Patient cutSchedule
    decide
  have hdone : (perform cutSchedule [.packet, .ack, .packet] cutStream).remaining = [] := by
    decide +kernel
  have hagree := (chunks_and_timeouts_change_nothing cutSchedule hp [.packet, .ack, .packet] cutStream).2.1
  exact ⟨by decide +kernel, (hagree hdone).1⟩

end Readings

end DolphinRe.StreamDecoding
