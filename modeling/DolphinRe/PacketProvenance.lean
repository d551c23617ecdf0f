import DolphinRe.LinkRefinement

/-!
# Where returned packets come from

A packet reaches the caller from the wire or from the stash, and the stash is
filled from the wire only. What is known of the origin of everything the stub
sends is therefore known of every packet a client operation returns.
-/

namespace DolphinRe.PacketProvenance

open GdbPackets GdbWire GdbTokens EffectProgram SessionMachine GdbClient LinkRefinement

section Links

variable {τ N N' L L' : Type} {P : τ → Prop} {sends : List (Token τ) → Prop}

/-- Unread data from which an acknowledgement read stashes packets of known
origin only, as long as the stub sends what it may. -/
structure Stashes (link : Link τ N L) (sends : List (Token τ) → Prop) (P : τ → Prop)
    (ready : L → Prop) : Prop where
  /-- A new connection holds nothing of other origin. -/
  fresh : ready link.fresh
  /-- Nor does it when the stub sends what it may. -/
  emit : ∀ tokens l, sends tokens → ready l → ready (link.emit tokens l)
  /-- What an acknowledgement read stashes has a known origin. -/
  stash : ∀ net l, ready l → ∀ packet ∈ (link.consumeAck net l).2.1, P packet.tag

/-- Unread data of known origin, whatever is read from it. -/
structure Owns (link : Link τ N L) (P : τ → Prop) (owned : L → Prop) : Prop extends
    Stashes link (fun tokens => ∀ t ∈ tokens, P t.tag) P owned where
  /-- What such a read leaves has a known origin. -/
  left : ∀ net l, owned l → owned (link.consumeAck net l).2.2
  /-- So has a packet that is read. -/
  read : ∀ net l packet, owned l → (link.readPacket net l).1 = .ok packet → P packet.tag
  /-- So has what is left behind the packet. -/
  rest : ∀ net l, owned l → owned (link.readPacket net l).2

/-- What a refining link reads is known from what the refined one reads. -/
theorem Stashes.refined {A : Link τ N L} {B : Link τ N' L'} {R : L → L' → Prop}
    {ready : L' → Prop} (h : Stashes B sends P ready) (hR : Refines A B R) :
    Stashes A sends P fun l => ∃ l', R l l' ∧ ready l' where
  fresh := ⟨B.fresh, hR.fresh, h.fresh⟩
  emit := by
    rintro tokens l hsends ⟨l', hl, hready⟩
    exact ⟨B.emit tokens l', hR.emit tokens l l' hl, h.emit tokens l' hsends hready⟩
  stash := by
    rintro net l ⟨l', hl, hready⟩ packet hpacket
    obtain ⟨net', _, hstash, _⟩ := hR.consumeAck net l l' hl
    rw [hstash] at hpacket
    exact h.stash net' l' hready packet hpacket

theorem Owns.refined {A : Link τ N L} {B : Link τ N' L'} {R : L → L' → Prop}
    {owned : L' → Prop} (h : Owns B P owned) (hR : Refines A B R) :
    Owns A P fun l => ∃ l', R l l' ∧ owned l' where
  toStashes := h.toStashes.refined hR
  left := by
    rintro net l ⟨l', hl, howned⟩
    obtain ⟨net', _, _, hleft⟩ := hR.consumeAck net l l' hl
    exact ⟨_, hleft, h.left net' l' howned⟩
  read := by
    rintro net l packet ⟨l', hl, howned⟩ hpacket
    obtain ⟨net', houtcome, _⟩ := hR.readPacket net l l' hl
    rw [houtcome] at hpacket
    exact h.read net' l' packet howned hpacket
  rest := by
    rintro net l ⟨l', hl, howned⟩
    obtain ⟨net', _, hrest⟩ := hR.readPacket net l l' hl
    exact ⟨_, hrest, h.rest net' l' howned⟩

/-- Acknowledgements. -/
def isAck : Token τ → Bool
  | .ack _ => true
  | _ => false

/-- The tokens before the first acknowledgement. -/
def beforeAck (tokens : List (Token τ)) : List (Token τ) := tokens.takeWhile fun t => !isAck t

theorem mem_beforeAck_append {t : Token τ} {ts us : List (Token τ)} (h : t ∈ beforeAck (ts ++ us)) :
    t ∈ beforeAck ts ∨ t ∈ beforeAck us := by
  induction ts with
  | nil => exact Or.inr h
  | cons token ts ih =>
    unfold beforeAck at h ih ⊢
    rw [List.cons_append, List.takeWhile_cons] at h
    rw [List.takeWhile_cons]
    split_ifs at h ⊢ with hack
    · rcases List.mem_cons.mp h with rfl | h
      · exact Or.inl List.mem_cons_self
      · exact (ih h).imp_left (List.mem_cons_of_mem _)
    · simp at h

/-- An acknowledgement read stashes frames from before the first acknowledgement only. -/
theorem takeAck_stash (ending : Ending) (arrived : Option ℕ) (fails : List Bool)
    (tokens : List (Token τ)) : ∀ packet ∈ (takeAck ending arrived fails tokens).2.1,
      ∃ t ∈ beforeAck tokens, t.tag = packet.tag := by
  induction tokens generalizing arrived fails with
  | nil => simp [takeAck]
  | cons token rest ih =>
    intro packet hpacket
    unfold takeAck at hpacket
    by_cases harrived : arrived = some 0
    · rw [if_pos harrived] at hpacket
      simp at hpacket
    · rw [if_neg harrived] at hpacket
      cases token with
      | ack tag => simp at hpacket
      | stray byte tag => simp at hpacket
      | frame body tag =>
        dsimp only at hpacket
        split_ifs at hpacket
        · simp at hpacket
        · have hbefore : beforeAck (.frame body tag :: rest) = .frame body tag :: beforeAck rest := rfl
          rw [hbefore]
          rcases List.mem_cons.mp hpacket with rfl | hpacket
          · exact ⟨_, List.mem_cons_self, rfl⟩
          · obtain ⟨t, ht, htag⟩ := ih _ _ packet hpacket
            exact ⟨t, List.mem_cons_of_mem _ ht, htag⟩

theorem mem_of_mem_left {t : Token τ} {ending : Ending} {tokens : List (Token τ)}
    (h : t ∈ ending.left tokens) : t ∈ tokens := by
  cases ending with
  | lost message => simp [Ending.left] at h
  | timeout => exact h
  | reset => exact h

theorem takeAck_left (ending : Ending) (arrived : Option ℕ) (fails : List Bool)
    (tokens : List (Token τ)) : ∀ t ∈ (takeAck ending arrived fails tokens).2.2, t ∈ tokens := by
  induction tokens generalizing arrived fails with
  | nil => simp [takeAck]
  | cons token rest ih =>
    intro t ht
    unfold takeAck at ht
    by_cases harrived : arrived = some 0
    · rw [if_pos harrived] at ht
      exact mem_of_mem_left ht
    · rw [if_neg harrived] at ht
      cases token with
      | ack tag => exact List.mem_cons_of_mem _ ht
      | stray byte tag => exact List.mem_cons_of_mem _ ht
      | frame body tag =>
        dsimp only at ht
        split_ifs at ht
        · simp at ht
        · exact List.mem_cons_of_mem _ (ih _ _ t ht)

/-- The first frame is among the tokens, and so is what follows it. -/
theorem firstFrame_mem {arrived : Option ℕ} {tokens rest : List (Token τ)} {packet : Packet τ}
    (h : firstFrame arrived tokens = some (packet, rest)) :
    (∃ t ∈ tokens, t.tag = packet.tag) ∧ ∀ t ∈ rest, t ∈ tokens := by
  induction tokens generalizing arrived with
  | nil => simp [firstFrame] at h
  | cons token tokens ih =>
    have hlater : firstFrame (arrived.map (· - 1)) tokens = some (packet, rest) →
        (∃ t ∈ token :: tokens, t.tag = packet.tag) ∧ ∀ t ∈ rest, t ∈ token :: tokens := by
      intro hrest
      obtain ⟨⟨t, ht, htag⟩, hmem⟩ := ih hrest
      exact ⟨⟨t, List.mem_cons_of_mem _ ht, htag⟩, fun t ht => List.mem_cons_of_mem _ (hmem t ht)⟩
    unfold firstFrame at h
    split_ifs at h
    cases token with
    | frame body tag =>
      rw [Option.some.injEq, Prod.mk.injEq] at h
      obtain ⟨rfl, rfl⟩ := h
      exact ⟨⟨_, List.mem_cons_self, rfl⟩, fun t ht => List.mem_cons_of_mem _ ht⟩
    | ack tag => exact hlater h
    | stray byte tag => exact hlater h

theorem takeFrame_read {net : TokenNet} {tokens : List (Token τ)} {packet : Packet τ}
    (h : (takeFrame net tokens).1 = .ok packet) : ∃ t ∈ tokens, t.tag = packet.tag := by
  unfold takeFrame at h
  split at h
  · simp at h
  · rename_i found rest hfirst
    split_ifs at h
    rw [Except.ok.injEq] at h
    exact h ▸ (firstFrame_mem hfirst).1

theorem takeFrame_rest (net : TokenNet) (tokens : List (Token τ)) :
    ∀ t ∈ (takeFrame net tokens).2, t ∈ tokens := by
  intro t ht
  unfold takeFrame at ht
  split at ht
  · exact mem_of_mem_left ht
  · rename_i found rest hfirst
    split_ifs at ht
    · simp at ht
    · exact (firstFrame_mem hfirst).2 t ht

/-- Before the first acknowledgement, only what precedes one can be stashed. -/
theorem tokenLink_stashes (P : τ → Prop) : Stashes (tokenLink τ)
    (fun tokens => ∀ t ∈ beforeAck tokens, P t.tag) P fun l => ∀ t ∈ beforeAck l, P t.tag where
  fresh := by simp [tokenLink, beforeAck]
  emit tokens l hsends hready t ht := by
    have hmem : t ∈ beforeAck l ∨ t ∈ beforeAck tokens := mem_beforeAck_append ht
    exact hmem.elim (hready t) (hsends t)
  stash net l hready packet hpacket := by
    obtain ⟨t, ht, htag⟩ := takeAck_stash net.ending net.arrived net.ackFails l packet hpacket
    exact htag ▸ hready t ht

/-- Tokens of known origin are read as packets of known origin. -/
theorem tokenLink_owns (P : τ → Prop) : Owns (tokenLink τ) P fun l => ∀ t ∈ l, P t.tag where
  fresh := by simp [tokenLink]
  emit tokens l hsends howned t ht := (List.mem_append.mp ht).elim (howned t) (hsends t)
  stash net l howned packet hpacket := by
    obtain ⟨t, ht, htag⟩ := takeAck_stash net.ending net.arrived net.ackFails l packet hpacket
    exact htag ▸ howned t ((List.takeWhile_subset _) ht)
  left net l howned t ht := howned t (takeAck_left net.ending net.arrived net.ackFails l t ht)
  read net l packet howned hpacket := by
    obtain ⟨t, ht, htag⟩ := takeFrame_read hpacket
    exact htag ▸ howned t ht
  rest net l howned t ht := howned t (takeFrame_rest net l t ht)

/-- Bytes of known origin: they render tokens of known origin. -/
def ownedBytes (P : τ → Prop) (b : Buffers τ) : Prop := ∃ tokens, Renders b tokens ∧ ∀ t ∈ tokens, P t.tag

theorem byteLink_owns (P : τ → Prop) : Owns (byteLink τ) P (ownedBytes P) :=
  (tokenLink_owns P).refined byteLink_refines

end Links

end DolphinRe.PacketProvenance
