import DolphinRe.StubBehaviour

/-!
# Accounts of a stream that arrives in time

When every send goes through and every read gets what it waits for, an
exchange consumes a definite stretch of the stream: it stashes the frames
before an acknowledgement, and takes the first frame after it.
-/

namespace DolphinRe.PromptStub

open GdbPackets GdbWire GdbTokens EffectProgram SessionMachine GdbClient LinkRefinement
  StubBehaviour

section Taking

variable {τ : Type}

/-- The frames among tokens, as packets. -/
def framePackets (tokens : List (Token τ)) : List (Packet τ) :=
  tokens.filterMap fun
    | .frame body tag => some (framePacket body tag)
    | _ => none

/-- A successful acknowledgement read takes the first acknowledgement and
stashes the frames before it. -/
theorem takeAck_ok {ending : Ending} {arrived : Option ℕ} {fails : List Bool}
    {ts rest : List (Token τ)} {tag : τ} {packets : List (Packet τ)}
    (h : takeAck ending arrived fails ts = (.ok tag, packets, rest)) :
    ∃ passed, ts = passed ++ .ack tag :: rest ∧ (∀ t ∈ passed, t.isFrame = true) ∧
      packets = framePackets passed := by
  induction ts generalizing arrived fails packets with
  | nil => simp [takeAck] at h
  | cons t ts ih =>
    unfold takeAck at h
    by_cases harrived : arrived = some 0
    · simp [harrived] at h
    rw [if_neg harrived] at h
    cases t with
    | ack tag' =>
      simp only [Prod.mk.injEq, Except.ok.injEq] at h
      obtain ⟨rfl, rfl, rfl⟩ := h
      exact ⟨[], rfl, by simp, rfl⟩
    | stray byte tag' => simp at h
    | frame body tag' =>
      dsimp only at h
      split_ifs at h with hfails
      · simp at h
      · rcases htail : takeAck ending (arrived.map (· - 1)) fails.tail ts with ⟨outcome, stashed, left⟩
        rw [htail] at h
        simp only [Prod.mk.injEq] at h
        obtain ⟨rfl, rfl, rfl⟩ := h
        obtain ⟨passed, rfl, hframes, rfl⟩ := ih htail
        refine ⟨.frame body tag' :: passed, rfl, ?_, rfl⟩
        intro t ht
        cases List.mem_cons.mp ht with
        | inl heq => rw [heq]; rfl
        | inr hmem => exact hframes t hmem

/-- A successful packet read takes the first frame. -/
theorem takeFrame_ok {net : TokenNet} {ts rest : List (Token τ)} {packet : Packet τ}
    (h : takeFrame net ts = (.ok packet, rest)) :
    ∃ skipped body tag, ts = skipped ++ .frame body tag :: rest ∧
      (∀ t ∈ skipped, t.isFrame = false) ∧ packet = framePacket body tag := by
  have hfirst : ∀ (arrived : Option ℕ) (ts : List (Token τ)),
      firstFrame arrived ts = some (packet, rest) →
      ∃ skipped body tag, ts = skipped ++ .frame body tag :: rest ∧
        (∀ t ∈ skipped, t.isFrame = false) ∧ packet = framePacket body tag := by
    intro arrived ts hts
    induction ts generalizing arrived with
    | nil => simp [firstFrame] at hts
    | cons t ts ih =>
      have hskip : t.isFrame = false → ∀ arrived', firstFrame arrived' ts = some (packet, rest) →
          ∃ skipped body tag, t :: ts = skipped ++ .frame body tag :: rest ∧
            (∀ t ∈ skipped, t.isFrame = false) ∧ packet = framePacket body tag := by
        intro ht arrived' hts'
        obtain ⟨skipped, body, tag, rfl, hskipped, hp⟩ := ih arrived' hts'
        refine ⟨t :: skipped, body, tag, rfl, ?_, hp⟩
        intro u hu
        cases List.mem_cons.mp hu with
        | inl heq => rw [heq, ht]
        | inr hmem => exact hskipped u hmem
      unfold firstFrame at hts
      split_ifs at hts with harrived
      cases t with
      | ack tag => exact hskip rfl _ hts
      | stray byte tag => exact hskip rfl _ hts
      | frame body tag =>
        simp only [Option.some.injEq, Prod.mk.injEq] at hts
        obtain ⟨rfl, rfl⟩ := hts
        exact ⟨[], body, tag, rfl, by simp, rfl⟩
  unfold takeFrame at h
  split at h
  · simp at h
  · rename_i found left hfound
    split_ifs at h with hfails
    · simp at h
    · simp only [Prod.mk.injEq, Except.ok.injEq] at h
      obtain ⟨rfl, rfl⟩ := h
      exact hfirst _ _ hfound

end Taking

section Accounts

/-- Sends go through, and reads get what they wait for. -/
def inTime (o : Op Origin) (answer : o.Answer) : Bool :=
  match o, answer with
  | .send _, .error _ => false
  | .consumeAck, .error _ => false
  | .readPacketFromWire _, .error _ => false
  | _, _ => true

/-- Everything arrives in time; nothing is said about what the stub sends. -/
def InTime : Discipline Origin := fun o _ _ answer => inTime o answer = true

instance (o : Op Origin) (c : Choice Origin Unit) (w : World Origin Unit) (answer : o.Answer) :
    Decidable (InTime o c w answer) :=
  inferInstanceAs (Decidable (_ = true))

/-- Since `before` the client has consumed `taken` off an open connection and
stashed some packets; everything else the stub has sent is unread. -/
structure Takes (before : TokenWorld) (taken : Tokens) (stashed : List (Packet Origin))
    (v : TokenWorld) : Prop where
  /-- The connection is open. -/
  connected : v.sockOpen = true
  /-- What has been consumed and what is unread is what was unread, and what was sent since. -/
  stream : ∃ new, v.emitted = before.emitted ++ new ∧ before.link ++ new = taken ++ v.link
  /-- The packets have been stashed behind the others. -/
  pending : v.pendingReplies = before.pendingReplies ++ stashed

variable {before w : TokenWorld} {taken : Tokens} {stashed : List (Packet Origin)}

theorem Takes.refl (h : w.sockOpen = true) : Takes w [] [] w := ⟨h, ⟨[], by simp, by simp⟩, by simp⟩

/-- What the stub sends of its own accord is unread. -/
theorem Takes.absorb (h : Takes before taken stashed w) (acts : List (StubAct Origin)) :
    Takes before taken stashed (w.absorb (tokenLink Origin) acts) := by
  obtain ⟨hlink, hemitted⟩ := World.absorb_open h.connected acts
  obtain ⟨new, hnew, hstream⟩ := h.stream
  refine ⟨by simpa using h.connected, ⟨new ++ acts.map StubAct.token, ?_, ?_⟩, by simpa using h.pending⟩
  · rw [hemitted, hnew, List.append_assoc]
  · rw [hlink, ← List.append_assoc, hstream, List.append_assoc]

/-- The machine over tokens. -/
abbrev promptMachine : Machine (signature Origin) (Choice Origin TokenNet) TokenWorld :=
  disciplined (tokenLink Origin) InTime

theorem wp_sendall_takes (message : Sent) (h : Takes before taken stashed w) :
    (sendall message).wp promptMachine (fun r v => r = .ok () ∧ Takes before taken stashed v) w := by
  rw [wp_sendall]
  intro c hc
  have hkept := h.absorb c.acts
  have hin : inTime (.send message) (World.send (tokenLink Origin) message c
      (w.absorb (tokenLink Origin) c.acts)).1 = true := hc.2
  change (World.send (tokenLink Origin) message c (w.absorb _ c.acts)).1 = .ok () ∧
    Takes before taken stashed (World.send (tokenLink Origin) message c (w.absorb _ c.acts)).2
  cases hsent : (World.send (tokenLink Origin) message c (w.absorb (tokenLink Origin) c.acts)).1 with
  | error e =>
    rw [hsent] at hin
    exact absurd hin Bool.false_ne_true
  | ok u =>
    obtain ⟨-, hdelivered⟩ := World.send_ok hsent
    obtain ⟨new, hnew, hstream⟩ := hkept.stream
    rw [hdelivered]
    refine ⟨rfl, hkept.connected, ⟨new ++ c.response, ?_, ?_⟩, hkept.pending⟩
    · rw [← List.append_assoc, ← hnew]
      rfl
    · rw [← List.append_assoc, hstream, List.append_assoc]
      rfl

theorem wp_consumeAck_takes (h : Takes before taken stashed w) :
    (consumeAck : Code Origin Unit).wp promptMachine (fun r v => r = .ok () ∧ ∃ passed tag,
      (∀ t ∈ passed, t.isFrame = true) ∧
        Takes before (taken ++ passed ++ [.ack tag]) (stashed ++ framePackets passed) v) w := by
  rw [wp_consumeAck]
  intro c hc
  have hkept := h.absorb c.acts
  have hin : inTime .consumeAck (World.consumeAck (tokenLink Origin) c
      (w.absorb (tokenLink Origin) c.acts)).1 = true := hc.2
  change (World.consumeAck (tokenLink Origin) c (w.absorb _ c.acts)).1 = .ok () ∧ ∃ passed tag, _ ∧
    Takes before _ _ (World.consumeAck (tokenLink Origin) c (w.absorb _ c.acts)).2
  rw [World.consumeAck_open hkept.connected] at hin ⊢
  rcases hread : (tokenLink Origin).consumeAck c.net (w.absorb (tokenLink Origin) c.acts).link with
    ⟨e | tag, packets, left⟩
  · rw [hread] at hin
    exact absurd hin Bool.false_ne_true
  · obtain ⟨passed, hlink, hframes, rfl⟩ := takeAck_ok hread
    obtain ⟨new, hnew, hstream⟩ := hkept.stream
    refine ⟨rfl, passed, tag, hframes, rfl, ⟨new, hnew, ?_⟩, ?_⟩
    · rw [hstream, hlink]
      simp
    · change (w.absorb (tokenLink Origin) c.acts).pendingReplies ++ framePackets passed = _
      rw [hkept.pending, List.append_assoc]

theorem wp_read_takes (timeout : Option ℕ) (h : Takes before taken stashed w) :
    (readPacketFromWire timeout).wp promptMachine (fun r v => ∃ skipped body tag,
      (∀ t ∈ skipped, t.isFrame = false) ∧ r = .ok (framePacket body tag) ∧
        Takes before (taken ++ skipped ++ [.frame body tag]) stashed v) w := by
  rw [wp_readPacketFromWire]
  intro c hc
  have hkept := h.absorb c.acts
  have hin : inTime (.readPacketFromWire timeout) (World.readPacket (tokenLink Origin) c
      (w.absorb (tokenLink Origin) c.acts)).1 = true := hc.2
  change ∃ skipped body tag, _ ∧ (World.readPacket (tokenLink Origin) c (w.absorb _ c.acts)).1 = _ ∧
    Takes before _ _ (World.readPacket (tokenLink Origin) c (w.absorb _ c.acts)).2
  rw [World.readPacket_open hkept.connected] at hin ⊢
  rcases hread : (tokenLink Origin).readPacket c.net (w.absorb (tokenLink Origin) c.acts).link with
    ⟨e | packet, left⟩
  · rw [hread] at hin
    exact absurd hin Bool.false_ne_true
  · obtain ⟨skipped, body, tag, hlink, hskipped, rfl⟩ := takeFrame_ok hread
    obtain ⟨new, hnew, hstream⟩ := hkept.stream
    refine ⟨skipped, body, tag, hskipped, rfl, rfl, ⟨new, hnew, ?_⟩, hkept.pending⟩
    rw [hstream, hlink]
    simp

/-- An exchange takes the frames up to the first acknowledgement and the first
frame after it, which it hands out. -/
theorem wp_cmd_takes (command : Command) (timeout : Option ℕ) (h : w.sockOpen = true) :
    ((sendPacket command).bind fun _ => readPacketFromWire timeout).wp promptMachine (fun r v =>
      ∃ passed tag skipped body tag', (∀ t ∈ passed, t.isFrame = true) ∧
        (∀ t ∈ skipped, t.isFrame = false) ∧ r = .ok (framePacket body tag') ∧
        Takes w (passed ++ .ack tag :: (skipped ++ [.frame body tag'])) (framePackets passed) v) w := by
  unfold sendPacket
  rw [Program.wp_bind, Program.bind_eq, Program.wp_bind]
  refine Program.wp_mono ?_ (wp_sendall_takes _ (Takes.refl h))
  rintro r₁ v₁ ⟨rfl, hv₁⟩
  refine Program.wp_mono ?_ (wp_consumeAck_takes hv₁)
  rintro r₂ v₂ ⟨rfl, passed, tag, hpassed, hv₂⟩
  refine Program.wp_mono ?_ (wp_read_takes timeout hv₂)
  rintro r₃ v₃ ⟨skipped, body, tag', hskipped, rfl, hv₃⟩
  refine ⟨passed, tag, skipped, body, tag', hpassed, hskipped, rfl, ?_⟩
  simpa using hv₃

end Accounts

end DolphinRe.PromptStub
