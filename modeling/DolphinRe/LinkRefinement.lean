import DolphinRe.ExecutionTools

/-!
# Disciplined environments and the refinement of links

A discipline restricts what the stub and the network may do at an access, in
terms of everything except the representation of unread data. Under any
discipline the byte machine is simulated by the token machine, so what is
proved of client code over tokens holds over bytes.
-/

namespace DolphinRe.LinkRefinement

open GdbPackets GdbWire GdbTokens EffectProgram SessionMachine

section Disciplines

variable {τ N N' L L' : Type}

/-- Replace what the network does. -/
def withNet (c : Choice τ N) (net : N') : Choice τ N' :=
  ⟨c.acts, net, c.sendFails, c.obeyed, c.response, c.refused, c.attaches, c.host, c.turns⟩

/-- Replace the unread data. -/
def withLink (w : World τ L) (link : L') : World τ L' :=
  ⟨w.state, w.attached, w.autoResume, w.breakpoints, w.nextId, w.watcher, w.sockOpen,
    w.sockTimeout, w.pendingReplies, link, w.running, w.armed, w.commands, w.watchers, w.emitted,
    w.trace⟩

/-- What may happen at an access: the choice without its network part, the
world without its unread data, and the answer. -/
abbrev Discipline (τ : Type) := (o : Op τ) → Choice τ Unit → World τ Unit → o.Answer → Prop

/-- The machine of a link under a discipline. -/
def disciplined (link : Link τ N L) (allowed : Discipline τ) :
    Machine (signature τ) (Choice τ N) (World τ L) :=
  (machine link).restrict fun o c w =>
    allowed o (withNet c ()) (withLink w ()) (World.step link o c w).1

instance (link : Link τ N L) (allowed : Discipline τ) [∀ o c w a, Decidable (allowed o c w a)]
    (o : Op τ) (c : Choice τ N) (w : World τ L) :
    Decidable ((disciplined link allowed).admits o c w) :=
  inferInstanceAs (Decidable (True ∧ allowed o (withNet c ()) (withLink w ()) (World.step link o c w).1))

/-- Two worlds that differ in their unread data only, which is related. -/
def Same (R : L → L' → Prop) (w : World τ L) (w' : World τ L') : Prop :=
  ∃ link, w' = withLink w link ∧ R w.link link

/-- Steps of two links agree, and leave related worlds. -/
def Agree {α : Type} (R : L → L' → Prop) (r : α × World τ L) (r' : α × World τ L') : Prop :=
  r.1 = r'.1 ∧ Same R r.2 r'.2

variable {A : Link τ N L} {B : Link τ N' L'} {R : L → L' → Prop}

theorem same_emit (h : Refines A B R) (tokens : List (Token τ)) {w : World τ L} {w' : World τ L'}
    (hw : Same R w w') : Same R (w.emit A tokens) (w'.emit B tokens) := by
  obtain ⟨l, rfl, hl⟩ := hw
  by_cases hopen : w.sockOpen = true
  · rw [World.emit, World.emit, if_pos hopen, if_pos (show (withLink w l).sockOpen = true from hopen)]
    exact ⟨B.emit tokens l, rfl, h.emit tokens _ _ hl⟩
  · rw [World.emit, World.emit, if_neg hopen,
      if_neg (show ¬(withLink w l).sockOpen = true from hopen)]
    exact ⟨l, rfl, hl⟩

theorem same_act (h : Refines A B R) (a : StubAct τ) {w : World τ L} {w' : World τ L'}
    (hw : Same R w w') : Same R (w.act A a) (w'.act B a) := by
  obtain ⟨l, hl, hr⟩ := same_emit h [a.token] hw
  obtain ⟨l₀, rfl, -⟩ := hw
  refine ⟨l, ?_, hr⟩
  unfold World.act
  rw [hl]
  rfl

theorem same_absorb (h : Refines A B R) (acts : List (StubAct τ)) {w : World τ L}
    {w' : World τ L'} (hw : Same R w w') : Same R (w.absorb A acts) (w'.absorb B acts) := by
  induction acts generalizing w w' with
  | nil => exact hw
  | cons a acts ih => exact ih (same_act h a hw)

theorem agree_connect (h : Refines A B R) (c : Choice τ N) (net : N') {w : World τ L}
    {w' : World τ L'} (hw : Same R w w') :
    Agree R (w.connect A c) (w'.connect B (withNet c net)) := by
  obtain ⟨l, rfl, hl⟩ := hw
  unfold World.connect
  by_cases hopen : w.sockOpen = true
  · rw [if_pos hopen, if_pos (show (withLink w l).sockOpen = true from hopen)]
    exact ⟨rfl, l, rfl, hl⟩
  · rw [if_neg hopen, if_neg (show ¬(withLink w l).sockOpen = true from hopen)]
    by_cases hrefused : c.refused = true
    · rw [if_pos hrefused, if_pos (show (withNet c net).refused = true from hrefused)]
      exact ⟨rfl, l, rfl, hl⟩
    · rw [if_neg hrefused, if_neg (show ¬(withNet c net).refused = true from hrefused)]
      exact ⟨rfl, B.fresh, rfl, h.fresh⟩

theorem agree_send (h : Refines A B R) (message : Sent) (c : Choice τ N) (net : N')
    {w : World τ L} {w' : World τ L'} (hw : Same R w w') :
    Agree R (w.send A message c) (w'.send B message (withNet c net)) := by
  obtain ⟨l, rfl, hl⟩ := hw
  unfold World.send
  by_cases hopen : w.sockOpen = true
  · rw [if_pos hopen, if_pos (show (withLink w l).sockOpen = true from hopen)]
    by_cases hfails : c.sendFails = true
    · rw [if_pos hfails, if_pos (show (withNet c net).sendFails = true from hfails)]
      exact ⟨rfl, B.fresh, rfl, h.fresh⟩
    · rw [if_neg hfails, if_neg (show ¬(withNet c net).sendFails = true from hfails)]
      exact ⟨rfl, B.emit c.response l, rfl, h.emit _ _ _ hl⟩
  · rw [if_neg hopen, if_neg (show ¬(withLink w l).sockOpen = true from hopen)]
    exact ⟨rfl, l, rfl, hl⟩

theorem agree_consumeAck (h : Refines A B R) (c : Choice τ N) {w : World τ L} {w' : World τ L'}
    (hw : Same R w w') : ∃ net,
      Agree R (w.consumeAck A c) (w'.consumeAck B (withNet c net)) := by
  obtain ⟨l, rfl, hl⟩ := hw
  obtain ⟨net, houtcome, hpackets, hleft⟩ := h.consumeAck c.net w.link l hl
  refine ⟨net, ?_⟩
  unfold World.consumeAck
  by_cases hopen : w.sockOpen = true
  · rw [if_pos hopen, if_pos (show (withLink w l).sockOpen = true from hopen)]
    rcases hA : A.consumeAck c.net w.link with ⟨outcome, packets, left⟩
    rcases hB : B.consumeAck net l with ⟨outcome', packets', left'⟩
    rw [hA, hB] at houtcome hpackets hleft
    dsimp only at houtcome hpackets hleft
    subst houtcome hpackets
    rw [show B.consumeAck (withNet c net).net (withLink w l).link = _ from hB]
    exact ⟨rfl, left', rfl, hleft⟩
  · rw [if_neg hopen, if_neg (show ¬(withLink w l).sockOpen = true from hopen)]
    exact ⟨rfl, l, rfl, hl⟩

theorem agree_readPacket (h : Refines A B R) (c : Choice τ N) {w : World τ L} {w' : World τ L'}
    (hw : Same R w w') : ∃ net,
      Agree R (w.readPacket A c) (w'.readPacket B (withNet c net)) := by
  obtain ⟨l, rfl, hl⟩ := hw
  obtain ⟨net, houtcome, hleft⟩ := h.readPacket c.net w.link l hl
  refine ⟨net, ?_⟩
  unfold World.readPacket
  by_cases hopen : w.sockOpen = true
  · rw [if_pos hopen, if_pos (show (withLink w l).sockOpen = true from hopen)]
    rcases hA : A.readPacket c.net w.link with ⟨outcome, left⟩
    rcases hB : B.readPacket net l with ⟨outcome', left'⟩
    rw [hA, hB] at houtcome hleft
    dsimp only at houtcome hleft
    subst houtcome
    rw [show B.readPacket (withNet c net).net (withLink w l).link = _ from hB]
    exact ⟨rfl, left', rfl, hleft⟩
  · rw [if_neg hopen, if_neg (show ¬(withLink w l).sockOpen = true from hopen)]
    exact ⟨rfl, l, rfl, hl⟩

/-- Every step over one link is a step over the link it refines. -/
theorem agree_step [Inhabited N'] (h : Refines A B R) (o : Op τ) (c : Choice τ N) {w : World τ L}
    {w' : World τ L'} (hw : Same R w w') : ∃ net,
      Agree R (World.step A o c w) (World.step B o (withNet c net) w') := by
  have habsorb := same_absorb h c.acts hw
  cases o with
  | consumeAck => exact agree_consumeAck h c habsorb
  | readPacketFromWire timeout => exact agree_readPacket h c habsorb
  | connect => exact ⟨default, agree_connect h c default habsorb⟩
  | send message => exact ⟨default, agree_send h message c default habsorb⟩
  | tryAttach =>
    obtain ⟨l, hl, hr⟩ := habsorb
    refine ⟨default, rfl, l, ?_, hr⟩
    exact congrArg (fun v : World τ L' => {v with attached := c.attaches}) hl
  | hostRead addr size => exact ⟨default, rfl, habsorb⟩
  | hostWrite addr data => exact ⟨default, rfl, habsorb⟩
  | turns budget => exact ⟨default, rfl, habsorb⟩
  | sleep duration => exact ⟨default, rfl, habsorb⟩
  | join thread => exact ⟨default, rfl, habsorb⟩
  | close =>
    obtain ⟨l, rfl, hl⟩ := hw
    refine ⟨default, rfl, ?_⟩
    cases hopen : w.sockOpen with
    | false => exact ⟨l, by simp [World.step, withLink, hopen], by simpa [World.step, hopen] using hl⟩
    | true =>
      exact ⟨B.fresh, by simp [World.step, World.closed, withLink, hopen],
        by simpa [World.step, World.closed, hopen] using h.fresh⟩
  | markRunning =>
    obtain ⟨l, rfl, hl⟩ := hw
    refine ⟨default, rfl, l, ?_, ?_⟩
    · dsimp only [World.step, withLink]
      split_ifs <;> rfl
    · dsimp only [World.step]
      split_ifs <;> exact hl
  | markPaused =>
    obtain ⟨l, rfl, hl⟩ := hw
    refine ⟨default, rfl, l, ?_, ?_⟩
    · dsimp only [World.step, withLink]
      split_ifs <;> rfl
    · dsimp only [World.step]
      split_ifs <;> exact hl
  | _ =>
    obtain ⟨l, rfl, hl⟩ := hw
    exact ⟨default, rfl, l, rfl, hl⟩

/-- Under one discipline, the machine of a link is simulated by the machine of
the link it refines. -/
theorem disciplined_simulates [Inhabited N'] (h : Refines A B R) (allowed : Discipline τ) :
    Simulates (disciplined A allowed) (disciplined B allowed) (Same R) where
  step o c w w' hw hc := by
    obtain ⟨net, hanswer, hnext⟩ := agree_step h o c hw
    refine ⟨withNet c net, ⟨trivial, ?_⟩, hanswer, hnext⟩
    obtain ⟨l, rfl, -⟩ := hw
    have hallowed := hc.2
    dsimp only at hallowed ⊢
    rw [← hanswer]
    exact hallowed

end Disciplines

end DolphinRe.LinkRefinement
