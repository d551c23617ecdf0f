import DolphinRe.ContainedErrors
import DolphinRe.StubBehaviour

/-!
# The context around breakpoint changes

A change finds the target paused: the context pauses a running target before
its body and resumes it afterwards, and leaves any other session alone. The
session state at exit is the one at entry, however the loops of the context
end and whether or not the body raises.
-/

namespace DolphinRe.ModifyContext

open GdbPackets GdbWire GdbTokens StopReplies EffectProgram SessionMachine GdbClient BreakpointTools
  StubBehaviour Footprints ContainedErrors

section Statement

variable {τ N L : Type}

/-- The interrupt and the `c` packet. -/
def steers : Sent → Bool
  | .interrupt => true
  | .packet .resume => true
  | _ => false

/-- The `c` packet. -/
def isResume : Sent → Bool
  | .packet .resume => true
  | _ => false

/-- Records of a message of a kind. -/
def isSent (kind : Sent → Bool) : Obs τ → Bool
  | .sent message _ => kind message
  | _ => false

/-- How many messages of a kind have left the client. -/
def sentSoFar (kind : Sent → Bool) (w : World τ L) : ℕ := w.trace.countP (isSent kind)

/-- Accesses that neither assign the session state nor send a message of a kind. -/
def sparing (kind : Sent → Bool) : Op τ → Prop
  | .send message => kind message = false
  | .setState _ => False
  | .markRunning => False
  | .markPaused => False
  | _ => True

/-- What runs inside a context: traffic without interrupts and resumes that
leaves the session state alone, further contexts, and their compositions. -/
inductive Modification : (α : Type) → Code τ α → Prop
  | accesses {α : Type} {p : Code τ α} : p.Uses (sparing steers) → Modification α p
  | nested {α : Type} {p : Code τ α} : Modification α p → Modification α (safeToModify p)
  | bind {α β : Type} {p : Code τ α} {f : α → Code τ β} : Modification α p →
    (∀ a, Modification β (f a)) → Modification β (p.bind f)
  | attempt {α : Type} {p : Code τ α} : Modification α p → Modification _ p.attempt

/-- Nothing was sent that pauses or resumes the target, and the state stays. -/
structure Untouched (before after : World τ L) : Prop where
  /-- The session state is the same. -/
  state : after.state = before.state
  /-- So are the messages sent so far that pause or resume. -/
  sent : sentSoFar steers after = sentSoFar steers before

/-- The body was not run: after the probe nothing changed but the state. -/
structure Refused {α : Type} (probed : World τ L) (outcome : Except PyError α)
    (after : World τ L) : Prop where
  /-- The call raises that the stub is wedged. -/
  outcome : outcome = .error wedgedBeforeModify
  /-- The probe is all that has happened. -/
  after : after = {probed with state := .error}

/-- The body ran paused, between two drains, with no `c` sent before its end.
Once the closing `c` is accepted, exactly that one was sent, the session runs
again, and the outcome is that of the body. -/
def Wrapped {α : Type} (link : Link τ N L) (body : Code τ α) (before : World τ L)
    (outcome : Except PyError α) (after : World τ L) : Prop :=
  ∃ entered inner left dropped drained closing resumed,
    entered.state = .connectedPaused ∧
    body.Reaches (machine link) entered inner left ∧
    left.state = .connectedPaused ∧
    sentSoFar isResume left = sentSoFar isResume before ∧
    (drainStopReplies 50).Reaches (machine link) left (.ok dropped) drained ∧
    continueAsync.Reaches (machine link) drained closing resumed ∧
    (closing = .ok () → outcome = inner ∧ after.state = .connectedRunning ∧
      sentSoFar isResume after = sentSoFar isResume before + 1)

end Statement

section Steps

variable {τ N L : Type} {link : Link τ N L} {kind : Sent → Bool} {state : SessionState} {n : ℕ}

/-- The session state, and how many messages of a kind were sent so far. -/
def Steady (kind : Sent → Bool) (state : SessionState) (n : ℕ) (w : World τ L) : Prop :=
  w.state = state ∧ sentSoFar kind w = n

/-- Events that are no such message are not counted. -/
theorem sentSoFar_note (w : World τ L) (event : Obs τ) {v : World τ L}
    (h : v.trace = w.trace ++ [event]) (hevent : isSent kind event = false) :
    sentSoFar kind v = sentSoFar kind w := by
  rw [sentSoFar, sentSoFar, h, List.countP_append, List.countP_singleton, hevent]
  simp

/-- The messages are told by the trace. -/
theorem sentSoFar_same {v w : World τ L} (h : v.trace = w.trace) :
    sentSoFar kind v = sentSoFar kind w := by
  rw [sentSoFar, sentSoFar, h]

/-- What the stub does on its own sends nothing. -/
theorem Steady.absorb {w : World τ L} (h : Steady kind state n w) (acts : List (StubAct τ)) :
    Steady kind state n (w.absorb link acts) := by
  refine ⟨(World.absorb_state link acts w).trans h.1, ?_⟩
  exact (sentSoFar_same (World.absorb_trace link acts w)).trans h.2

/-- A message that leaves the client is counted when it is of the kind. -/
theorem sentSoFar_delivered (message : Sent) (c : Choice τ N) (w : World τ L) :
    sentSoFar kind (w.delivered link message c) =
      sentSoFar kind w + if kind message then 1 else 0 := by
  have htrace : (w.delivered link message c).trace = w.trace ++ [.sent message c.obeyed] := rfl
  rw [sentSoFar, sentSoFar, htrace, List.countP_append, List.countP_singleton]
  rfl

/-- Other messages are not counted. -/
theorem Steady.send {w : World τ L} (h : Steady kind state n w) {message : Sent}
    (hkind : kind message = false) (c : Choice τ N) :
    Steady kind state n (w.send link message c).2 := by
  unfold World.send
  split_ifs
  · exact h
  · refine ⟨h.1, ?_⟩
    rw [sentSoFar_delivered, hkind]
    exact h.2
  · exact h

/-- Waiting for an acknowledgement sends nothing. -/
theorem Steady.consumeAck {w : World τ L} (h : Steady kind state n w) (c : Choice τ N) :
    Steady kind state n (w.consumeAck link c).2 := by
  cases hopen : w.sockOpen with
  | false =>
    rw [World.consumeAck_closed hopen]
    exact h
  | true =>
    rw [World.consumeAck_open hopen]
    refine ⟨h.1, (sentSoFar_note w _ rfl ?_).trans h.2⟩
    cases (link.consumeAck c.net w.link).1 <;> rfl

/-- Neither does reading a packet. -/
theorem Steady.readPacket {w : World τ L} (h : Steady kind state n w) (c : Choice τ N) :
    Steady kind state n (w.readPacket link c).2 := by
  cases hopen : w.sockOpen with
  | false =>
    rw [World.readPacket_closed hopen]
    exact h
  | true =>
    rw [World.readPacket_open hopen]
    refine ⟨h.1, (sentSoFar_note w _ rfl ?_).trans h.2⟩
    cases (link.readPacket c.net w.link).1 <;> rfl

/-- Nor does opening a connection. -/
theorem Steady.connect {w : World τ L} (h : Steady kind state n w) (c : Choice τ N) :
    Steady kind state n (w.connect link c).2 := by
  unfold World.connect
  split_ifs <;> exact h

/-- An access that spares the state and messages of a kind keeps both. -/
theorem steady_step {o : Op τ} (ho : sparing kind o) (c : Choice τ N) {w : World τ L}
    (h : Steady kind state n w) : Steady kind state n (World.step link o c w).2 := by
  cases o
  case send message => exact (h.absorb c.acts).send ho c
  case consumeAck => exact (h.absorb c.acts).consumeAck c
  case readPacketFromWire timeout => exact (h.absorb c.acts).readPacket c
  case connect => exact (h.absorb c.acts).connect c
  case appendLog bpId capture raw => exact ⟨h.1, (sentSoFar_note w _ rfl rfl).trans h.2⟩
  case pushPending raw => exact ⟨h.1, (sentSoFar_note w _ rfl rfl).trans h.2⟩
  case close =>
    change Steady kind state n (if w.sockOpen then w.closed link else w)
    split_ifs <;> exact h
  all_goals first | exact h | exact h.absorb c.acts | exact ho.elim

/-- Code that spares such messages sends none. -/
theorem keeps_steady {α : Type} {p : Code τ α} (hp : p.Uses (sparing kind)) :
    p.Keeps (machine link) (Steady kind state n) :=
  fun _ h => Program.wp_of_uses (fun _ c _ ho _ hw => steady_step ho c hw) hp h

/-- On a socket link, single accesses raise what the loops of the context contain. -/
theorem contained_steady (hlink : RaisesAsSockets link) :
    Contained (machine link) (Steady kind state n) (fun message => kind message = false)
      probeFails readFails where
  step o c w ho _ h := by
    refine steady_step ?_ c h
    cases o <;> trivial
  send message hkind w h := by
    rw [wp_sendall]
    intro c _
    refine ⟨(h.absorb c.acts).send hkind c, fun e he => ?_⟩
    change (World.send link message c (w.absorb link c.acts)).1 = .error e at he
    unfold World.send at he
    split_ifs at he
    · rw [Except.error.injEq] at he
      subst he
      cases message <;> rfl
    · rw [Except.error.injEq] at he
      exact he ▸ rfl
  ack w h := by
    rw [wp_consumeAck]
    intro c _
    refine ⟨(h.absorb c.acts).consumeAck c, fun e he => ?_⟩
    change (World.consumeAck link c (w.absorb link c.acts)).1 = .error e at he
    cases hopen : (w.absorb link c.acts).sockOpen with
    | false =>
      rw [World.consumeAck_closed hopen, Except.error.injEq] at he
      exact he ▸ rfl
    | true =>
      rw [World.consumeAck_open hopen] at he
      dsimp only at he
      refine hlink.consumeAck c.net (w.absorb link c.acts).link e ?_
      cases houtcome : (link.consumeAck c.net (w.absorb link c.acts).link).1 with
      | ok tag =>
        rw [houtcome] at he
        simp [Except.map] at he
      | error e' =>
        rw [houtcome] at he
        simpa [Except.map] using he
  read timeout w h := by
    rw [wp_readPacketFromWire]
    intro c _
    refine ⟨(h.absorb c.acts).readPacket c, fun e he => ?_⟩
    change (World.readPacket link c (w.absorb link c.acts)).1 = .error e at he
    cases hopen : (w.absorb link c.acts).sockOpen with
    | false =>
      rw [World.readPacket_closed hopen, Except.error.injEq] at he
      exact he ▸ rfl
    | true =>
      rw [World.readPacket_open hopen] at he
      exact hlink.readPacket c.net (w.absorb link c.acts).link e he
  sendErrors _ he := he
  readErrors _ he := he

end Steps

section Bodies

variable {τ N L α : Type} {link : Link τ N L} {kind : Sent → Bool} {state : SessionState} {n : ℕ}

/-- Unless the target runs, a context is its body. -/
theorem wp_safeToModify_idle {body : Code τ α} {Q : Except PyError α → World τ L → Prop}
    {w : World τ L} (hidle : w.state ≠ .connectedRunning) (hbody : body.wp (machine link) Q w) :
    (safeToModify body).wp (machine link) Q w := by
  refine wp_locked (M := machine link) rfl ?_
  intro c _
  change Program.wp _ (if w.state = .connectedRunning then _ else body) _ _
  rw [if_neg hidle]
  exact hbody

/-- Unless the target runs, a modification keeps the state and neither pauses nor resumes. -/
theorem Modification.keeps {p : Code τ α} (hp : Modification α p)
    (hkind : ∀ message, kind message = true → steers message = true)
    (hstate : state ≠ .connectedRunning) : p.Keeps (machine link) (Steady kind state n) := by
  induction hp with
  | accesses huses =>
    refine keeps_steady (huses.mono fun o ho => ?_)
    cases o with
    | send message =>
      have hsteers : steers message = false := ho
      change kind message = false
      cases hm : kind message with
      | false => rfl
      | true => simp [hkind message hm] at hsteers
    | _ => exact ho
  | nested _ ih =>
    intro w h
    exact wp_safeToModify_idle (by rw [h.1]; exact hstate) (ih w h)
  | bind _ _ ih₁ ih₂ => exact Program.keeps_bind ih₁ ih₂
  | attempt _ ih => exact Program.keeps_attempt ih

/-- A handled modification is one. -/
theorem Modification.handle {p : Code τ α} {handler : PyError → Code τ α} (hp : Modification α p)
    (hhandler : ∀ e, Modification α (handler e)) : Modification α (p.handle handler) := by
  refine hp.attempt.bind fun r => ?_
  cases r with
  | ok a => exact .accesses trivial
  | error e => exact hhandler e

/-- So is one with a cleanup. -/
theorem Modification.ensuring {p : Code τ α} {cleanup : Code τ Unit} (hp : Modification α p)
    (hcleanup : Modification Unit cleanup) : Modification α (p.ensuring cleanup) := by
  refine hp.attempt.bind fun r => hcleanup.bind fun _ => .accesses ?_
  exact Program.uses_ofExcept _ r

/-- A command other than `c` is a modification. -/
theorem modification_cmd {command : Command} (h : steers (.packet command) = false) :
    Modification _ (cmd command : Code τ (Packet τ)) := by
  refine .accesses (Program.uses_bind (Program.uses_bind ?_ fun _ => ?_) fun _ => ?_)
  · exact uses_sendall h
  · exact uses_consumeAck trivial
  · exact uses_readPacketFromWire trivial

/-- Inserting or deleting a point is a modification. -/
theorem modification_setBreak (insert : Bool) (kind : BpKind) (addr size : ℤ) :
    Modification _ (setBreak insert kind addr size : Code τ (Packet τ)) := by
  refine (modification_cmd rfl).bind fun reply => .accesses ?_
  split_ifs <;> trivial

/-- The bodies of the tools are modifications. -/
theorem modification_insertWatchpoint (addr size : ℤ) (on : String) :
    Modification _ (insertWatchpoint addr size on : Code τ BpKind) := by
  refine (Modification.accesses (Program.uses_ofExcept _ (watchKind on))).bind fun kind => ?_
  exact (modification_setBreak true kind addr size).bind fun _ => .accesses trivial

/-- So is deleting the point of an entry. -/
theorem modification_deletePoint (spec : BreakpointSpec) :
    Modification _ (deletePoint spec : Code τ (Packet τ)) := by
  unfold deletePoint
  cases spec.kind <;> exact modification_setBreak false _ _ _

end Bodies

section Context

variable {τ N L α : Type} {link : Link τ N L} {w v : World τ L} {n : ℕ}

/-- A single access reaches what one of its choices leads to. -/
theorem reaches_access {o : Op τ} {r : Except PyError o.Answer}
    (h : (access o).Reaches (machine link) w r v) :
    ∃ c, r = .ok (World.step link o c w).1 ∧ v = (World.step link o c w).2 := by
  obtain ⟨c, _, hr, hv⟩ := h
  exact ⟨c, hr, hv⟩

/-- The lock changes nothing but who may run. -/
theorem reaches_locked {body : Code τ α} {r : Except PyError α}
    (h : (locked body).Reaches (machine link) w r v) : body.Reaches (machine link) w r v := by
  obtain ⟨c, _, h⟩ := h
  obtain ⟨outcome, u, closing, hbody, hrelease, hr⟩ := (Program.reaches_ensuring _ _).mp h
  obtain ⟨c', hclosing, hv⟩ := reaches_access hrelease
  subst hclosing hv hr
  exact hbody

/-- Quiescing raises nothing, pauses the session and resumes nothing. -/
theorem wp_quiesceForModify (hlink : RaisesAsSockets link)
    (hw : Steady isResume .connectedRunning n w) : quiesceForModify.wp (machine link)
      (fun r v => r = .ok () ∧ Steady isResume .connectedPaused n v) w := by
  have hcontained : Contained (machine link) (Steady isResume .connectedRunning n)
      (fun message => isResume message = false) probeFails readFails := contained_steady hlink
  have hinterrupt : Program.RaisesOnly (machine link) (Steady isResume .connectedRunning n) never
      (interrupt.handle fun _ => pure ()) :=
    Program.raisesOnly_handle (hcontained.send .interrupt rfl) fun _ _ => Program.raisesOnly_done ()
  refine wp_bind_quiet hinterrupt hw fun _ w₁ h₁ => ?_
  refine wp_bind_quiet (hcontained.access (o := .turns 1000) rfl) h₁ fun turns w₂ h₂ => ?_
  refine wp_bind_quiet (hcontained.consumeStops turns false) h₂ fun _ w₃ h₃ => ?_
  refine wp_bind_quiet (hcontained.drainStopReplies 50) h₃ fun _ w₄ h₄ => ?_
  refine wp_bind_quiet (hcontained.fence rfl) h₄ fun _ w₅ h₅ => ?_
  intro c _
  refine ⟨rfl, ?_⟩
  change Steady _ _ _ (if w₅.state = .connectedRunning then {w₅ with state := .connectedPaused}
    else w₅)
  rw [if_pos h₅.1]
  exact ⟨rfl, h₅.2⟩

/-- What the entry of the context does once its probe is answered. -/
theorem wp_pause_responsive (hlink : RaisesAsSockets link)
    (hw : Steady isResume .connectedRunning n w) :
    (quiesceForModify.bind fun _ => (drainStopReplies 100).bind fun _ => access .markPaused).wp
      (machine link) (fun r v => r = .ok () ∧ Steady isResume .connectedPaused n v) w := by
  rw [Program.wp_bind]
  refine Program.wp_mono (fun r v hv => ?_) (wp_quiesceForModify hlink hw)
  obtain ⟨rfl, hpaused⟩ := hv
  refine wp_bind_quiet ((contained_steady hlink).drainStopReplies 100) hpaused fun _ u hu => ?_
  intro c _
  refine ⟨rfl, ?_⟩
  change Steady _ _ _ (if u.state = .connectedRunning then {u with state := .connectedPaused} else u)
  rw [if_neg (by rw [hu.1]; decide)]
  exact hu

/-- The entry of the context: the probe answers whether the target responds; if
it does not, the session is marked and the context raises. -/
theorem reaches_pauseForModify (hlink : RaisesAsSockets link)
    (hw : Steady isResume .connectedRunning n w) {r : Except PyError Unit}
    (h : pauseForModify.Reaches (machine link) w r v) :
    ∃ responsive probed, (probeResponsive 500).Reaches (machine link) w (.ok responsive) probed ∧
      (responsive = false → Refused probed r v) ∧
      (responsive = true → r = .ok () ∧ Steady isResume .connectedPaused n v) := by
  have hcontained : Contained (machine link) (Steady isResume .connectedRunning n)
      (fun message => isResume message = false) probeFails readFails := contained_steady hlink
  have hprobe := hcontained.probeResponsive (G := never) 500 rfl w hw
  rcases (Program.reaches_bind _ _).mp h with ⟨responsive, probed, hreaches, hrest⟩ | ⟨e, hreaches, _⟩
  · refine ⟨responsive, probed, hreaches, ?_⟩
    have hsteady := (Program.reaches_of_wp hprobe hreaches).1
    cases responsive with
    | false =>
      obtain ⟨c, _, hr, hv⟩ := hrest
      exact ⟨fun _ => ⟨hr, hv⟩, fun hfalse => by simp at hfalse⟩
    | true =>
      refine ⟨fun hfalse => by simp at hfalse, fun _ => ?_⟩
      exact Program.reaches_of_wp (wp_pause_responsive hlink hsteady) hrest
  · exact ((Program.reaches_of_wp hprobe hreaches).2 e rfl).elim

/-- An accepted `c` is one message more. -/
theorem wp_continueAsync_counts {state : SessionState} (hw : Steady isResume state n w) :
    continueAsync.wp (machine link) (fun r v => r = .ok () → Steady isResume state (n + 1) v) w := by
  refine (Program.wp_bind _ _ _ _).mpr ((wp_sendall _ _ _).mpr fun c _ => ?_)
  change Program.onValue _ _ _ (World.send link (.packet .resume) c (w.absorb link c.acts)).1
    (World.send link (.packet .resume) c (w.absorb link c.acts)).2
  have habsorbed : Steady isResume state n (w.absorb link c.acts) := hw.absorb c.acts
  cases hsent : (World.send link (.packet .resume) c (w.absorb link c.acts)).1 with
  | error e => exact fun hfalse => by simp at hfalse
  | ok _ =>
    obtain ⟨_, hdelivered⟩ := World.send_ok hsent
    have hcounted : Steady isResume state (n + 1)
        (World.delivered link (.packet .resume) c (w.absorb link c.acts)) := by
      refine ⟨habsorbed.1, ?_⟩
      rw [sentSoFar_delivered, habsorbed.2]
      rfl
    rw [hdelivered, Program.onValue_ok, wp_consumeAck]
    intro c' _ _
    exact (hcounted.absorb c'.acts).consumeAck c'

/-- The exit of the context: a drain that raises nothing, then the closing `c`. -/
theorem reaches_resumeAfterModify (hlink : RaisesAsSockets link)
    (hw : Steady isResume .connectedPaused n w) {r : Except PyError Unit}
    (h : resumeAfterModify.Reaches (machine link) w r v) :
    ∃ dropped drained closing resumed,
      (drainStopReplies 50).Reaches (machine link) w (.ok dropped) drained ∧
      continueAsync.Reaches (machine link) drained closing resumed ∧
      (closing = .ok () → r = .ok () ∧ Steady isResume .connectedRunning (n + 1) v) := by
  have hdrain := (contained_steady hlink).drainStopReplies (G := never) 50 w hw
  rcases (Program.reaches_bind _ _).mp h with ⟨dropped, drained, hreaches, hrest⟩ | ⟨e, hreaches, _⟩
  · have hsteady := (Program.reaches_of_wp hdrain hreaches).1
    refine ⟨dropped, drained, ?_⟩
    rcases (Program.reaches_bind _ _).mp hrest with ⟨_, resumed, hclosing, hmark⟩ | ⟨e, hclosing, _⟩
    · refine ⟨.ok (), resumed, hreaches, hclosing, fun hok => ?_⟩
      have hcounted := Program.reaches_of_wp (wp_continueAsync_counts hsteady) hclosing hok
      obtain ⟨c, hr, hv⟩ := reaches_access hmark
      refine ⟨hr, ?_⟩
      rw [hv]
      change Steady _ _ _ (if resumed.state = .connectedPaused
        then {resumed with state := .connectedRunning} else resumed)
      rw [if_pos hcounted.1]
      exact ⟨rfl, hcounted.2⟩
    · exact ⟨.error e, v, hreaches, hclosing, fun hfalse => by simp at hfalse⟩
  · exact ((Program.reaches_of_wp hdrain hreaches).2 e rfl).elim

/-- Everything sent so far arrives at once. -/
def allArrives : Net := ⟨List.replicate 9 (.bytes 100), []⟩

/-- A command that is answered. -/
def answered (body : Body) (n : ℕ) : List (Choice Origin Net) :=
  [{net := allArrives, response := [.ack (.reply n), .frame body (.reply n)]}, {net := allArrives}]

/-- A connected session whose target runs. -/
def runningWorld : World Origin (Buffers Origin) :=
  {freshWorld Buffers.empty with state := .connectedRunning, running := true}

/-- Probe, interrupt, fence, the insertion inside both contexts, and the closing `c`. -/
def nestedInsertion : List (Choice Origin Net) :=
  answered threadBody 0 ++ [{net := allArrives}] ++
    [{net := allArrives}, {net := allArrives}, {net := allArrives}] ++
    answered threadBody 1 ++ [{net := allArrives, turns := 1}, {net := allArrives}] ++
    [{net := allArrives}] ++ answered okBody 2 ++ [{net := allArrives}] ++
    [{net := allArrives}, {net := allArrives, response := [.ack (.reply 3)]}, {net := allArrives}]

/-- An insertion in a context inside another one. -/
def nestedBody : Code Origin (Packet Origin) := safeToModify (addSwBreakpoint 0x80003100)

end Context

end DolphinRe.ModifyContext
