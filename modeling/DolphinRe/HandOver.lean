import DolphinRe.StubBehaviour
import DolphinRe.ToolRuns

/-!
# Handing a foreign stop over

The watcher puts a stop it does not consume back into the queue and marks the
session paused as it leaves, and `wait_for_hit` refuses to run in a paused
session. The stop is handed over only where `wait_for_hit` finds the session
unpaused all the same: because it was in an error state or disconnected and
the call itself connects and resumes, or because the call in which the turn
came marks the session running afterwards.
-/

namespace DolphinRe.HandOver

open PythonText GdbPackets GdbWire GdbTokens StopReplies EffectProgram SessionMachine GdbClient
  SessionTools BreakpointTools ExecutionTools StubBehaviour Footprints ToolStructure Interference
  ToolRuns

section Statement

variable {τ N L : Type}

/-- The stop replies `wait_for_hit` hands to its caller, which is none when it raises. -/
def waitedFor (timeout : ℕ) : Code τ (List (Packet τ)) := do
  match ← (waitForHit timeout).attempt with
  | .ok hit => pure [hit.raw]
  | .error _ => pure []

/-- The stop a watcher hands over in an event. -/
def handedOver : Obs τ → Option (Packet τ)
  | .surfaced raw => some raw
  | _ => none

/-- The stops surfaced between two worlds of a run. -/
def surfacedSince (w v : World τ L) : List (Packet τ) :=
  (v.trace.drop w.trace.length).filterMap handedOver

/-- So many calls of `wait_for_hit` return the queued stops, each once and in
the order in which they were queued. -/
def HandsOver (queued : List (Packet τ)) (calls : ℕ) (returned : List (Packet τ)) : Prop :=
  returned = queued.take calls

instance [DecidableEq τ] (queued : List (Packet τ)) (calls : ℕ) (returned : List (Packet τ)) :
    Decidable (HandsOver queued calls returned) := by
  unfold HandsOver
  infer_instance

/-- What a call of `wait_for_hit` has to meet: no paused session where it looks
at the state, no live watcher, and where it connects, a connection that goes
through and leave to resume on connect. -/
def Meets (link : Link τ N L) : Op τ → Choice τ N → World τ L → Prop
  | .getState, _, w => w.state ≠ .connectedPaused
  | .isAlive thread, _, w => w.threadAlive thread = false
  | .autoResumeEnabled, _, w => w.autoResume = true
  | .connect, c, w => Except.isOk (World.step link .connect c w).1 = true
  | .send message, c, w => Except.isOk (World.step link (.send message) c w).1 = true
  | .consumeAck, c, w => Except.isOk (World.step link .consumeAck c w).1 = true
  | .readPacketFromWire timeout, c, w =>
    Except.isOk (World.step link (.readPacketFromWire timeout) c w).1 = true
  | _, _, _ => True

/-- Nobody takes from a queue that holds a stop. -/
def leavesQueue : Op τ → Choice τ N → World τ L → Prop
  | .popPending, _, w => w.pendingReplies = []
  | .takePending, _, w => w.pendingReplies = []
  | _, _, _ => True

/-- Accesses that do not assign the session state, `mark_paused` apart. -/
def assignsNothing : Op τ → Prop
  | .setState _ => False
  | .markRunning => False
  | _ => True

/-- What `mark_paused` makes of a session state. -/
def marked : SessionState → SessionState
  | .connectedRunning => .connectedPaused
  | state => state

/-- The background threads, none of which takes a queued stop. -/
abbrev behind (link : Link τ N L) (host : Host) : World τ L → World τ L → Prop :=
  background ((machine link).restrict leavesQueue) host

/-- The foreground next to them, with a record of what its calls met. -/
abbrev judging (link : Link τ N L) (host : Host) :
    Machine (signature τ) (Choice τ N × World τ L) ((World τ L × Bool) × Prop) :=
  Machine.judged (machine link) (threads τ) (behind link host) (Meets link)

/-- Calls of `wait_for_hit`, each after some code of the foreground that leaves
queued what is queued, with the stops they return and whether all of them met
what they have to. -/
inductive Served (link : Link τ N L) (host : Host) :
    List (Code τ Unit × ℕ) → World τ L × Bool → List (Packet τ) → Prop → Prop where
  /-- No call is left. -/
  | done (x : World τ L × Bool) : Served link host [] x [] True
  /-- Other code, and one call. -/
  | wait {between : Code τ Unit} {timeout : ℕ} {calls : List (Code τ Unit × ℕ)}
      {x u y : World τ L × Bool} {r : Except PyError Unit} {first later : List (Packet τ)}
      {now met : Prop} (hbetween : between.Reaches (sharing (machine link) (behind link host)) x r u)
      (hqueued : x.1.pendingReplies <+: u.1.pendingReplies)
      (hwait : (waitedFor timeout).Reaches (judging link host) (u, True) (.ok first) (y, now))
      (hlater : Served link host calls y later met) :
      Served link host ((between, timeout) :: calls) x (first ++ later) (now ∧ met)

/-- Code that does not resume a paused session. -/
def KeepsPaused (link : Link τ N L) (host : Host) (p : Code τ Unit) : Prop :=
  p.Keeps (sharing (machine link) (behind link host)) fun x => x.1.state = .connectedPaused

end Statement

section Steps

variable {τ N L : Type} {w : World τ L} {c : Choice τ N} {o : Op τ}

/-- What is queued stays queued, unless somebody takes it. -/
theorem queued_step (link : Link τ N L) {queue : List (Packet τ)} (ho : leavesQueue o c w)
    (hw : queue <+: w.pendingReplies) : queue <+: (World.step link o c w).2.pendingReplies := by
  have habsorb : queue <+: (w.absorb link c.acts).pendingReplies :=
    (World.absorb_pendingReplies link c.acts w).symm ▸ hw
  cases o with
  | popPending =>
    have hempty : w.pendingReplies = [] := ho
    change queue <+: w.pendingReplies.tail
    rw [hempty] at hw ⊢
    exact hw
  | takePending =>
    have hempty : w.pendingReplies = [] := ho
    change queue <+: []
    rw [hempty] at hw
    exact hw
  | pushPending raw => exact hw.trans (List.prefix_append _ _)
  | send message =>
    change queue <+: (World.send link message c (w.absorb link c.acts)).2.pendingReplies
    unfold World.send
    split_ifs <;> exact habsorb
  | consumeAck =>
    change queue <+: (World.consumeAck link c (w.absorb link c.acts)).2.pendingReplies
    unfold World.consumeAck
    split_ifs
    · exact habsorb.trans (List.prefix_append _ _)
    · exact habsorb
  | readPacketFromWire timeout =>
    change queue <+: (World.readPacket link c (w.absorb link c.acts)).2.pendingReplies
    unfold World.readPacket
    split_ifs <;> exact habsorb
  | connect =>
    change queue <+: (World.connect link c (w.absorb link c.acts)).2.pendingReplies
    unfold World.connect
    split_ifs <;> exact habsorb
  | markRunning =>
    change queue <+: (if w.state = .connectedPaused then {w with state := .connectedRunning} else w).pendingReplies
    split_ifs <;> exact hw
  | markPaused =>
    change queue <+: (if w.state = .connectedRunning then {w with state := .connectedPaused} else w).pendingReplies
    split_ifs <;> exact hw
  | close =>
    change queue <+: (if w.sockOpen = true then w.closed link else w).pendingReplies
    split_ifs <;> exact hw
  | _ => first
    | exact hw
    | exact habsorb

/-- `mark_paused` pauses a running session. -/
theorem markPaused_state (link : Link τ N L) (c : Choice τ N) (w : World τ L) :
    (World.step link .markPaused c w).2.state = marked w.state := by
  change (if w.state = .connectedRunning then {w with state := .connectedPaused} else w).state = _
  split_ifs with hrunning
  · rw [hrunning]
    rfl
  · cases hstate : w.state <;> first | rfl | exact absurd hstate hrunning

/-- It takes nothing from the queue. -/
theorem markPaused_pendingReplies (link : Link τ N L) (c : Choice τ N) (w : World τ L) :
    (World.step link .markPaused c w).2.pendingReplies = w.pendingReplies := by
  change (if w.state = .connectedRunning then {w with state := .connectedPaused} else w).pendingReplies = _
  split_ifs <;> rfl

/-- Without an assignment the state is marked at most. -/
theorem state_step (link : Link τ N L) (ho : assignsNothing o) (c : Choice τ N) (w : World τ L) :
    (World.step link o c w).2.state = w.state ∨
      (World.step link o c w).2.state = marked w.state := by
  have habsorb : (w.absorb link c.acts).state = w.state := World.absorb_state link c.acts w
  cases o with
  | markPaused => exact Or.inr (markPaused_state link c w)
  | send message =>
    change (World.send link message c (w.absorb link c.acts)).2.state = _ ∨ _
    unfold World.send
    split_ifs <;> exact Or.inl habsorb
  | consumeAck =>
    change (World.consumeAck link c (w.absorb link c.acts)).2.state = _ ∨ _
    unfold World.consumeAck
    split_ifs <;> exact Or.inl habsorb
  | readPacketFromWire timeout =>
    change (World.readPacket link c (w.absorb link c.acts)).2.state = _ ∨ _
    unfold World.readPacket
    split_ifs <;> exact Or.inl habsorb
  | connect =>
    change (World.connect link c (w.absorb link c.acts)).2.state = _ ∨ _
    unfold World.connect
    split_ifs <;> exact Or.inl habsorb
  | close =>
    change (if w.sockOpen = true then w.closed link else w).state = _ ∨ _
    split_ifs <;> exact Or.inl rfl
  | _ => first
    | exact ho.elim
    | exact Or.inl rfl
    | exact Or.inl habsorb

end Steps

section Background

variable {τ N L : Type} {link : Link τ N L} {host : Host} {P : SessionState → Prop}
  {queue : List (Packet τ)}

/-- Stops that are queued, and a property of the session state. -/
def Holds (queue : List (Packet τ)) (P : SessionState → Prop) (w : World τ L) : Prop :=
  queue <+: w.pendingReplies ∧ P w.state

/-- A property of the session state that `mark_paused` keeps; a session in which
the worker connects may reach any state. -/
structure Steady (P : SessionState → Prop) : Prop where
  /-- A marked session has it. -/
  marked : ∀ state, P state → P (marked state)
  /-- A disconnected session has it only when every session has. -/
  disconnected : P .disconnected → ∀ state, P state

/-- Marking the session as paused keeps what always holds. -/
theorem steady_true : Steady fun _ => True := ⟨fun _ _ => trivial, fun _ _ => trivial⟩

/-- It keeps a paused session paused. -/
theorem steady_paused : Steady (· = .connectedPaused) :=
  ⟨fun _ h => by rw [h]; rfl, fun h => nomatch h⟩

/-- It keeps a connected session connected. -/
theorem steady_connected : Steady (·.isConnected = true) :=
  ⟨fun state h => by cases state <;> first | rfl | exact h, fun h => nomatch h⟩

/-- One access that assigns nothing and takes nothing. -/
theorem holds_step (hP : Steady P) {o : Op τ} (ho : assignsNothing o) {c : Choice τ N}
    {w : World τ L} (hleaves : leavesQueue o c w) (hw : Holds queue P w) :
    Holds queue P (World.step link o c w).2 := by
  refine ⟨queued_step link hleaves hw.1, ?_⟩
  rcases state_step link ho c w with hstate | hstate
  · exact hstate ▸ hw.2
  · exact hstate ▸ hP.marked _ hw.2

/-- What a watcher thread does assigns no state but by marking. -/
theorem assignsNothing_of_mild {o : Op τ} (h : mild o) : assignsNothing o := by
  cases o <;> trivial

/-- A turn of a watcher that leaves the queue alone. -/
theorem keeps_watcherIteration (hP : Steady P) (thread : ℕ) :
    (watcherIteration host thread).Keeps ((machine link).restrict leavesQueue) (Holds queue P) := by
  intro w hw
  have huses : (watcherIteration host thread : Code τ Unit).Uses assignsNothing :=
    uses_watcherIteration host thread (fun _ => assignsNothing_of_mild) (fun _ _ _ => trivial)
      fun _ => trivial
  refine Program.wp_of_uses (I := Holds queue P) (fun o c v ho hc hv => ?_) huses hw
  exact holds_step hP ho hc.2 hv

/-- A tick of the worker does nothing to a connected session. -/
theorem keeps_autoConnectTick (hP : Steady P) :
    autoConnectTick.Keeps ((machine link).restrict leavesQueue) (Holds (L := L) queue P) := by
  intro w hw c _
  change (if w.state = .disconnected then _ else _ : Code τ Unit).wp _ _ w
  split_ifs with hstate
  · have hall : ∀ state, P state := hP.disconnected (hstate ▸ hw.2)
    refine Program.wp_of_uses (I := Holds queue P) (fun o c v _ hc hv => ?_) (Program.uses_any _) hw
    exact ⟨queued_step link hc.2 hv.1, hall _⟩
  · exact hw

/-- The background threads keep the queue, and what marking keeps. -/
theorem stable_holds (hP : Steady P) : Stable (behind link host) (Holds queue P) :=
  stable_background (keeps_watcherIteration hP) (keeps_autoConnectTick hP)

end Background

section Judgements

variable {τ N L α : Type} {link : Link τ N L} {host : Host} {P : SessionState → Prop}
  {queue : List (Packet τ)} {met : Prop} {E : (World τ L × Bool) × Prop → Prop}

/-- Queued stops and a state of the session, next to the record. -/
abbrev Stands (met : Prop) (queue : List (Packet τ)) (P : SessionState → Prop) :
    (World τ L × Bool) × Prop → Prop :=
  Judged met (Holds queue P)

/-- Something was missed. -/
abbrev Missed : (World τ L × Bool) × Prop → Prop := Judged False fun _ => True

/-- A call that has missed its condition has missed it for good. -/
theorem missed_of_stands {x : (World τ L × Bool) × Prop} (h : Stands False queue P x) : Missed x :=
  h.mono fun _ _ => trivial

/-- An access of which nothing is asked. -/
theorem stands_access (hP : Steady P) {o : Op τ} (ho : assignsNothing o)
    (hleaves : ∀ (c : Choice τ N) (w : World τ L), leavesQueue o c w)
    (hmeets : ∀ c w, Meets link o c w) :
    (access o).Triple (judging link host) (Stands met queue P) (fun _ => Stands met queue P) E :=
  triple_free (stable_holds hP) hmeets fun c v _ hv => holds_step hP ho (hleaves c v) hv

/-- An assignment of the session state. -/
theorem stands_setState (hP : Steady P) (state : SessionState) :
    (access (.setState state)).Triple (judging link host) (Stands met queue P)
      (fun _ => Stands met queue (· = state)) E :=
  triple_free (stable_holds hP) (fun _ _ => trivial) fun _ _ _ hv => ⟨hv.1, rfl⟩

/-- An access that may fail, and misses something when it does. -/
theorem stands_fallible (hP : Steady P) {o : Op τ} {next : o.Answer → Code τ α}
    (result : o.Answer → Except PyError α) (hnext : ∀ answer, next answer = .ofExcept (result answer))
    (ho : assignsNothing o) (hleaves : ∀ (c : Choice τ N) (w : World τ L), leavesQueue o c w)
    (hmeets : ∀ c w, Meets link o c w ↔ (result (World.step link o c w).1).isOk = true) :
    (Program.perform o next).Triple (judging link host) (Stands met queue P)
      (fun _ => Stands met queue P) (Stands False queue P) := by
  intro x hx c hc
  obtain ⟨hv, hadmits⟩ := hx.before (stable_holds hP) hc
  have hafter : Holds queue P (World.step link o c.1 c.2).2 := holds_step hP ho (hleaves c.1 c.2) hv
  change (next (World.step link o c.1 c.2).1).wp (judging link host) _
    (((World.step link o c.1 c.2).2, _), x.2 ∧ Meets link o c.1 c.2)
  rw [hnext, Program.wp_ofExcept, hmeets]
  cases hresult : result (World.step link o c.1 c.2).1 with
  | ok a => exact ⟨hafter, (and_iff_left rfl).trans hx.2⟩
  | error e => exact ⟨hafter, iff_false_intro fun h => nomatch h.2⟩

/-- A failing send is one that the call meets. -/
theorem stands_sendPacket (hP : Steady P) (command : Command) :
    (sendPacket command).Triple (judging link host) (Stands met queue P)
      (fun _ => Stands met queue P) (Stands False queue P) := by
  have hsend : (sendall (.packet command)).Triple (judging link host) (Stands met queue P)
      (fun _ => Stands met queue P) (Stands False queue P) :=
    stands_fallible hP (o := .send (.packet command)) id (fun _ => rfl) trivial (fun _ _ => trivial)
      fun _ _ => Iff.rfl
  have hack : (consumeAck : Code τ Unit).Triple (judging link host) (Stands met queue P)
      (fun _ => Stands met queue P) (Stands False queue P) :=
    stands_fallible hP (o := .consumeAck) id (fun _ => rfl) trivial (fun _ _ => trivial)
      fun _ _ => Iff.rfl
  exact Program.triple_bind hsend fun _ => hack

/-- So is a failing command. -/
theorem stands_cmd (hP : Steady P) (command : Command) :
    (cmd command).Triple (judging link host) (Stands met queue P) (fun _ => Stands met queue P)
      (Stands False queue P) := by
  refine Program.triple_bind (stands_sendPacket hP command) fun _ => ?_
  exact stands_fallible hP (o := .readPacketFromWire none) id (fun _ => rfl) trivial
    (fun _ _ => trivial) fun _ _ => Iff.rfl

/-- A handshake pauses the session, or fails. -/
theorem stands_handshake :
    (handshake : Code τ Unit).Triple (judging link host) (Stands met queue fun _ => True)
      (fun _ => Stands met queue (· = .connectedPaused)) (Stands False queue fun _ => True) := by
  have hconnect : (connect : Code τ Unit).Triple (judging link host) (Stands met queue fun _ => True)
      (fun _ => Stands met queue fun _ => True) (Stands False queue fun _ => True) :=
    stands_fallible steady_true (o := .connect) id (fun _ => rfl) trivial (fun _ _ => trivial)
      fun _ _ => Iff.rfl
  refine Program.triple_bind hconnect fun _ => ?_
  exact Program.triple_bind (stands_cmd steady_true .whyHalted) fun _ =>
    stands_setState steady_true .connectedPaused

/-- A handshake that failed is reported. -/
theorem missed_reportUnreachable (e : PyError) {G : Unit → (World τ L × Bool) × Prop → Prop} :
    (reportUnreachable e : Code τ Unit).Triple (judging link host) (Stands False queue fun _ => True)
      G Missed := by
  unfold reportUnreachable
  split_ifs
  · refine Program.triple_bind (stands_setState steady_true .disconnected) fun _ => ?_
    exact Program.triple_raise fun _ hx => missed_of_stands hx
  · exact Program.triple_raise fun _ hx => missed_of_stands hx

/-- The session is connected, or something was missed and it is paused. -/
abbrev Entered (met : Prop) (queue : List (Packet τ)) (x : (World τ L × Bool) × Prop) : Prop :=
  Stands met queue (·.isConnected = true) x ∨ Stands False queue (· = .connectedPaused) x

/-- A question that changes nothing; the wrong answer is something missed. -/
theorem stands_asked (hP : Steady P) {o : Op τ} {R : o.Answer → Prop}
    (hmeets : ∀ c w, Meets link o c w ↔ R (World.step link o c w).1)
    (hsame : ∀ (c : Choice τ N) (w : World τ L), (World.step link o c w).2 = w) :
    (access o).Triple (judging link host) (Stands met queue P)
      (fun answer x => R answer ∧ Stands met queue P x ∨ ¬R answer ∧ Stands False queue P x) E := by
  refine (triple_judged (S := signature τ) (o := o) (G := fun answer w => R answer ∧ Holds queue P w)
    (F := fun answer w => ¬R answer ∧ Holds queue P w) (stable_holds hP) ?_ ?_).mono ?_ fun _ h => h
  · exact fun c v _ hv hmet => ⟨(hmeets c v).mp hmet, (hsame c v).symm ▸ hv⟩
  · exact fun c v _ hv hmissed => ⟨fun hright => hmissed ((hmeets c v).mpr hright), (hsame c v).symm ▸ hv⟩
  · rintro answer x (h | h)
    · exact Or.inl ⟨h.1.1, h.mono fun _ hw => hw.2⟩
    · exact Or.inr ⟨h.1.1, h.mono fun _ hw => hw.2⟩

/-- A fresh connection is resumed, unless the continue fails or is not wanted. -/
theorem entered_resumeOnConnect :
    (resumeOnConnect : Code τ Unit).Triple (judging link host)
      (Stands met queue (· = .connectedPaused)) (fun _ => Entered met queue) E := by
  have hasked : (access .autoResumeEnabled).Triple (judging link host)
      (Stands met queue (· = .connectedPaused)) _ E :=
    stands_asked steady_paused (R := fun enabled : Bool => enabled = true) (fun _ _ => Iff.rfl) fun _ _ => rfl
  have hrelease : ∀ {m : Prop}, (access .release).Triple (judging link host)
      (Stands m queue (· = .connectedPaused)) (fun _ => Stands m queue (· = .connectedPaused))
      (Stands False queue (· = .connectedPaused)) :=
    stands_access steady_paused trivial (fun _ _ => trivial) fun _ _ => trivial
  have hresume : (Program.handle (do locked continueAsync; access (.setState .connectedRunning))
      fun _ => pure () : Code τ Unit).Triple (judging link host) (Stands met queue (· = .connectedPaused))
      (fun _ => Entered met queue) E := by
    refine Program.triple_handle (E := Stands False queue (· = .connectedPaused)) ?_
      fun e => Program.triple_done fun _ => Or.inr
    refine Program.triple_bind (G := fun _ => Stands met queue (· = .connectedPaused)) ?_ fun _ => ?_
    · refine Program.triple_bind (stands_access steady_paused trivial (fun _ _ => trivial)
        fun _ _ => trivial) fun _ => ?_
      exact Program.triple_ensuring (stands_sendPacket steady_paused .resume) (fun _ => hrelease) hrelease
    · refine (stands_setState steady_paused .connectedRunning).mono ?_ fun _ h => h
      exact fun _ _ h => Or.inl (h.mono fun _ hw => ⟨hw.1, by rw [hw.2]; rfl⟩)
  refine Program.triple_bind hasked fun enabled x hx => ?_
  rcases hx with ⟨rfl, hx⟩ | ⟨hoff, hx⟩
  · exact hresume x hx
  · rw [if_neg hoff]
    exact Or.inr hx

/-- A look at the session state; a paused session is something missed. -/
theorem stands_getState (hP : Steady P) :
    (access .getState).Triple (judging link host) (Stands met queue P)
      (fun state x => state ≠ .connectedPaused ∧ Stands met queue (fun s => s = state ∧ P s) x ∨
        state = .connectedPaused ∧ Stands False queue (fun s => s = .connectedPaused ∧ P s) x) E := by
  refine (triple_judged (S := signature τ) (o := .getState)
    (G := fun (state : SessionState) w => state ≠ .connectedPaused ∧ Holds queue (fun s => s = state ∧ P s) w)
    (F := fun (state : SessionState) w =>
      state = .connectedPaused ∧ Holds queue (fun s => s = .connectedPaused ∧ P s) w)
    (stable_holds hP) ?_ ?_).mono ?_ fun _ h => h
  · exact fun _ v _ hv hnot => ⟨hnot, hv.1, rfl, hv.2⟩
  · intro _ v _ hv hnot
    have hpaused : v.state = .connectedPaused := not_not.mp hnot
    exact ⟨hpaused, hv.1, hpaused, hv.2⟩
  · rintro state x (h | h)
    · exact Or.inl ⟨h.1.1, h.mono fun _ hw => hw.2⟩
    · exact Or.inr ⟨h.1.1, h.mono fun _ hw => hw.2⟩

/-- Connecting enters the session, or misses. -/
theorem entered_ensureConnected :
    (ensureConnected : Code τ Unit).Triple (judging link host) (Stands met queue fun _ => True)
      (fun _ => Entered met queue) Missed := by
  refine Program.triple_bind (stands_getState steady_true) fun state => ?_
  split_ifs with hconnected
  · refine Program.triple_done fun _ h => ?_
    rcases h with ⟨-, h⟩ | ⟨-, h⟩
    · exact Or.inl (h.mono fun _ hw => ⟨hw.1, hw.2.1 ▸ hconnected⟩)
    · exact Or.inr (h.mono fun _ hw => ⟨hw.1, hw.2.1⟩)
  · -- a paused session is connected, so nothing was missed so far
    refine Program.triple_bind (G := fun _ => Stands met queue (· = .connectedPaused)) ?_ fun _ => ?_
    · intro x hx
      have hstart : Stands met queue (fun _ => True) x := by
        rcases hx with ⟨-, hx⟩ | ⟨hpaused, -⟩
        · exact hx.mono fun _ hw => ⟨hw.1, trivial⟩
        · exact absurd (hpaused ▸ rfl) hconnected
      exact Program.triple_handle stands_handshake (fun e => missed_reportUnreachable e) x hstart
    · refine Program.triple_bind (stands_access steady_paused trivial (fun _ _ => trivial)
        fun _ _ => trivial) fun _ => ?_
      exact entered_resumeOnConnect

/-- `wait_for_hit` once it is connected. -/
def waitEntered (timeout : ℕ) : Code τ (Hit τ) := do
  if ← watcherAlive then
    throwing (.wrongState
      "wait_for_hit conflicts with the running stop watcher; call stop_capturing() first")
  else
    let state ← access .getState
    if state ≠ .connectedRunning then
      throwing (.wrongState
        ("wait_for_hit needs CONNECTED_RUNNING; current state is " ++ state.value))
    else
      let raw ← awaitStop timeout
      let matched ← access (.matchBp raw)
      pure ⟨raw, parseStopReply raw.text, matched⟩

/-- `wait_for_hit` connects first. -/
theorem waitForHit_eq (timeout : ℕ) :
    (waitForHit timeout : Code τ (Hit τ)) = ensureConnected.bind fun _ => waitEntered timeout := rfl

/-- A live watcher is something missed. -/
theorem stands_watcherAlive (hP : Steady P) :
    (watcherAlive : Code τ Bool).Triple (judging link host) (Stands met queue P)
      (fun alive x => alive = false ∧ Stands met queue P x ∨ alive = true ∧ Stands False queue P x) E := by
  refine Program.triple_bind (stands_access hP trivial (fun _ _ => trivial) fun _ _ => trivial)
    fun thread => ?_
  cases thread with
  | none => exact Program.triple_done fun _ hx => Or.inl ⟨rfl, hx⟩
  | some thread =>
    refine (stands_asked hP (R := fun alive : Bool => alive = false) (fun _ _ => Iff.rfl)
      fun _ _ => rfl).mono (fun alive x h => ?_) fun _ h => h
    exact h.imp_right fun hlive => ⟨Bool.not_eq_false _ ▸ hlive.1, hlive.2⟩

/-- With a live watcher the call raises; otherwise it goes on. -/
theorem waits_unwatched (hP : Steady P) {p q : Code τ α} {G : α → (World τ L × Bool) × Prop → Prop}
    (hp : p.Triple (judging link host) (Stands False queue P) G E)
    (hq : q.Triple (judging link host) (Stands met queue P) G E) :
    (watcherAlive.bind fun alive => if alive = true then p else q).Triple (judging link host)
      (Stands met queue P) G E := by
  refine Program.triple_bind (stands_watcherAlive hP) fun alive => ?_
  rintro x (⟨rfl, hx⟩ | ⟨rfl, hx⟩)
  · exact hq x hx
  · exact hp x hx

/-- A paused session is refused. -/
theorem missed_of_paused (timeout : ℕ) {G : Hit τ → (World τ L × Bool) × Prop → Prop} :
    (waitEntered timeout).Triple (judging link host) (Stands met queue (· = .connectedPaused)) G
      (Stands False queue (· = .connectedPaused)) := by
  refine waits_unwatched steady_paused (Program.triple_raise fun _ hx => hx) ?_
  refine Program.triple_bind (stands_getState steady_paused) fun state => ?_
  rintro x (⟨hnot, hx⟩ | ⟨rfl, hx⟩)
  · exact absurd (hx.1.2.1.symm.trans hx.1.2.2) hnot
  · exact hx.mono fun _ hw => ⟨hw.1, hw.2.1⟩

/-- The first queued stop is read under the lock. -/
theorem stands_awaitStop (timeout : ℕ) (raw : Packet τ) :
    (awaitStop timeout).Triple (judging link host)
      (Stands met (raw :: queue) (·.isConnected = true))
      (fun first x => first = raw ∧ Stands met queue (· = .connectedPaused) x) Missed := by
  have hlock : ∀ {o : Op τ} {m : Prop} {q : List (Packet τ)} {Q : SessionState → Prop}
      {F : (World τ L × Bool) × Prop → Prop}, Steady Q → assignsNothing o →
      (∀ (c : Choice τ N) (w : World τ L), leavesQueue o c w) → (∀ c w, Meets link o c w) →
      (access o).Triple (judging link host) (Stands m q Q) (fun _ => Stands m q Q) F :=
    fun hQ ho hleaves hmeets => stands_access hQ ho hleaves hmeets
  refine Program.triple_bind (hlock steady_connected trivial (fun _ _ => trivial) fun _ _ => trivial)
    fun _ => ?_
  refine Program.triple_ensuring (G := fun first x => first = raw ∧
    Stands met queue (· = .connectedPaused) x) ?_ (fun first => ?_)
    (Program.Keeps.triple (keeps_missed _))
  · have hpop : (access .popPending).Triple (judging link host)
        (Stands met (raw :: queue) (·.isConnected = true))
        (fun first => Judged met fun w => first = some raw ∧ Holds queue (·.isConnected = true) w)
        Missed := by
      refine triple_free (stable_holds steady_connected) (fun _ _ => trivial) fun _ v _ hv => ?_
      obtain ⟨rest, hqueue⟩ := hv.1
      change v.pendingReplies.head? = some raw ∧ queue <+: v.pendingReplies.tail ∧ _
      rw [← hqueue]
      exact ⟨rfl, ⟨rest, rfl⟩, hv.2⟩
    refine Program.triple_bind (G := fun first x => first = raw ∧
      Stands met queue (·.isConnected = true) x) ?_ fun first => ?_
    · refine Program.triple_bind hpop fun first => ?_
      intro x hx
      obtain ⟨hfirst, hw⟩ := hx.1
      subst hfirst
      exact ⟨rfl, hw, hx.2⟩
    · have hmark : (access .markPaused).Triple (judging link host)
          (Stands met queue (·.isConnected = true)) (fun _ => Stands met queue (· = .connectedPaused))
          Missed := by
        refine triple_free (stable_holds steady_connected) (fun _ _ => trivial) fun c v _ hv => ?_
        refine ⟨queued_step link (c := c) (o := .markPaused) trivial hv.1, ?_⟩
        have hconnected := hv.2
        change (World.step link .markPaused c v).2.state = _
        rw [markPaused_state]
        cases hstate : v.state <;> first | rfl | (rw [hstate] at hconnected; exact nomatch hconnected)
      intro x hx
      obtain ⟨rfl, hx⟩ := hx
      exact Program.triple_bind hmark (fun _ => Program.triple_done fun _ h => ⟨rfl, h⟩) x hx
  · intro x hx
    obtain ⟨rfl, hx⟩ := hx
    refine Program.wp_mono ?_ (hlock (F := Missed) (o := .release) steady_paused trivial
      (fun _ _ => trivial) (fun _ _ => trivial) x hx)
    intro r y hy
    cases r with
    | ok u => exact ⟨rfl, hy⟩
    | error e => exact hy

/-- A call that misses nothing returns the first queued stop; any other raises. -/
theorem stands_waitForHit (timeout : ℕ) (raw : Packet τ) :
    (waitForHit timeout).Triple (judging link host) (Stands met (raw :: queue) fun _ => True)
      (fun hit x => hit.raw = raw ∧ Stands met queue (· = .connectedPaused) x) Missed := by
  rw [waitForHit_eq]
  refine Program.triple_bind entered_ensureConnected fun _ => Program.triple_or ?_ ?_
  · refine waits_unwatched steady_connected (Program.triple_raise fun _ hx => missed_of_stands hx) ?_
    refine Program.triple_bind (stands_getState steady_connected) fun state => ?_
    rintro x (⟨hnot, hx⟩ | ⟨rfl, hx⟩)
    · -- connected and not paused: the session is running
      have hrunning : state = .connectedRunning := by
        have hconnected : state.isConnected = true := hx.1.2.1 ▸ hx.1.2.2
        cases state <;> first | rfl | exact absurd rfl hnot | exact nomatch hconnected
      subst hrunning
      have hentered : Stands met (raw :: queue) (·.isConnected = true) x :=
        hx.mono fun _ hw => ⟨hw.1, hw.2.2⟩
      refine Program.triple_bind (stands_awaitStop timeout raw) (fun first => ?_) x hentered
      have hmatch : (access (.matchBp first)).Triple (judging link host)
          (Stands met queue (· = .connectedPaused)) (fun _ => Stands met queue (· = .connectedPaused))
          Missed :=
        stands_access steady_paused trivial (fun _ _ => trivial) fun _ _ => trivial
      rintro y ⟨rfl, hy⟩
      exact Program.triple_bind hmatch (fun _ => Program.triple_done fun _ h => ⟨rfl, h⟩) y hy
    · exact missed_of_stands hx
  · exact (missed_of_paused timeout).mono (fun _ _ h => h) fun _ h => missed_of_stands h

/-- A call in a paused session raises. -/
theorem missed_of_waitForHit (timeout : ℕ) {G : Hit τ → (World τ L × Bool) × Prop → Prop} :
    (waitForHit timeout).Triple (judging link host) (Stands met queue (· = .connectedPaused)) G
      (Stands False queue (· = .connectedPaused)) := by
  rw [waitForHit_eq]
  refine Program.triple_bind (G := fun _ => Stands False queue (· = .connectedPaused)) ?_ fun _ =>
    missed_of_paused timeout
  refine Program.triple_bind (stands_getState steady_paused) fun state => ?_
  rintro x (⟨hnot, hx⟩ | ⟨rfl, hx⟩)
  · exact absurd (hx.1.2.1.symm.trans hx.1.2.2) hnot
  · exact hx.mono fun _ hw => ⟨hw.1, hw.2.1⟩

/-- What a call returns and what one that raises leaves. -/
theorem triple_waitedFor {I F : (World τ L × Bool) × Prop → Prop}
    {G : Hit τ → (World τ L × Bool) × Prop → Prop} {timeout : ℕ}
    (h : (waitForHit timeout).Triple (judging link host) I G F) :
    (waitedFor timeout).Triple (judging link host) I (fun returned x =>
      (∃ hit : Hit τ, returned = [hit.raw] ∧ G hit x) ∨ returned = [] ∧ F x) E := by
  intro x hx
  refine (Program.wp_bind _ _ _ _).mpr ((Program.wp_attempt _ _ _).mpr (Program.wp_mono ?_ (h x hx)))
  intro r y hy
  cases r with
  | ok hit => exact Or.inl ⟨hit, rfl, hy⟩
  | error e => exact Or.inr ⟨rfl, hy⟩

end Judgements

section Turns

variable {τ N L α : Type} {link : Link τ N L} {w v : World τ L} {surfaced : List (Packet τ)}

/-- What an access hands over. -/
def surfacedBy : Op τ → List (Packet τ)
  | .pushPending raw => [raw]
  | _ => []

/-- Every access adds to the trace, and only one kind of it hands anything over. -/
theorem trace_step (link : Link τ N L) (o : Op τ) (c : Choice τ N) (w : World τ L) :
    ∃ events, (World.step link o c w).2.trace = w.trace ++ events ∧
      events.filterMap handedOver = surfacedBy o := by
  refine ⟨World.recorded link c w o, World.step_trace link o c w, ?_⟩
  cases o with
  | send message =>
    simp only [World.recorded]
    split_ifs <;> rfl
  | consumeAck =>
    simp only [World.recorded]
    split_ifs
    · cases (link.consumeAck c.net (w.absorb link c.acts).link).1 <;> rfl
    · rfl
  | readPacketFromWire timeout =>
    simp only [World.recorded]
    split_ifs
    · cases (World.readPacket link c (w.absorb link c.acts)).1 <;> rfl
    · rfl
  | _ => rfl

/-- Marking twice is marking once. -/
theorem marked_marked (state : SessionState) : marked (marked state) = marked state := by
  cases state <;> rfl

/-- What was surfaced since a world, in a session that was marked at most. -/
structure Turned (w : World τ L) (surfaced : List (Packet τ)) (v : World τ L) : Prop where
  /-- The stops handed over since then. -/
  trace : ∃ events, v.trace = w.trace ++ events ∧ events.filterMap handedOver = surfaced
  /-- The state, marked or not. -/
  state : marked v.state = marked w.state

/-- At first nothing has been surfaced. -/
theorem turned_self (w : World τ L) : Turned w [] w := ⟨⟨[], (List.append_nil _).symm, rfl⟩, rfl⟩

/-- What has been surfaced is told by the trace. -/
theorem Turned.surfacedSince (h : Turned w surfaced v) : surfacedSince w v = surfaced := by
  obtain ⟨events, htrace, hevents⟩ := h.trace
  unfold HandOver.surfacedSince
  rw [htrace, List.drop_left, hevents]

/-- Each access surfaces what it puts back, behind the rest. -/
theorem Turned.step (link : Link τ N L) (h : Turned w surfaced v) {o : Op τ} (ho : assignsNothing o) (c : Choice τ N) :
    Turned w (surfaced ++ surfacedBy o) (World.step link o c v).2 := by
  obtain ⟨events, htrace, hevents⟩ := h.trace
  obtain ⟨more, hmore, hsurfaced⟩ := trace_step link o c v
  refine ⟨⟨events ++ more, ?_, ?_⟩, ?_⟩
  · rw [hmore, htrace, List.append_assoc]
  · rw [List.filterMap_append, hevents, hsurfaced]
  · rcases state_step link ho c v with hstate | hstate
    · rw [hstate, h.state]
    · rw [hstate, marked_marked, h.state]

/-- Accesses of a watcher before it hands a stop over. -/
def handles (o : Op τ) : Prop := assignsNothing o ∧ surfacedBy o = []

/-- What a watcher thread does handles stops. -/
theorem handles_of_mild {o : Op τ} (h : mild o) : handles o :=
  ⟨assignsNothing_of_mild h, by cases o <;> first | rfl | exact h.elim⟩

/-- Code that puts nothing back surfaces nothing. -/
theorem keeps_turned {p : Code τ α} (hp : p.Uses handles) :
    p.Keeps (machine link) (Turned w surfaced) := by
  intro v hv
  refine Program.wp_of_uses (I := Turned w surfaced) (fun o c u ho _ hu => ?_) hp hv
  have hstep := hu.step link ho.1 c
  rw [ho.2, List.append_nil] at hstep
  exact hstep

/-- What a turn leaves: nothing surfaced, or one stop at the end of the queue of
a session that was marked paused. -/
def Leaves (w v : World τ L) : Prop :=
  Turned w [] v ∨
    ∃ raw, Turned w [raw] v ∧ v.pendingReplies.getLast? = some raw ∧ v.state = marked w.state

/-- A turn under the lock surfaces at most one stop. -/
theorem wp_watcherLocked (host : Host) (thread : ℕ) (hv : Turned w [] v) :
    (watcherLocked host thread).wp (machine link) (fun _ u => Leaves w u) v := by
  have hwait : (waitForStop (some 200) : Code τ (Packet τ)).Uses mild := uses_waitForStop _
  have hresume : (continueAsync : Code τ Unit).Uses mild := uses_continueAsync rfl
  intro c _
  change (if _ then _ else _ : Code τ Turn).wp _ _ v
  split_ifs
  · exact Or.inl hv
  · refine (Program.wp_bind _ _ _ _).mpr ((Program.wp_attempt _ _ _).mpr (Program.wp_mono ?_
      (keeps_turned (hwait.mono fun _ => handles_of_mild) v hv)))
    intro r v hv
    cases r with
    | error e =>
      rw [Program.onValue_ok]
      dsimp only
      split_ifs <;> exact Or.inl hv
    | ok raw =>
      rw [Program.onValue_ok]
      refine (Program.wp_bind _ _ _ _).mpr (Program.wp_mono ?_ (keeps_turned (uses_handleStop host raw
        (fun _ => handles_of_mild) fun _ _ _ => ⟨trivial, rfl⟩) v hv))
      intro r v hv
      cases r with
      | error e => exact Or.inl hv
      | ok handled =>
        rw [Program.onValue_ok]
        split_ifs
        · refine (Program.wp_bind _ _ _ _).mpr ((Program.wp_attempt _ _ _).mpr (Program.wp_mono ?_
            (keeps_turned (hresume.mono fun _ => handles_of_mild) v hv)))
          intro r v hv
          cases r with
          | ok u => exact Or.inl hv
          | error e =>
            rw [Program.onValue_ok]
            dsimp only
            split_ifs <;> exact Or.inl hv
        · -- the stop is surfaced, and the session is marked paused before the watcher leaves
          intro c _ c' _
          have hpushed := hv.step link (o := .pushPending raw) trivial c
          refine Or.inr ⟨raw, hpushed.step link (o := .markPaused) trivial c', ?_, ?_⟩
          · refine (congrArg List.getLast? (markPaused_pendingReplies link c' _)).trans ?_
            exact List.getLast?_concat
          · exact (markPaused_state link c' _).trans hpushed.state

/-- So does a turn with its wait. -/
theorem wp_watcherTurn (host : Host) (thread : ℕ) (hv : Turned w [] v) :
    (watcherTurn host thread).wp (machine link) (fun _ u => Leaves w u) v := by
  intro c _
  change (if _ then _ else _ : Code τ Turn).wp _ _ v
  split_ifs
  · exact Or.inl hv
  · intro c' _
    change (if _ then _ else _ : Code τ Turn).wp _ _ v
    split_ifs
    · exact wp_locked rfl (wp_watcherLocked host thread hv)
    · exact Or.inl hv

/-- The end of a thread changes nothing of what its turn left. -/
theorem Leaves.exit (link : Link τ N L) (h : Leaves w v) (thread : ℕ) (c : Choice τ N) :
    Leaves w (World.step link (.exitWatcher thread) c v).2 := by
  rcases h with h | ⟨raw, h, hlast, hstate⟩
  · exact Or.inl (h.step link (o := .exitWatcher thread) trivial c)
  · exact Or.inr ⟨raw, h.step link (o := .exitWatcher thread) trivial c, hlast, hstate⟩

/-- So does a turn that may end the thread. -/
theorem wp_watcherIteration (host : Host) (thread : ℕ) (w : World τ L) :
    (watcherIteration host thread).wp (machine link) (fun _ u => Leaves w u) w := by
  intro c _
  change (if _ then _ else _ : Code τ Unit).wp _ _ w
  split_ifs
  · refine (Program.wp_bind _ _ _ _).mpr ((Program.wp_attempt _ _ _).mpr (Program.wp_mono ?_
      (wp_watcherTurn host thread (turned_self w))))
    intro r v hv
    rw [Program.onValue_ok]
    split
    · exact hv
    · exact fun c' _ => hv.exit link thread c'
  · exact Or.inl (turned_self w)

end Turns

section Main

variable {τ N L : Type} {link : Link τ N L} {host : Host}

/-- Code that assigns nothing leaves a paused session paused. -/
theorem keepsPaused_of_uses {p : Code τ Unit} (hp : p.Uses assignsNothing) :
    KeepsPaused link host p := by
  have hpaused : p.Keeps (sharing (machine link) (behind link host)) fun x =>
      Holds [] (· = .connectedPaused) x.1 := by
    refine keeps_shared (stable_holds steady_paused) (fun o c y ho _ hy => ⟨List.nil_prefix, ?_⟩) hp
    rcases state_step link ho c y with hstate | hstate
    · exact hstate.trans hy.2
    · exact hstate.trans (congrArg marked hy.2)
  exact fun x hx => Program.wp_mono (fun _ _ hy => hy.2) (hpaused x ⟨List.nil_prefix, hx⟩)

/-- Such code may connect first: a paused session is connected. -/
theorem keepsPaused_connecting {p : Code τ Unit} (hp : p.Uses assignsNothing) :
    KeepsPaused link host (ensureConnected.bind fun _ => p) := by
  intro x hx c hc
  have hpaused : (Holds [] (· = .connectedPaused)) c.2 :=
    before_shared (stable_holds steady_paused) ⟨List.nil_prefix, hx⟩ hc
  have hstate : c.2.state = .connectedPaused := hpaused.2
  change ((if c.2.state.isConnected = true then _ else _ : Code τ Unit).bind fun _ => p).wp _ _ _
  rw [if_pos (by rw [hstate]; rfl)]
  exact keepsPaused_of_uses hp _ hstate

/-- So does every read of memory. -/
theorem keepsPaused_readMemory (addr size : ℤ) :
    KeepsPaused link host ((readMemory addr size).bind fun _ => .done ()) := by
  have hcommands : CommandPieces (fun _ => True) fun _ (p : Code τ _) => p.Uses assignsNothing :=
    commands_use (fun _ _ => trivial) trivial trivial
  have hread : (readMem addr size : Code τ (List UInt8)).Uses assignsNothing :=
    hcommands.readMem addr size trivial
  have huses : ((memRead addr size).bind fun _ => .done () : Code τ Unit).Uses assignsNothing := by
    refine Program.uses_bind (uses_then trivial fun attached => ?_) fun _ => trivial
    cases attached with
    | false => exact Program.uses_bind (Program.uses_ofExcept _ _) fun _ => hread
    | true => exact Program.uses_bind (Program.uses_ofExcept _ _) fun _ => ⟨trivial, fun r => Program.uses_ofExcept _ r⟩
  exact (Program.bind_assoc _ _ _) ▸ keepsPaused_connecting huses

/-- A call returns the first queued stop exactly when it misses nothing. -/
theorem waited_first {timeout : ℕ} {raw : Packet τ} {queue first : List (Packet τ)}
    {u y : World τ L × Bool} {now : Prop} (hqueued : raw :: queue <+: u.1.pendingReplies)
    (hwait : (waitedFor timeout).Reaches (judging link host) (u, True) (.ok first) (y, now)) :
    first = [raw] ∧ Holds queue (· = .connectedPaused) y.1 ∧ now ∨ first = [] ∧ ¬now := by
  have hstart : Stands True (raw :: queue) (fun _ => True) (u, True) := ⟨⟨hqueued, trivial⟩, Iff.rfl⟩
  rcases Program.reaches_of_wp (triple_waitedFor (E := fun _ => False)
    (stands_waitForHit timeout raw) _ hstart) hwait with ⟨hit, hfirst, hraw, hy⟩ | ⟨hfirst, hy⟩
  · exact Or.inl ⟨hraw ▸ hfirst, hy.1, hy.2.mpr trivial⟩
  · exact Or.inr ⟨hfirst, hy.2.mp⟩

/-- A call returns one stop at most. -/
theorem waited_length {timeout : ℕ} {first : List (Packet τ)} {x y : (World τ L × Bool) × Prop}
    (hwait : (waitedFor timeout).Reaches (judging link host) x (.ok first) y) : first.length ≤ 1 := by
  have hany : (waitForHit timeout).Triple (judging link host) (fun _ => True) (fun _ _ => True)
      fun _ => True := fun _ _ => Program.wp_mono (fun r _ _ => by cases r <;> trivial) (Program.wp_true _ _)
  rcases Program.reaches_of_wp (triple_waitedFor (E := fun _ => False) hany x trivial) hwait with
    ⟨hit, rfl, -⟩ | ⟨rfl, -⟩
  · exact le_rfl
  · exact Nat.zero_le 1

variable {calls : List (Code τ Unit × ℕ)} {x : World τ L × Bool} {returned queue : List (Packet τ)}
  {met : Prop}

/-- Each call returns one stop at most. -/
theorem served_length (h : Served link host calls x returned met) : returned.length ≤ calls.length := by
  induction h with
  | done x => exact le_rfl
  | wait hbetween hqueued hwait hlater ih =>
    have hone := waited_length hwait
    rw [List.length_append, List.length_cons]
    omega

/-- Calls that miss nothing hand over what is queued; others return too few stops. -/
theorem served_hands_over (h : Served link host calls x returned met)
    (hqueue : queue <+: x.1.pendingReplies) (hcount : calls.length ≤ queue.length) :
    HandsOver queue calls.length returned ∧ met ∨ returned.length < calls.length ∧ ¬met := by
  induction h generalizing queue with
  | done x => exact Or.inl ⟨rfl, trivial⟩
  | wait hbetween hqueued hwait hlater ih =>
    obtain ⟨raw, rest, rfl⟩ : ∃ raw rest, queue = raw :: rest := by
      cases queue with
      | nil => exact absurd hcount (by simp)
      | cons raw rest => exact ⟨raw, rest, rfl⟩
    rcases waited_first (hqueue.trans hqueued) hwait with ⟨rfl, hy, hnow⟩ | ⟨rfl, hnow⟩
    · rcases ih hy.1 (Nat.le_of_succ_le_succ hcount) with ⟨hhands, hmet⟩ | ⟨hshort, hmet⟩
      · exact Or.inl ⟨congrArg (raw :: ·) hhands, hnow, hmet⟩
      · exact Or.inr ⟨Nat.succ_lt_succ hshort, fun h => hmet h.2⟩
    · exact Or.inr ⟨Nat.lt_succ_of_le (served_length hlater), fun h => hnow h.1⟩

/-- Unless the session is resumed, the first call in a paused session is refused. -/
theorem served_paused (h : Served link host calls x returned met) (hcalls : calls ≠ [])
    (hpaused : x.1.state = .connectedPaused) (hkeeps : ∀ call ∈ calls, KeepsPaused link host call.1) :
    ¬met := by
  cases h with
  | done x => exact absurd rfl hcalls
  | @wait between timeout calls x u y r first later now met hbetween hqueued hwait hlater =>
    have hstill : u.1.state = .connectedPaused :=
      Program.reaches_of_wp (hkeeps _ List.mem_cons_self x hpaused) hbetween
    have hstart : Stands True [] (· = .connectedPaused) (u, True) :=
      ⟨⟨List.nil_prefix, hstill⟩, Iff.rfl⟩
    rcases Program.reaches_of_wp (triple_waitedFor (E := fun _ => False) (G := fun _ _ => False)
      (missed_of_waitForHit timeout) _ hstart) hwait with ⟨-, -, hnever⟩ | ⟨-, hy⟩
    · exact hnever.elim
    · exact fun hmet => hy.2.mp hmet.1

/-- Unless the session is resumed, a second call is refused. -/
theorem served_twice (h : Served link host calls x returned met)
    (hqueue : queue <+: x.1.pendingReplies) (hcount : calls.length ≤ queue.length)
    (htwo : 2 ≤ calls.length) (hkeeps : ∀ call ∈ calls, KeepsPaused link host call.1) : ¬met := by
  cases h with
  | done x => exact absurd htwo (by simp)
  | wait hbetween hqueued hwait hlater =>
    cases queue with
    | nil => exact absurd hcount (by simp)
    | cons raw rest =>
      rcases waited_first (hqueue.trans hqueued) hwait with ⟨-, hy, -⟩ | ⟨-, hnow⟩
      · have hmore : ¬_ := served_paused hlater (List.ne_nil_of_length_pos (by
          rw [List.length_cons] at htwo
          omega)) hy.2 fun call hcall => hkeeps call (List.mem_cons_of_mem _ hcall)
        exact fun hmet => hmore hmet.2
      · exact fun hmet => hnow hmet.1

/-- A turn that surfaces anything surfaces one stop, behind all that is queued. -/
theorem surfaced_last {thread : ℕ} {w w₁ : World τ L} {r : Except PyError Unit}
    (hturn : (watcherIteration host thread).Reaches (machine link) w r w₁)
    (hsurfaced : surfacedSince w w₁ ≠ []) : ∃ raw, surfacedSince w w₁ = [raw] ∧
      w₁.pendingReplies.getLast? = some raw ∧ w₁.state = marked w.state := by
  rcases Program.reaches_of_wp (wp_watcherIteration host thread w) hturn with h | ⟨raw, h, hlast, hstate⟩
  · exact absurd h.surfacedSince hsurfaced
  · exact ⟨raw, h.surfacedSince, hlast, hstate⟩

/-- A connected session is paused by marking it. -/
theorem marked_of_connected {state : SessionState} (h : state.isConnected = true) :
    marked state = .connectedPaused := by
  cases state <;> first | rfl | exact nomatch h

/-- A running session with one capturing breakpoint, a live watcher and a stop
that is not one of its hits. -/
def watchedWorld : TokenWorld :=
  {pausedWorld with
    state := .connectedRunning
    breakpoints := [{bpId := 1, addr := 0x80003100, kind := .swBp, autoContinue := true}]
    watcher := some 0
    watchers := [⟨false, true⟩]
    link := [.frame stopBody (.stop 0 .interrupt)]}

/-- The same in the state a wedged stub leaves behind. -/
def wedgedWorld : TokenWorld := {watchedWorld with state := .error}

/-- The world after the turn that surfaces the stop. -/
def surfacedWorld (w : TokenWorld) : TokenWorld :=
  ((watcherIteration plainHost 0).run (machine (tokenLink Origin)) [] w).2.1

/-- The stop. -/
def foreignStop : Packet Origin := framePacket stopBody (.stop 0 .interrupt)

/-- The stub answers why it halted, and acknowledges the continue. -/
def reconnects : List (Choice Origin TokenNet) :=
  [{net := default}, {net := default, response := [.ack (.reply 0), .frame stopBody (.reply 0)]},
    {net := default}, {net := default}, {net := default},
    {net := default, response := [.ack (.reply 1)]}, {net := default}]

/-- The world after the call that reconnects. -/
def handedWorld : TokenWorld :=
  ((waitedFor 1000).run (machine (tokenLink Origin)) reconnects (surfacedWorld wedgedWorld)).2.1

end Main

end DolphinRe.HandOver
