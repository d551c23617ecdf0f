import DolphinRe.ContainedErrors
import DolphinRe.StubBehaviour

/-!
# When a failing breakpoint change leaves everything as it was

An insertion that the stub carries out is undone by nobody when the rest of the
call fails, and a removal clears the registry before anything can fail. The
exact conditions are on what the stub does: how it answers the insertion and
the closing continue, and how it answers the responsiveness probe.
-/

namespace DolphinRe.ModifyAtomicity

open PythonText GdbPackets GdbWire GdbTokens StopReplies EffectProgram SessionMachine GdbClient
  SessionTools BreakpointTools LinkRefinement StubBehaviour Footprints
open ContainedErrors (Contained never)

section Statement

variable {τ L : Type}

/-- Calls that change breakpoints. -/
inductive Change where
  | addBreakpoint (addr : ℤ)
  | addWatchpoint (addr size : ℤ) (on : String)
  | remove (bpId : ℕ)
  deriving DecidableEq, Repr

/-- One call, with its result dropped. -/
def Change.code : Change → Code τ Unit
  | .addBreakpoint addr => do let _ ← BreakpointTools.addBreakpoint addr
  | .addWatchpoint addr size on => do let _ ← BreakpointTools.addWatchpoint addr size on
  | .remove bpId => do let _ ← BreakpointTools.remove bpId

/-- At every step the stub answers, with whatever packet, or the client times
out; the connection stays up. -/
def AnswersOrTimesOut : Discipline τ := fun o c w answer =>
  match o, answer with
  | .send _, _ => c.sendFails = false
  | .consumeAck, answer => w.sockOpen = true → onlyTimesOut answer = true
  | .readPacketFromWire _, answer => w.sockOpen = true → onlyTimesOut answer = true
  | _, _ => True

instance (o : Op τ) (c : Choice τ Unit) (w : World τ Unit) (answer : o.Answer) :
    Decidable (AnswersOrTimesOut o c w answer) := by
  induction o using Op.casesOn with
  | send _ => exact inferInstanceAs (Decidable (c.sendFails = false))
  | consumeAck => exact inferInstanceAs (Decidable (w.sockOpen = true → onlyTimesOut answer = true))
  | readPacketFromWire _ =>
    exact inferInstanceAs (Decidable (w.sockOpen = true → onlyTimesOut answer = true))
  | _ => exact isTrue trivial

/-- A call that raised left the registry and the set of armed points alone. -/
def FailsCleanly (before after : World τ L) (outcome : Except PyError Unit) : Prop :=
  ∀ e, outcome = .error e → after.breakpoints = before.breakpoints ∧
    ∀ point, point ∈ after.armed ↔ point ∈ before.armed

/-- What happened on the connection between two worlds of a run. -/
def eventsBetween (before after : World τ L) : List (Obs τ) :=
  after.trace.drop before.trace.length

/-- Replies to a breakpoint packet other than the empty one and errors. -/
def accepted (reply : Str) : Bool := decide (reply ≠ []) && !startsWith "E".toList reply

/-- An acknowledgement that was not received. -/
def isAckFault : Obs τ → Bool
  | .ackFault _ => true
  | _ => false

/-- What follows an insertion: acknowledged, accepted, and no later command
left without its acknowledgement. -/
def confirmed : List (Obs τ) → Bool
  | .acked _ :: .got packet :: rest => accepted packet.text && rest.all fun event => !isAckFault event
  | _ => false

/-- Whether a message that is carried out arms a point that was not armed. -/
def armsNew (message : Sent) (armed : List Point) : Bool :=
  (armedAfter message armed).any fun point => decide (point ∉ armed)

/-- The stub armed a new point and did not confirm it. -/
def leftArmed (armed : List Point) : List (Obs τ) → Bool
  | .sent message true :: rest => armsNew message armed && !confirmed rest || leftArmed armed rest
  | _ :: rest => leftArmed armed rest
  | [] => false

/-- The first `qC` of a call, its responsiveness probe, was not answered or was
answered with an error. -/
def probeFails : List (Obs τ) → Bool
  | .sent (.packet .currentThread) _ :: .acked _ :: .got packet :: _ =>
    startsWith "E".toList packet.text
  | .sent (.packet .currentThread) _ :: _ => true
  | _ :: rest => probeFails rest
  | [] => false

/-- Conditions under which a call that raises leaves everything as it was: no
insertion stays unconfirmed; and a removal of a registered breakpoint finds the
connection open, if the session takes it to be, and its probe answered. -/
def Change.spared (before : World τ L) (events : List (Obs τ)) : Change → Bool
  | .addBreakpoint _ => !leftArmed before.armed events
  | .addWatchpoint _ _ _ => !leftArmed before.armed events
  | .remove bpId => (lookup bpId before.breakpoints).isNone ||
    ((!before.state.isConnected || before.sockOpen) && !probeFails events)

end Statement

section Insertions

/-- The heartbeat. -/
def isProbe : Sent → Bool
  | .packet .currentThread => true
  | _ => false

/-- A packet that starts with `Z` reads as an insertion. -/
theorem readPoint_insert {fields : Str} {insert : Bool} {point : Point}
    (h : readPoint ('Z' :: fields) = some (insert, point)) : insert = true := by
  unfold readPoint at h
  split at h
  · rename_i op code fields heq
    simp only [List.cons.injEq] at heq
    obtain ⟨rfl, -⟩ := heq
    split at h
    · simp only [if_true, Option.some.injEq, Prod.mk.injEq] at h
      exact h.1.symm
    · simp at h
  · simp at h

/-- An insertion arms one new point behind the others, or changes nothing. -/
theorem armedAfter_insert (kind : BpKind) (addr size : ℤ) (armed : List Point) :
    armedAfter (.packet (.setBreak true kind addr size)) armed = armed ∨
      ∃ point ∉ armed, armedAfter (.packet (.setBreak true kind addr size)) armed =
        armed ++ [point] := by
  unfold armedAfter setPoint
  dsimp only
  cases hread : readPoint (Command.setBreak true kind addr size).payload with
  | none => exact Or.inl rfl
  | some read =>
    obtain ⟨insert, point⟩ := read
    obtain rfl := readPoint_insert hread
    dsimp only
    unfold arm
    split_ifs with hmem
    · exact Or.inl rfl
    · exact Or.inr ⟨point, hmem, rfl⟩

/-- An insertion that arms nothing new changes nothing. -/
theorem armedAfter_of_not_armsNew {kind : BpKind} {addr size : ℤ} {armed : List Point}
    (h : armsNew (.packet (.setBreak true kind addr size)) armed = false) :
    armedAfter (.packet (.setBreak true kind addr size)) armed = armed := by
  rcases armedAfter_insert kind addr size armed with hsame | ⟨point, hnew, hafter⟩
  · exact hsame
  · simp [armsNew, hafter, hnew] at h

/-- A newly armed point tells the armed points apart. -/
theorem not_same_points_of_armsNew {message : Sent} {armed : List Point}
    (h : armsNew message armed = true) :
    ¬∀ point, point ∈ armedAfter message armed ↔ point ∈ armed := by
  intro hsame
  obtain ⟨point, hpoint, hnew⟩ := List.any_eq_true.mp h
  exact of_decide_eq_true hnew ((hsame point).mp hpoint)

variable {τ : Type}

/-- Anything but a breakpoint packet. -/
def noModify : Obs τ → Prop
  | .sent message _ => isModify message = false
  | _ => True

/-- Events without a breakpoint packet do not matter to what stays armed. -/
theorem leftArmed_append {events : List (Obs τ)} (h : ∀ event ∈ events, noModify event)
    (armed : List Point) (rest : List (Obs τ)) :
    leftArmed armed (events ++ rest) = leftArmed armed rest := by
  induction events with
  | nil => rfl
  | cons event events ih =>
    have hrest := ih fun e he => h e (List.mem_cons_of_mem _ he)
    cases event with
    | sent message obeyed =>
      have hmodify : isModify message = false := h _ List.mem_cons_self
      have hnot := armedAfter_of_not_modify hmodify armed
      cases obeyed with
      | false => exact hrest
      | true =>
        have hnew : armsNew message armed = false := by simp [armsNew, hnot]
        simpa [leftArmed, hnew] using hrest
    | _ => exact hrest

/-- Without a change nothing is left armed. -/
theorem leftArmed_of_noModify {events : List (Obs τ)} (h : ∀ event ∈ events, noModify event)
    (armed : List Point) : leftArmed armed events = false := by
  simpa [leftArmed] using leftArmed_append h armed []

end Insertions

section Segments

variable {τ N L : Type} {link : Link τ N L} {events : Obs τ → Prop} {before w : World τ L}

/-- The machine of these calls. -/
abbrev modifyMachine (link : Link τ N L) : Machine (signature τ) (Choice τ N) (World τ L) :=
  disciplined link AnswersOrTimesOut

/-- What a part of a call that changes no breakpoints leaves behind; its events
are among the given ones. -/
structure Since (events : Obs τ → Prop) (before w : World τ L) : Prop where
  /-- The new events are among the given ones. -/
  trace : ∃ new, w.trace = before.trace ++ new ∧ ∀ event ∈ new, events event
  /-- If none of these changes breakpoints, the same points are armed. -/
  armed : (∀ message obeyed, events (.sent message obeyed) → isModify message = false) →
    w.armed = before.armed
  /-- The registry is the same. -/
  breakpoints : w.breakpoints = before.breakpoints
  /-- An open connection stays open. -/
  sock : before.sockOpen = true → w.sockOpen = true

/-- At first nothing has happened. -/
theorem Since.refl (events : Obs τ → Prop) (w : World τ L) : Since events w w :=
  ⟨⟨[], by simp, by simp⟩, fun _ => rfl, rfl, id⟩

/-- What two parts leave behind adds up. -/
theorem Since.trans {v : World τ L} (h : Since events before w) (h' : Since events w v) :
    Since events before v := by
  obtain ⟨new, hnew, hevents⟩ := h.trace
  obtain ⟨new', hnew', hevents'⟩ := h'.trace
  refine ⟨⟨new ++ new', by rw [hnew', hnew, List.append_assoc], fun e he => ?_⟩,
    fun hs => (h'.armed hs).trans (h.armed hs), h'.breakpoints.trans h.breakpoints,
    fun hb => h'.sock (h.sock hb)⟩
  exact (List.mem_append.mp he).elim (hevents e) (hevents' e)

/-- One more event. -/
theorem Since.step {v : World τ L} {event : Obs τ} (h : Since events before w)
    (hevent : events event) (htrace : v.trace = w.trace ++ [event])
    (harmed : (∀ message obeyed, events (.sent message obeyed) → isModify message = false) →
      v.armed = w.armed)
    (hbreakpoints : v.breakpoints = w.breakpoints)
    (hsock : w.sockOpen = true → v.sockOpen = true) : Since events before v := by
  obtain ⟨new, hnew, hevents⟩ := h.trace
  refine ⟨⟨new ++ [event], by rw [htrace, hnew, List.append_assoc], ?_⟩,
    fun hs => (harmed hs).trans (h.armed hs), hbreakpoints.trans h.breakpoints,
    fun hb => hsock (h.sock hb)⟩
  intro e he
  rcases List.mem_append.mp he with he | he
  · exact hevents e he
  · exact List.mem_singleton.mp he ▸ hevent

/-- No event. -/
theorem Since.same {v : World τ L} (h : Since events before w) (htrace : v.trace = w.trace)
    (harmed : v.armed = w.armed) (hbreakpoints : v.breakpoints = w.breakpoints)
    (hsock : w.sockOpen = true → v.sockOpen = true) : Since events before v :=
  ⟨by rw [htrace]; exact h.trace, fun hs => harmed.trans (h.armed hs),
    hbreakpoints.trans h.breakpoints, fun hb => hsock (h.sock hb)⟩

/-- What the stub does on its own is none of it. -/
theorem Since.absorb (h : Since events before w) (acts : List (StubAct τ)) :
    Since events before (w.absorb link acts) :=
  h.same (World.absorb_trace link acts w) (World.absorb_armed link acts w)
    (World.absorb_breakpoints link acts w) fun hopen => by simpa using hopen

/-- The events an access may leave in the trace. -/
def leaves : Op τ → Obs τ → Prop
  | .send message, .sent message' _ => message' = message
  | .consumeAck, .acked _ => True
  | .consumeAck, .ackFault _ => True
  | .readPacketFromWire _, .got _ => True
  | .readPacketFromWire _, .readFault _ => True
  | _, _ => False

/-- Accesses that leave the registry and the connection alone and whose events are among the
given ones. -/
def within (events : Obs τ → Prop) (o : Op τ) : Prop :=
  restrained true true true (fun _ => True) o ∧ ∀ event, leaves o event → events event

/-- An outcome that is a value or a timeout does not lose the connection. -/
theorem keeps_connection {α : Type} {outcome : Except PyError α} (h : onlyTimesOut outcome = true) :
    World.losesConnection outcome = false := by
  cases outcome with
  | ok a => rfl
  | error e =>
    obtain ⟨message, rfl⟩ := eq_of_isTimeout h
    rfl

/-- Mapping a value changes no error. -/
theorem onlyTimesOut_map {α β : Type} {f : α → β} {outcome : Except PyError α} :
    onlyTimesOut (outcome.map f) = onlyTimesOut outcome := by
  cases outcome <;> rfl

/-- A read over an open connection leaves one event. -/
structure Adds (event : Obs τ) (w v : World τ L) : Prop where
  /-- The event is the only new one. -/
  trace : v.trace = w.trace ++ [event]
  /-- The same points are armed. -/
  armed : v.armed = w.armed
  /-- The registry is the same. -/
  breakpoints : v.breakpoints = w.breakpoints
  /-- The connection is open. -/
  sock : v.sockOpen = true

/-- Waiting for an acknowledgement leaves one event, and only times out. -/
theorem consumeAck_adds {c : Choice τ N} (hopen : w.sockOpen = true)
    (hc : (modifyMachine link).admits .consumeAck c w) : ∃ outcome : Except PyError τ,
      ((modifyMachine link).step .consumeAck c w).1 = outcome.map (fun _ => ()) ∧
      onlyTimesOut outcome = true ∧
      Adds (World.ackEvent outcome) w ((modifyMachine link).step .consumeAck c w).2 := by
  have hlives := hc.2 hopen
  change onlyTimesOut (World.consumeAck link c (w.absorb link c.acts)).1 = true at hlives
  change ∃ outcome : Except PyError τ, (World.consumeAck link c (w.absorb link c.acts)).1 = _ ∧ _ ∧
    Adds _ w (World.consumeAck link c (w.absorb link c.acts)).2
  have hopen' : (w.absorb link c.acts).sockOpen = true :=
    (World.absorb_sockOpen link c.acts w).trans hopen
  rw [World.consumeAck_open hopen'] at hlives ⊢
  rw [onlyTimesOut_map] at hlives
  refine ⟨_, rfl, hlives, ⟨?_, ?_, ?_, ?_⟩⟩
  · exact congrArg (· ++ _) (World.absorb_trace link c.acts w)
  · exact World.absorb_armed link c.acts w
  · exact World.absorb_breakpoints link c.acts w
  · simp [keeps_connection hlives]

/-- So does reading a packet. -/
theorem readPacket_adds {timeout : Option ℕ} {c : Choice τ N} (hopen : w.sockOpen = true)
    (hc : (modifyMachine link).admits (.readPacketFromWire timeout) c w) :
    onlyTimesOut ((modifyMachine link).step (.readPacketFromWire timeout) c w).1 = true ∧
      Adds (World.readEvent ((modifyMachine link).step (.readPacketFromWire timeout) c w).1) w
        ((modifyMachine link).step (.readPacketFromWire timeout) c w).2 := by
  have hlives := hc.2 hopen
  change onlyTimesOut (World.readPacket link c (w.absorb link c.acts)).1 = true at hlives
  change onlyTimesOut (World.readPacket link c (w.absorb link c.acts)).1 = true ∧
    Adds (World.readEvent (World.readPacket link c (w.absorb link c.acts)).1) w
      (World.readPacket link c (w.absorb link c.acts)).2
  have hopen' : (w.absorb link c.acts).sockOpen = true :=
    (World.absorb_sockOpen link c.acts w).trans hopen
  rw [World.readPacket_open hopen'] at hlives ⊢
  refine ⟨hlives, ⟨?_, ?_, ?_, ?_⟩⟩
  · exact congrArg (· ++ _) (World.absorb_trace link c.acts w)
  · exact World.absorb_armed link c.acts w
  · exact World.absorb_breakpoints link c.acts w
  · simp [keeps_connection hlives]

/-- One more event of the kind may be left. -/
theorem Since.adds {event : Obs τ} {v : World τ L} (h : Since events before w)
    (hevent : events event) (hadds : Adds event w v) : Since events before v :=
  h.step hevent hadds.trace (fun _ => hadds.armed) hadds.breakpoints fun _ => hadds.sock

/-- One access that changes no breakpoints. -/
theorem since_step {o : Op τ} (ho : within events o) {c : Choice τ N}
    (hc : (modifyMachine link).admits o c w) (h : Since events before w) :
    Since events before ((modifyMachine link).step o c w).2 := by
  have habsorb : Since events before (w.absorb link c.acts) := h.absorb c.acts
  obtain ⟨ho, hevents⟩ := ho
  cases o with
  | send message =>
    have hstays : c.sendFails = false := hc.2
    change Since events before (World.send link message c (w.absorb link c.acts)).2
    unfold World.send
    rw [if_neg (by simp [hstays] : ¬c.sendFails = true)]
    split_ifs with hopen
    · have hevent : events (.sent message c.obeyed) := hevents _ rfl
      refine habsorb.step hevent rfl ?_ rfl id
      intro hmodify
      change (if c.obeyed = true then _ else _) = _
      split_ifs
      · exact armedAfter_of_not_modify (hmodify _ _ hevent) _
      · rfl
    · exact habsorb
  | consumeAck =>
    cases hopen : w.sockOpen with
    | false =>
      have hclosed : (w.absorb link c.acts).sockOpen = false :=
        (World.absorb_sockOpen link c.acts w).trans hopen
      change Since events before (World.consumeAck link c (w.absorb link c.acts)).2
      rw [World.consumeAck_closed hclosed]
      exact habsorb
    | true =>
      obtain ⟨outcome, -, -, hadds⟩ := consumeAck_adds hopen hc
      refine h.adds (hevents _ ?_) hadds
      cases outcome <;> trivial
  | readPacketFromWire timeout =>
    cases hopen : w.sockOpen with
    | false =>
      have hclosed : (w.absorb link c.acts).sockOpen = false :=
        (World.absorb_sockOpen link c.acts w).trans hopen
      change Since events before (World.readPacket link c (w.absorb link c.acts)).2
      rw [World.readPacket_closed hclosed]
      exact habsorb
    | true =>
      obtain ⟨-, hadds⟩ := readPacket_adds hopen hc
      refine h.adds (hevents _ ?_) hadds
      cases ((modifyMachine link).step (.readPacketFromWire timeout) c w).1 <;> trivial
  | connect =>
    change Since events before (World.connect link c (w.absorb link c.acts)).2
    unfold World.connect
    split_ifs
    · exact habsorb
    · exact habsorb
    · exact habsorb.same rfl rfl rfl fun _ => rfl
  | markRunning =>
    change Since events before (if _ then {w with state := .connectedRunning} else w)
    split_ifs
    · exact h.same rfl rfl rfl id
    · exact h
  | markPaused =>
    change Since events before (if _ then {w with state := .connectedPaused} else w)
    split_ifs
    · exact h.same rfl rfl rfl id
    · exact h
  | _ => first
    | exact ho.elim
    | exact h.same rfl rfl rfl id
    | exact habsorb.same rfl rfl rfl id

/-- A part of a call that changes no breakpoints. -/
theorem wp_since {α : Type} {p : Code τ α} (hp : p.Uses (within events))
    (h : Since events before w) : p.wp (modifyMachine link) (fun _ v => Since events before v) w :=
  Program.wp_of_uses (I := Since events before) (fun _ _ _ ho hc h => since_step ho hc h) hp h

/-- Footprints by messages are footprints by events. -/
theorem within_of_restrained {sends : Sent → Prop}
    (hsends : ∀ message, sends message → ∀ obeyed, events (.sent message obeyed))
    (hrest : ∀ event, (∀ message obeyed, event ≠ .sent message obeyed) → events event) {o : Op τ}
    (ho : restrained true true true sends o) : within events o := by
  constructor
  · cases o <;> trivial
  · intro event hleaves
    cases event with
    | sent message obeyed =>
      cases o <;> simp only [leaves] at hleaves
      subst hleaves
      exact hsends _ ho obeyed
    | _ => exact hrest _ (by simp)

/-- Any events. -/
theorem uses_any {α : Type} {p : Code τ α} (hp : p.Uses (restrained true true true fun _ => True)) :
    p.Uses (within fun _ => True) :=
  hp.mono fun _ ho => within_of_restrained (fun _ _ _ => trivial) (fun _ _ => trivial) ho

/-- Events of a kind are events of any wider kind. -/
theorem Since.mono {events' : Obs τ → Prop} (h : Since events before w)
    (hevents : ∀ event, events event → events' event) : Since events' before w := by
  obtain ⟨new, hnew, hall⟩ := h.trace
  exact ⟨⟨new, hnew, fun e he => hevents e (hall e he)⟩,
    fun hmodify => h.armed fun m ob hm => hmodify m ob (hevents _ hm), h.breakpoints, h.sock⟩

end Segments

section Raising

variable {τ N L : Type} {link : Link τ N L}

/-- The connection is open. -/
def Open (w : World τ L) : Prop := w.sockOpen = true

/-- Accesses that are no close keep the connection open. -/
theorem open_step {o : Op τ} (ho : restrained true true true (fun _ => True) o) (c : Choice τ N) (w : World τ L)
    (hc : (modifyMachine link).admits o c w) (h : Open w) :
    Open ((modifyMachine link).step o c w).2 := by
  have hsince : Since (fun _ => True) w ((modifyMachine link).step o c w).2 :=
    since_step ⟨ho, fun _ _ => trivial⟩ hc (Since.refl _ w)
  exact hsince.sock h

/-- A timeout. -/
def timesOut (e : PyError) : Prop := isTimeout e = true

/-- The errors `remove` swallows. -/
def recoverable (e : PyError) : Prop := isStubError e = true ∨ isTimeout e = true

/-- Such an access raises nothing by itself. -/
theorem raisesOnly_access {E : PyError → Prop} {o : Op τ} (ho : restrained true true true (fun _ => True) o) :
    Program.RaisesOnly (modifyMachine link) Open E (access o) :=
  Program.raisesOnly_perform (open_step ho) fun _ => Program.raisesOnly_done _

/-- Over an open connection sending raises nothing. -/
theorem raisesOnly_sendall {E : PyError → Prop} (message : Sent) :
    Program.RaisesOnly (modifyMachine link) Open E (sendall message) := by
  intro w h
  rw [wp_sendall]
  intro c hc
  refine ⟨open_step (o := .send message) trivial c w hc h, fun e he => ?_⟩
  have hstays : c.sendFails = false := hc.2
  have hopen : (w.absorb link c.acts).sockOpen = true := (World.absorb_sockOpen link c.acts w).trans h
  change (World.send link message c (w.absorb link c.acts)).1 = .error e at he
  rw [World.send, if_pos hopen, if_neg (by simp [hstays])] at he
  simp at he

/-- Waiting for an acknowledgement only times out. -/
theorem raisesOnly_consumeAck :
    Program.RaisesOnly (modifyMachine link) Open timesOut (consumeAck : Code τ Unit) := by
  intro w h
  rw [wp_consumeAck]
  intro c hc
  obtain ⟨outcome, houtcome, hlives, hadds⟩ := consumeAck_adds h hc
  refine ⟨hadds.sock, fun e he => ?_⟩
  rw [houtcome] at he
  cases outcome with
  | ok tag => simp [Except.map] at he
  | error e' =>
    simp only [Except.map, Except.error.injEq] at he
    exact he ▸ hlives

/-- So does reading a packet. -/
theorem raisesOnly_readPacketFromWire (timeout : Option ℕ) :
    Program.RaisesOnly (modifyMachine link) Open timesOut (readPacketFromWire timeout) := by
  intro w h
  rw [wp_readPacketFromWire]
  intro c hc
  obtain ⟨hlives, hadds⟩ := readPacket_adds h hc
  refine ⟨hadds.sock, fun e he => ?_⟩
  rw [he] at hlives
  exact hlives

/-- The loops of these calls contain their timeouts. -/
theorem contained_open : Contained (modifyMachine link) Open (fun _ => True) timesOut timesOut where
  step o c w ho hc h := by
    refine open_step ?_ c w hc h
    cases o <;> trivial
  send message _ := raisesOnly_sendall message
  ack := raisesOnly_consumeAck
  read := raisesOnly_readPacketFromWire
  sendErrors e he := by
    obtain ⟨message, rfl⟩ := eq_of_isTimeout he
    rfl
  readErrors e he := by
    obtain ⟨message, rfl⟩ := eq_of_isTimeout he
    rfl

/-- Quiescing raises nothing. -/
theorem raisesOnly_quiesceForModify {E : PyError → Prop} :
    Program.RaisesOnly (modifyMachine link) Open E (quiesceForModify : Code τ Unit) := by
  refine Program.raisesOnly_bind (Program.raisesOnly_handle (raisesOnly_sendall (E := E) _)
    fun _ _ => Program.raisesOnly_done _) fun _ => ?_
  refine Program.raisesOnly_bind (raisesOnly_access trivial) fun n => ?_
  refine Program.raisesOnly_bind (contained_open.consumeStops n false) fun _ => ?_
  refine Program.raisesOnly_bind (contained_open.drainStopReplies 50) fun _ => ?_
  exact Program.raisesOnly_bind (contained_open.fence trivial) fun _ => raisesOnly_access trivial

/-- Resuming afterwards only times out. -/
theorem raisesOnly_resumeAfterModify :
    Program.RaisesOnly (modifyMachine link) Open timesOut (resumeAfterModify : Code τ Unit) := by
  refine Program.raisesOnly_bind (contained_open.drainStopReplies 50) fun _ => ?_
  exact Program.raisesOnly_bind (contained_open.sendPacket trivial) fun _ => raisesOnly_access trivial

/-- A change is refused or times out. -/
theorem raisesOnly_setBreak (insert : Bool) (kind : BpKind) (addr size : ℤ) :
    Program.RaisesOnly (modifyMachine link) Open recoverable
      (setBreak insert kind addr size : Code τ (Packet τ)) := by
  refine Program.raisesOnly_bind (Program.RaisesOnly.mono (E := timesOut) ?_ fun _ => Or.inr)
    fun reply => ?_
  · exact Program.raisesOnly_bind (contained_open.sendPacket trivial) fun _ =>
      raisesOnly_readPacketFromWire _
  · split_ifs
    · exact Program.raisesOnly_raise (Or.inl rfl)
    · exact Program.raisesOnly_raise (Or.inl rfl)
    · exact Program.raisesOnly_done _

end Raising

section Verdicts

variable {τ N L : Type} {link : Link τ N L} {before w v : World τ L}

/-- A message that left over an open connection. -/
structure Delivers (message : Sent) (obeyed : Bool) (w v : World τ L) : Prop where
  /-- The message is the only new event. -/
  trace : v.trace = w.trace ++ [.sent message obeyed]
  /-- A stub that obeys arms or disarms what the message says. -/
  armed : v.armed = if obeyed then armedAfter message w.armed else w.armed
  /-- The registry is the same. -/
  breakpoints : v.breakpoints = w.breakpoints
  /-- The connection is open. -/
  sock : v.sockOpen = true

/-- Over an open connection a message is delivered. -/
theorem send_delivers {message : Sent} {c : Choice τ N} (hopen : w.sockOpen = true)
    (hc : (modifyMachine link).admits (.send message) c w) :
    ((modifyMachine link).step (.send message) c w).1 = .ok () ∧
      Delivers message c.obeyed w ((modifyMachine link).step (.send message) c w).2 := by
  have hstays : c.sendFails = false := hc.2
  have hopen' : (w.absorb link c.acts).sockOpen = true :=
    (World.absorb_sockOpen link c.acts w).trans hopen
  change (World.send link message c (w.absorb link c.acts)).1 = .ok () ∧
    Delivers message c.obeyed w (World.send link message c (w.absorb link c.acts)).2
  rw [World.send, if_pos hopen', if_neg (by simp [hstays])]
  refine ⟨rfl, ⟨?_, ?_, ?_, hopen'⟩⟩
  · exact congrArg (· ++ _) (World.absorb_trace link c.acts w)
  · change (if c.obeyed = true then armedAfter message (w.absorb link c.acts).armed
      else (w.absorb link c.acts).armed) = _
    rw [World.absorb_armed]
  · exact World.absorb_breakpoints link c.acts w

/-- Without a connection a message does not leave. -/
theorem send_closed {message : Sent} {c : Choice τ N} (hclosed : w.sockOpen = false) :
    ((modifyMachine link).step (.send message) c w).1 =
        .error (.connectionLost "GDB socket is not connected") ∧
      Since noModify w ((modifyMachine link).step (.send message) c w).2 := by
  change (World.send link message c (w.absorb link c.acts)).1 = _ ∧
    Since noModify w (World.send link message c (w.absorb link c.acts)).2
  rw [World.send, if_neg (by simp [hclosed])]
  exact ⟨rfl, (Since.refl noModify w).absorb c.acts⟩

/-- What a command that reached the stub left behind: the events after the packet, and
whether a reply was read that the client went on with. -/
structure Exchanged (command : Command) (w v : World τ L) (obeyed : Bool) (after : List (Obs τ)) :
    Prop where
  /-- The new events are the packet, and those after it. -/
  trace : v.trace = w.trace ++ .sent (.packet command) obeyed :: after
  /-- A stub that obeys arms or disarms what the command says. -/
  armed : v.armed = if obeyed then armedAfter (.packet command) w.armed else w.armed
  /-- The registry is the same. -/
  breakpoints : v.breakpoints = w.breakpoints
  /-- The connection is open. -/
  sock : v.sockOpen = true

/-- A delivered command has reached the stub. -/
theorem Exchanged.of_delivers {command : Command} {obeyed : Bool}
    (h : Delivers (.packet command) obeyed w v) : Exchanged command w v obeyed [] :=
  ⟨h.trace, h.armed, h.breakpoints, h.sock⟩

/-- Further events come behind it. -/
theorem Exchanged.adds {command : Command} {obeyed : Bool} {after : List (Obs τ)} {event : Obs τ}
    {u : World τ L} (h : Exchanged command w v obeyed after) (hadds : Adds event v u) :
    Exchanged command w u obeyed (after ++ [event]) :=
  ⟨by rw [hadds.trace, h.trace]; simp, hadds.armed.trans h.armed,
    hadds.breakpoints.trans h.breakpoints, hadds.sock⟩

/-- A packet over an open connection: acknowledged or not. -/
theorem wp_sendPacket_exchanged (command : Command) (hopen : w.sockOpen = true) :
    (sendPacket command).wp (modifyMachine link) (fun r v => ∃ obeyed,
      (∃ tag, r = .ok () ∧ Exchanged command w v obeyed [.acked tag]) ∨
      ∃ e, r = .error e ∧ Exchanged command w v obeyed [.ackFault e]) w := by
  simp only [sendPacket, Program.bind_eq, Program.wp_bind]
  rw [wp_sendall]
  intro c hc
  obtain ⟨hok, hdelivers⟩ := send_delivers hopen hc
  rw [hok, Program.onValue_ok, wp_consumeAck]
  intro c' hc'
  obtain ⟨outcome, houtcome, -, hadds⟩ := consumeAck_adds hdelivers.sock hc'
  have hacked := (Exchanged.of_delivers hdelivers).adds hadds
  rw [houtcome]
  cases outcome with
  | ok tag => exact ⟨c.obeyed, Or.inl ⟨tag, rfl, hacked⟩⟩
  | error e => exact ⟨c.obeyed, Or.inr ⟨e, rfl, hacked⟩⟩

/-- A command over an open connection: no acknowledgement, no reply, or a reply. -/
theorem wp_exchange (command : Command) (timeout : Option ℕ) (hopen : w.sockOpen = true) :
    ((sendPacket command).bind fun _ => readPacketFromWire timeout).wp (modifyMachine link)
      (fun r v => ∃ obeyed,
        (∃ tag packet, r = .ok packet ∧ Exchanged command w v obeyed [.acked tag, .got packet]) ∨
        ∃ e, r = .error e ∧ ((∃ e', Exchanged command w v obeyed [.ackFault e']) ∨
          ∃ tag e', Exchanged command w v obeyed [.acked tag, .readFault e'])) w := by
  rw [Program.wp_bind]
  refine Program.wp_mono ?_ (wp_sendPacket_exchanged command hopen)
  rintro r v ⟨obeyed, ⟨tag, rfl, h⟩ | ⟨e, rfl, h⟩⟩
  · rw [Program.onValue_ok, wp_readPacketFromWire]
    intro c hc
    obtain ⟨-, hadds⟩ := readPacket_adds h.sock hc
    have hread := h.adds hadds
    cases hresult : ((modifyMachine link).step (.readPacketFromWire timeout) c v).1 with
    | ok packet =>
      rw [hresult] at hread
      exact ⟨obeyed, Or.inl ⟨tag, packet, rfl, hread⟩⟩
    | error e =>
      rw [hresult] at hread
      exact ⟨obeyed, Or.inr ⟨e, rfl, Or.inr ⟨tag, e, hread⟩⟩⟩
  · exact ⟨obeyed, Or.inr ⟨e, rfl, Or.inl ⟨e, h⟩⟩⟩

/-- An insertion that reached the stub, and whether the client took it for done. -/
structure Inserted (message : Sent) (done : Bool) (w v : World τ L) : Prop where
  /-- The message comes first; the events behind it change no breakpoint, and tell whether it was confirmed. -/
  events : ∃ obeyed after, v.trace = w.trace ++ .sent message obeyed :: after ∧
    v.armed = (if obeyed then armedAfter message w.armed else w.armed) ∧
    (∀ event ∈ after, noModify event) ∧
    ∀ rest, confirmed (after ++ rest) = (done && rest.all fun event => !isAckFault event)
  /-- The registry is the same. -/
  breakpoints : v.breakpoints = w.breakpoints
  /-- The connection is open. -/
  sock : v.sockOpen = true

/-- `_set_break` on an insertion. -/
theorem wp_insert (kind : BpKind) (addr size : ℤ) :
    (setBreak true kind addr size).wp (modifyMachine link) (fun r v =>
      ((∃ e, r = .error e) ∧ Since noModify w v) ∨
        Inserted (.packet (.setBreak true kind addr size)) r.isOk w v) w := by
  unfold setBreak
  rw [Program.bind_eq, Program.wp_bind]
  cases hopen : w.sockOpen with
  | false =>
    simp only [cmd, sendPacket, Program.bind_eq, Program.wp_bind]
    rw [wp_sendall]
    intro c hc
    obtain ⟨herror, hsince⟩ := send_closed (c := c) hopen
    rw [herror]
    exact Or.inl ⟨⟨_, rfl⟩, hsince⟩
  | true =>
    refine Program.wp_mono ?_ (wp_exchange _ none hopen)
    rintro r v ⟨obeyed, ⟨tag, packet, rfl, h⟩ | ⟨e, rfl, ⟨e', h⟩ | ⟨tag, e', h⟩⟩⟩
    · rw [Program.onValue_ok]
      have hinserted : ∀ done, accepted packet.text = done →
          Inserted (.packet (.setBreak true kind addr size)) done w v := by
        rintro done rfl
        exact ⟨⟨obeyed, _, h.trace, h.armed, by simp [noModify], fun rest => rfl⟩, h.breakpoints, h.sock⟩
      split_ifs with hempty herror
      · exact Or.inr (hinserted false (by simp [accepted, hempty]))
      · exact Or.inr (hinserted false (by rw [accepted, herror, Bool.not_true, Bool.and_false]))
      · refine Or.inr (hinserted true ?_)
        rw [accepted, Bool.eq_false_iff.mpr herror, decide_eq_true hempty]
        rfl
    · exact Or.inr ⟨⟨obeyed, _, h.trace, h.armed, by simp [noModify], fun rest => rfl⟩,
        h.breakpoints, h.sock⟩
    · exact Or.inr ⟨⟨obeyed, _, h.trace, h.armed, by simp [noModify], fun rest => rfl⟩,
        h.breakpoints, h.sock⟩

end Verdicts

section Adding

variable {τ N L : Type} {link : Link τ N L} {before w v u : World τ L}

/-- The end of a change made from a running target, and whether it went well. -/
structure Closing (done : Bool) (w v : World τ L) : Prop where
  /-- The new events change no breakpoint, and tell whether all were acknowledged. -/
  events : ∃ rest, v.trace = w.trace ++ rest ∧ (∀ event ∈ rest, noModify event) ∧
    (rest.all fun event => !isAckFault event) = done
  /-- The same points are armed. -/
  armed : v.armed = w.armed
  /-- The registry is the same. -/
  breakpoints : v.breakpoints = w.breakpoints

/-- Events of reads alone. -/
def readOnly : Obs τ → Prop
  | .got _ => True
  | .readFault _ => True
  | _ => False

/-- Draining the stops only reads. -/
theorem uses_drain_within (maxWait : ℕ) :
    (drainStopReplies maxWait : Code τ (List (Packet τ))).Uses (within readOnly) := by
  refine uses_drainStopReplies ⟨trivial, fun _ h => ?_⟩ ⟨trivial, fun _ h => ?_⟩
    ⟨trivial, fun event h => ?_⟩
  · exact h.elim
  · exact h.elim
  · cases event <;> trivial

/-- Changing the state of the session alone keeps a verdict on the end of a change. -/
theorem Closing.same {done : Bool} (h : Closing done w v) (htrace : u.trace = v.trace)
    (harmed : u.armed = v.armed) (hbreakpoints : u.breakpoints = v.breakpoints) :
    Closing done w u :=
  ⟨by rw [htrace]; exact h.events, harmed.trans h.armed, hbreakpoints.trans h.breakpoints⟩

/-- Reads followed by a continue. -/
theorem Closing.of_resumed {obeyed : Bool} {event : Obs τ} (hreads : Since readOnly w v)
    (hresumed : Exchanged .resume v u obeyed [event]) (hevent : noModify event) :
    Closing (!isAckFault event) w u := by
  obtain ⟨reads, htrace, honly⟩ := hreads.trace
  refine ⟨⟨reads ++ [.sent (.packet .resume) obeyed, event], ?_, ?_, ?_⟩, ?_, ?_⟩
  · rw [hresumed.trace, htrace, List.append_assoc]
  · intro e he
    rcases List.mem_append.mp he with he | he
    · have hread := honly e he
      cases e <;> trivial
    · rcases List.mem_pair.mp he with rfl | rfl
      · rfl
      · exact hevent
  · have hall : (reads.all fun e => !isAckFault e) = true := by
      refine List.all_eq_true.mpr fun e he => ?_
      have hread := honly e he
      cases e <;> first | rfl | exact hread.elim
    rw [List.all_append, hall]
    simp [isAckFault]
  · rw [hresumed.armed]
    change (if obeyed = true then v.armed else v.armed) = _
    rw [ite_self]
    exact hreads.armed fun _ _ h => h.elim
  · exact hresumed.breakpoints.trans hreads.breakpoints

/-- Draining and continuing succeed exactly when the continue is acknowledged. -/
theorem wp_resumeAfterModify (hopen : w.sockOpen = true) :
    (resumeAfterModify : Code τ Unit).wp (modifyMachine link)
      (fun r v => Closing r.isOk w v) w := by
  unfold resumeAfterModify
  rw [Program.bind_eq, Program.wp_bind]
  refine Program.wp_mono ?_ (Program.wp_and (contained_open.drainStopReplies (G := never) 50 w hopen)
    (wp_since (uses_drain_within 50) (Since.refl readOnly w)))
  rintro r v ⟨⟨hv, hnever⟩, hsince⟩
  cases r with
  | error e => exact (hnever e rfl).elim
  | ok packets =>
    rw [Program.onValue_ok, Program.bind_eq, Program.wp_bind]
    refine Program.wp_mono ?_ (wp_sendPacket_exchanged .resume hv)
    rintro r u ⟨obeyed, ⟨tag, rfl, h⟩ | ⟨e, rfl, h⟩⟩
    · intro c hc
      have hclosing : Closing true w u := Closing.of_resumed hsince h trivial
      change Closing true w (if _ then {u with state := .connectedRunning} else u)
      split_ifs
      · exact hclosing.same rfl rfl rfl
      · exact hclosing
    · exact Closing.of_resumed hsince h trivial

/-- How an insertion ended: what it left armed is told by its events. -/
structure Judged (failed : Bool) (before v : World τ L) : Prop where
  /-- A failed insertion leaves the points alone exactly when its events say so. -/
  events : ∃ new, v.trace = before.trace ++ new ∧
    ((failed = true → ∀ point, point ∈ v.armed ↔ point ∈ before.armed) ↔
      leftArmed before.armed new = false)
  /-- The registry is the same. -/
  breakpoints : v.breakpoints = before.breakpoints

/-- What changes neither trace nor points leaves the verdict. -/
theorem Judged.same {failed : Bool} (h : Judged failed before v) (htrace : u.trace = v.trace)
    (harmed : u.armed = v.armed) (hbreakpoints : u.breakpoints = v.breakpoints) :
    Judged failed before u :=
  ⟨by rw [htrace, harmed]; exact h.events, hbreakpoints.trans h.breakpoints⟩

/-- A call that sent no breakpoint packet. -/
theorem Judged.of_since (failed : Bool) (h : Since noModify before v) : Judged failed before v := by
  obtain ⟨new, hnew, hevents⟩ := h.trace
  refine ⟨⟨new, hnew, ?_⟩, h.breakpoints⟩
  rw [leftArmed_of_noModify hevents, h.armed fun _ _ hevent => hevent]
  simp

/-- A call whose insertion reached the stub. -/
theorem Judged.of_inserted {kind : BpKind} {addr size : ℤ} {inserted closed : Bool}
    (hpre : Since noModify before w)
    (hinsert : Inserted (.packet (.setBreak true kind addr size)) inserted w v)
    (hclose : Closing closed v u) : Judged (!(inserted && closed)) before u := by
  obtain ⟨new, hnew, hevents⟩ := hpre.trace
  obtain ⟨obeyed, after, hafter, harmed, hmodify, hconfirmed⟩ := hinsert.events
  obtain ⟨rest, hrest, hquiet, hall⟩ := hclose.events
  have hsame : w.armed = before.armed := hpre.armed fun _ _ hevent => hevent
  refine ⟨⟨new ++ .sent (.packet (.setBreak true kind addr size)) obeyed :: (after ++ rest),
    by rw [hrest, hafter, hnew]; simp, ?_⟩, ?_⟩
  · have hleft : leftArmed before.armed (after ++ rest) = false :=
      leftArmed_of_noModify (fun e he => (List.mem_append.mp he).elim (hmodify e) (hquiet e)) _
    rw [leftArmed_append hevents, hclose.armed, harmed, hsame]
    cases obeyed with
    | false => simp [leftArmed, hleft]
    | true =>
      rw [leftArmed, hleft, hconfirmed, hall, Bool.or_false, if_pos rfl]
      cases hnew : armsNew (.packet (.setBreak true kind addr size)) before.armed with
      | false => simp [armedAfter_of_not_armsNew hnew]
      | true =>
        have hdiffer := not_same_points_of_armsNew hnew
        cases inserted && closed <;> simp [hdiffer]
  · rw [hclose.breakpoints, hinsert.breakpoints, hpre.breakpoints]

/-- A program that may insert one point, at most. -/
def Inserts {α : Type} (link : Link τ N L) (body : Code τ α) : Prop :=
  ∃ kind addr size, ∀ w, body.wp (modifyMachine link) (fun r v =>
    ((∃ e, r = .error e) ∧ Since noModify w v) ∨
      Inserted (.packet (.setBreak true kind addr size)) r.isOk w v) w

/-- Inserting a breakpoint sends one insertion. -/
theorem inserts_addSwBreakpoint (addr : ℤ) :
    Inserts link (addSwBreakpoint addr : Code τ (Packet τ)) :=
  ⟨.swBp, addr, 4, fun _ => wp_insert _ _ _⟩

/-- So does inserting a watchpoint, once its kind is known. -/
theorem inserts_insertWatchpoint (addr size : ℤ) (on : String) :
    Inserts link (insertWatchpoint addr size on : Code τ BpKind) := by
  unfold insertWatchpoint
  cases watchKind on with
  | error e => exact ⟨.writeWp, addr, size, fun w => Or.inl ⟨⟨e, rfl⟩, Since.refl noModify w⟩⟩
  | ok kind =>
    refine ⟨kind, addr, size, fun w => ?_⟩
    change ((setBreak true kind addr size).bind fun _ => Program.done kind).wp _ _ w
    rw [Program.wp_bind]
    refine Program.wp_mono ?_ (wp_insert kind addr size)
    intro r v hv
    cases r with
    | error e => exact hv.imp (fun h => ⟨⟨e, rfl⟩, h.2⟩) id
    | ok packet =>
      rcases hv with ⟨⟨e, he⟩, -⟩ | hinserted
      · simp at he
      · exact Or.inr hinserted

/-- What the footprints of the pausing code are to an insertion. -/
theorem noModify_within {sends : Sent → Prop}
    (hsends : ∀ message, sends message → isModify message = false) {o : Op τ}
    (ho : restrained true true true sends o) : within noModify o := by
  refine within_of_restrained (fun m hm _ => hsends m hm) (fun event hne => ?_) ho
  cases event with
  | sent message obeyed => exact (hne message obeyed rfl).elim
  | _ => trivial

/-- Code that sends no change leaves no event of one. -/
theorem uses_noModify {α : Type} {p : Code τ α}
    (hp : p.Uses (restrained true true true fun message => isModify message = false)) :
    p.Uses (within noModify) :=
  hp.mono fun _ ho => noModify_within (fun _ h => h) ho

/-- An insertion between pausing and resuming. -/
theorem wp_safeToModify_insert {α : Type} {body : Code τ α} (hbody : Inserts link body)
    (hpre : Since noModify before w) :
    (safeToModify body).wp (modifyMachine link) (fun r v => Judged (!r.isOk) before v) w := by
  obtain ⟨kind, addr, size, hbody⟩ := hbody
  refine wp_locked rfl ?_
  intro c _
  change Program.wp _ (if w.state = .connectedRunning then _ else _) _ w
  split_ifs with hrunning
  · rw [Program.bind_eq, Program.wp_bind]
    refine Program.wp_mono ?_ (wp_since (uses_noModify (uses_pauseForModify rfl rfl)) hpre)
    intro r v hv
    cases r with
    | error e => exact Judged.of_since _ hv
    | ok u =>
      rw [Program.onValue_ok, Program.wp_ensuring]
      refine Program.wp_mono ?_ (hbody v)
      rintro r v' (⟨⟨e, rfl⟩, hsince⟩ | hinserted)
      · refine Program.wp_mono ?_
          (wp_since (uses_noModify (uses_resumeAfterModify rfl)) (hv.trans hsince))
        intro s v'' hv''
        cases s <;> exact Judged.of_since _ hv''
      · refine Program.wp_mono ?_ (wp_resumeAfterModify hinserted.sock)
        intro s v'' hclose
        have hjudged := Judged.of_inserted hv hinserted hclose
        cases s with
        | ok u =>
          change Judged (!(r.isOk && true)) before v'' at hjudged
          rwa [Bool.and_true] at hjudged
        | error e =>
          change Judged (!(r.isOk && false)) before v'' at hjudged
          rwa [Bool.and_false] at hjudged
  · refine Program.wp_mono ?_ (hbody w)
    rintro r v (⟨⟨e, rfl⟩, hsince⟩ | hinserted)
    · exact Judged.of_since _ (hpre.trans hsince)
    · have hclose : Closing true v v := ⟨⟨[], by simp, by simp, rfl⟩, rfl, rfl⟩
      simpa using Judged.of_inserted hpre hinserted hclose

/-- Registering a new breakpoint raises nothing and leaves no event. -/
theorem wp_add {α : Type} {body : Code τ α} (hbody : Inserts link body) {addr : ℤ}
    (kind : α → BpKind) {size : ℤ} (w : World τ L) :
    ((ensureConnected.bind fun _ => (safeToModify body).bind fun a =>
      registerNew addr (kind a) size).bind fun _ => Program.done ()).wp (modifyMachine link)
        (fun r v => FailsCleanly w v r ↔ leftArmed w.armed (eventsBetween w v) = false) w := by
  have hraised : ∀ (e : PyError) (v : World τ L), Judged true w v →
      (FailsCleanly w v (.error e) ↔ leftArmed w.armed (eventsBetween w v) = false) := by
    intro e v h
    obtain ⟨new, hnew, hiff⟩ := h.events
    rw [eventsBetween, hnew, List.drop_left, ← hiff]
    constructor
    · exact fun hclean _ => (hclean e rfl).2
    · exact fun hsame _ _ => ⟨h.breakpoints, hsame rfl⟩
  rw [Program.wp_bind, Program.wp_bind]
  refine Program.wp_mono ?_ (wp_since (uses_noModify (uses_ensureConnected rfl rfl))
    (Since.refl noModify w))
  intro r v hv
  cases r with
  | error e => exact hraised e v (Judged.of_since true hv)
  | ok u =>
    rw [Program.onValue_ok, Program.wp_bind]
    refine Program.wp_mono ?_ (wp_safeToModify_insert hbody hv)
    intro r v' hjudged
    cases r with
    | error e => exact hraised e v' hjudged
    | ok a =>
      intro c _ c' _
      obtain ⟨new, hnew, hiff⟩ := hjudged.events
      change FailsCleanly w _ (.ok ()) ↔ leftArmed w.armed (v'.trace.drop w.trace.length) = false
      rw [hnew, List.drop_left, ← hiff]
      exact ⟨fun _ h => by simp [Except.isOk, Except.toBool] at h, fun _ _ he => by simp at he⟩

end Adding

section Removing

variable {τ N L : Type} {link : Link τ N L} {w v : World τ L}

/-- Anything but a heartbeat. -/
def noProbe : Obs τ → Prop
  | .sent message _ => isProbe message = false
  | _ => True

/-- Events without a probe may be skipped. -/
theorem probeFails_append {events : List (Obs τ)} (h : ∀ event ∈ events, noProbe event)
    (rest : List (Obs τ)) : probeFails (events ++ rest) = probeFails rest := by
  induction events with
  | nil => rfl
  | cons event events ih =>
    have hrest := ih fun e he => h e (List.mem_cons_of_mem _ he)
    cases event with
    | sent message obeyed =>
      have hprobe : isProbe message = false := h _ List.mem_cons_self
      cases message with
      | interrupt => exact hrest
      | packet command => cases command <;> first | exact hrest | simp [isProbe] at hprobe
    | _ => exact hrest

/-- Without a probe none fails. -/
theorem probeFails_of_noProbe {events : List (Obs τ)} (h : ∀ event ∈ events, noProbe event) :
    probeFails events = false := by
  simpa [probeFails] using probeFails_append h []

/-- Code that sends no probe leaves no event of one. -/
theorem uses_noProbe {α : Type} {p : Code τ α}
    (hp : p.Uses (restrained true true true fun message => isProbe message = false)) : p.Uses (within noProbe) := by
  refine hp.mono fun o ho => within_of_restrained (fun m hm _ => hm) (fun event hne => ?_) ho
  cases event with
  | sent message obeyed => exact (hne message obeyed rfl).elim
  | _ => trivial

/-- The probe over an open connection answers, and its events tell what. -/
theorem wp_probeResponsive (timeout : ℕ) (hopen : w.sockOpen = true) :
    (probeResponsive timeout : Code τ Bool).wp (modifyMachine link) (fun r v => v.sockOpen = true ∧
      ∃ alive new, r = .ok alive ∧ v.trace = w.trace ++ new ∧
        ∀ rest, probeFails (new ++ rest) = !alive) w := by
  unfold probeResponsive
  rw [Program.bind_eq, Program.wp_bind, wp_access]
  intro c _
  change Program.wp _ (if w.sockOpen = true then _ else _) _ w
  rw [if_pos hopen]
  intro c' _ c'' _
  change Program.wp _ (Program.ensuring (Program.handle _ _) _) _ {w with sockTimeout := timeout}
  rw [Program.wp_ensuring, Program.wp_handle]
  simp only [Program.bind_eq]
  rw [← Program.bind_assoc, Program.wp_bind]
  have hopen' : ({w with sockTimeout := timeout} : World τ L).sockOpen = true := hopen
  refine Program.wp_mono ?_ (Program.wp_and (wp_exchange .currentThread (some timeout) hopen')
    (Program.raisesOnly_bind (contained_open.sendPacket trivial)
      (fun _ => raisesOnly_readPacketFromWire (some timeout)) _ hopen'))
  rintro r v ⟨⟨obeyed, ⟨tag, packet, rfl, h⟩ | ⟨e, rfl, h⟩⟩, hv, honly⟩
  · intro c _
    exact ⟨hv, _, _, rfl, h.trace, fun rest => by simp [probeFails]⟩
  · obtain ⟨message, rfl⟩ := eq_of_isTimeout (honly e rfl)
    have hfailure : isProbeFailure (.timeout message) = true := rfl
    change Program.wp _ (if isProbeFailure (.timeout message) = true then _ else _) _ v
    rw [if_pos hfailure]
    intro c _
    rcases h with ⟨e', h⟩ | ⟨tag, e', h⟩
    · exact ⟨hv, false, _, rfl, h.trace, fun rest => rfl⟩
    · exact ⟨hv, false, _, rfl, h.trace, fun rest => rfl⟩

/-- A deletion is refused or times out. -/
theorem raisesOnly_deletePoint (spec : BreakpointSpec) :
    Program.RaisesOnly (modifyMachine link) Open recoverable
      (deletePoint spec : Code τ (Packet τ)) := by
  unfold deletePoint
  cases spec.kind <;> exact raisesOnly_setBreak _ _ _ _

/-- The part of a removal from a running target that follows the probe. -/
def removal (spec : BreakpointSpec) : Code τ (Packet τ) :=
  (quiesceForModify.bind fun _ => (drainStopReplies 100).bind fun _ => access .markPaused).bind
    fun _ => (deletePoint spec).ensuring resumeAfterModify

/-- A removal changes no breakpoint but in the stub. -/
theorem uses_removal (spec : BreakpointSpec) :
    (removal spec : Code τ (Packet τ)).Uses (within fun _ => True) := by
  refine uses_any ?_
  · refine Program.uses_bind (Program.uses_bind (uses_quiesceForModify trivial trivial)
      fun _ => Program.uses_bind (uses_drainStopReplies trivial trivial trivial) fun _ =>
        uses_access trivial) fun _ => ?_
    exact Program.uses_ensuring (uses_deletePoint spec fun _ _ _ => trivial)
      (uses_resumeAfterModify trivial)

/-- After the probe, a removal from a running target raises nothing it does not swallow. -/
theorem raisesOnly_removal (spec : BreakpointSpec) :
    Program.RaisesOnly (modifyMachine link) Open recoverable (removal spec : Code τ (Packet τ)) := by
  refine Program.raisesOnly_bind ?_ fun _ => ?_
  · refine Program.raisesOnly_bind raisesOnly_quiesceForModify fun _ => ?_
    exact Program.raisesOnly_bind (contained_open.drainStopReplies 100) fun _ =>
      raisesOnly_access trivial
  · exact Program.raisesOnly_ensuring (raisesOnly_deletePoint spec)
      (raisesOnly_resumeAfterModify.mono fun _ => Or.inr)

/-- Over an open connection, a deletion raises what `remove` does not swallow
exactly when the probe fails. -/
theorem wp_safeToModify_delete (spec : BreakpointSpec) (hopen : w.sockOpen = true) :
    (safeToModify (deletePoint spec)).wp (modifyMachine link) (fun r v =>
      ∃ new, v.trace = w.trace ++ new ∧
        ((∃ e, r = .error e ∧ ¬recoverable e) ↔ probeFails new = true)) w := by
  have hrecovers : ∀ {r : Except PyError (Packet τ)}, (∀ e, r = .error e → recoverable e) →
      ¬∃ e, r = .error e ∧ ¬recoverable e := fun h ⟨e, he, hnot⟩ => hnot (h e he)
  refine wp_locked rfl ?_
  intro c _
  change Program.wp _ (if w.state = .connectedRunning then _ else _) _ w
  split_ifs with hrunning
  · simp only [pauseForModify, Program.bind_eq]
    rw [Program.bind_assoc, Program.wp_bind]
    refine Program.wp_mono ?_ (wp_probeResponsive 500 hopen)
    rintro r v ⟨hv, alive, new, rfl, hnew, hfails⟩
    rw [Program.onValue_ok]
    cases alive with
    | false =>
      intro c' _
      refine ⟨new, hnew, iff_of_true ⟨_, rfl, ?_⟩ (by simpa using hfails [])⟩
      rintro (h | h) <;> simp [wedgedBeforeModify, isStubError, isTimeout] at h
    | true =>
      have hremoval : (removal spec).wp (modifyMachine link) (fun r v' =>
          (Open v' ∧ ∀ e, r = .error e → recoverable e) ∧ Since (fun _ => True) v v') v :=
        Program.wp_and (raisesOnly_removal spec v hv)
          (wp_since (uses_removal spec) (Since.refl _ v))
      refine Program.wp_mono ?_ hremoval
      rintro r v' ⟨⟨-, honly⟩, hsince⟩
      obtain ⟨rest, hrest, -⟩ := hsince.trace
      refine ⟨new ++ rest, by rw [hrest, hnew, List.append_assoc], iff_of_false (hrecovers honly) ?_⟩
      rw [hfails rest]
      simp
  · refine Program.wp_mono ?_ (Program.wp_and (raisesOnly_deletePoint spec w hopen)
      (wp_since (uses_noProbe (uses_deletePoint spec fun _ _ _ => rfl)) (Since.refl noProbe w)))
    rintro r v ⟨⟨-, honly⟩, hsince⟩
    obtain ⟨new, hnew, hevents⟩ := hsince.trace
    refine ⟨new, hnew, iff_of_false (hrecovers honly) ?_⟩
    rw [probeFails_of_noProbe hevents]
    simp

/-- Without a connection, a deletion raises what `remove` does not swallow. -/
theorem wp_safeToModify_closed (spec : BreakpointSpec) (hclosed : w.sockOpen = false) :
    (safeToModify (deletePoint spec)).wp (modifyMachine link)
      (fun r _ => ∃ e, r = .error e ∧ ¬recoverable e) w := by
  have hset : ∀ insert kind addr size, (setBreak insert kind addr size).wp (modifyMachine link)
      (fun r _ => ∃ e, r = .error e ∧ ¬recoverable e) w := by
    intro insert kind addr size
    simp only [setBreak, cmd, sendPacket, Program.bind_eq, Program.wp_bind]
    rw [wp_sendall]
    intro c hc
    rw [(send_closed hclosed).1]
    exact ⟨_, rfl, by simp [recoverable, isStubError, isTimeout]⟩
  refine wp_locked rfl ?_
  intro c _
  change Program.wp _ (if w.state = .connectedRunning then _ else _) _ w
  split_ifs with hrunning
  · simp only [pauseForModify, probeResponsive, Program.bind_eq]
    intro c' _
    change Program.wp _ (Program.bind (Program.bind (if w.sockOpen = true then _ else _) _) _) _ w
    rw [if_neg (by simp [hclosed])]
    intro c'' _
    exact ⟨_, rfl, by simp [recoverable, wedgedBeforeModify, isStubError, isTimeout]⟩
  · unfold deletePoint
    cases spec.kind <;> exact hset _ _ _ _

/-- A connected session is left alone. -/
theorem wp_ensureConnected_connected {Q : Except PyError Unit → World τ L → Prop}
    (hconnected : w.state.isConnected = true) (hQ : Q (.ok ()) w) :
    (ensureConnected : Code τ Unit).wp (modifyMachine link) Q w := by
  unfold ensureConnected
  intro c _
  change Program.wp _ (if w.state.isConnected = true then _ else _) _ w
  rw [if_pos hconnected]
  exact hQ

/-- A successful `connect` leaves the connection open. -/
theorem wp_connect_open (w : World τ L) : (connect : Code τ Unit).wp (modifyMachine link)
    (fun r v => r = .ok () → v.sockOpen = true) w := by
  rw [wp_connect]
  intro c _
  change (World.connect link c (w.absorb link c.acts)).1 = .ok () →
    (World.connect link c (w.absorb link c.acts)).2.sockOpen = true
  unfold World.connect
  split_ifs with hopen hrefused
  · exact fun _ => hopen
  · exact fun h => by simp at h
  · exact fun _ => rfl

/-- What restrained code does keeps an open connection open. -/
theorem wp_stays_open {α : Type} {p : Code τ α} (hp : p.Uses (restrained true true true fun _ => True))
    (hopen : w.sockOpen = true) : p.wp (modifyMachine link) (fun _ v => v.sockOpen = true) w := by
  exact Program.wp_mono (fun _ _ h => h.sock hopen) (wp_since (uses_any hp) (Since.refl _ w))

/-- Connecting leaves the connection open, or raises. -/
theorem wp_ensureConnected_open (hconnected : w.state.isConnected = false) :
    (ensureConnected : Code τ Unit).wp (modifyMachine link)
      (fun r v => r = .ok () → v.sockOpen = true) w := by
  have hhandshake : (handshake : Code τ Unit).wp (modifyMachine link)
      (fun r v => r = .ok () → v.sockOpen = true) w := by
    unfold handshake
    rw [Program.bind_eq, Program.wp_bind]
    refine Program.wp_mono ?_ (wp_connect_open w)
    intro r v hv
    cases r with
    | error e => exact fun h => by simp at h
    | ok u =>
      rw [Program.onValue_ok]
      refine Program.wp_mono (R := fun r (v : World τ L) => r = .ok () → v.sockOpen = true)
        (fun _ _ h _ => h) (wp_stays_open ?_ (hv rfl))
      exact Program.uses_bind (uses_cmd trivial) fun _ => uses_access trivial
  unfold ensureConnected
  intro c _
  change Program.wp _ (if w.state.isConnected = true then _ else _) _ w
  rw [if_neg (by simp [hconnected]), Program.bind_eq, Program.wp_bind, Program.wp_handle]
  refine Program.wp_mono ?_ hhandshake
  intro r v hv
  cases r with
  | ok u =>
    dsimp only
    rw [Program.onValue_ok]
    refine Program.wp_mono (R := fun r (v : World τ L) => r = .ok () → v.sockOpen = true)
      (fun _ _ h _ => h) (wp_stays_open ?_ (hv rfl))
    exact Program.uses_bind (uses_access trivial) fun _ => uses_resumeOnConnect trivial
  | error e =>
    unfold reportUnreachable
    dsimp only
    split_ifs
    · exact fun _ _ h => by simp at h
    · exact fun h => by simp at h

/-- An id whose removal changes nothing is not registered. -/
theorem isNone_lookup_of_unregister {bpId : ℕ} {breakpoints : List BreakpointSpec}
    (h : unregister bpId breakpoints = breakpoints) : (lookup bpId breakpoints).isNone = true := by
  unfold unregister at h
  unfold lookup
  rw [List.filter_eq_self] at h
  rw [Option.isNone_iff_eq_none, List.find?_eq_none]
  intro spec hspec
  simpa using h spec hspec

/-- The deletion of `remove` over an open connection raises exactly when the probe fails. -/
theorem wp_deleteFromStub_open (spec : BreakpointSpec) (hopen : w.sockOpen = true) :
    (deleteFromStub spec).wp (modifyMachine link) (fun r v =>
      ∃ new, v.trace = w.trace ++ new ∧ ((∃ e, r = .error e) ↔ probeFails new = true)) w := by
  unfold deleteFromStub
  rw [Program.wp_handle, Program.bind_eq, Program.wp_bind]
  refine Program.wp_mono ?_ (wp_safeToModify_delete spec hopen)
  rintro r v ⟨new, hnew, hfatal⟩
  cases r with
  | ok packet => exact ⟨new, hnew, by rw [← hfatal]; simp⟩
  | error e =>
    have hiff : (∃ e' : PyError, (.error e : Except PyError (Packet τ)) = .error e' ∧
        ¬recoverable e') ↔ ¬recoverable e := by
      simp
    rw [hiff] at hfatal
    change Program.wp _ (if isStubError e || isTimeout e then _ else _) _ v
    split_ifs with hrecoverable
    · refine ⟨new, hnew, iff_of_false (by simp) fun hfails => hfatal.mpr hfails ?_⟩
      simpa [recoverable] using hrecoverable
    · refine ⟨new, hnew, iff_of_true ⟨e, rfl⟩ (hfatal.mp ?_)⟩
      simpa [recoverable] using hrecoverable

/-- The deletion of `remove` without a connection raises. -/
theorem wp_deleteFromStub_closed (spec : BreakpointSpec) (hclosed : w.sockOpen = false) :
    (deleteFromStub spec).wp (modifyMachine link) (fun r _ => ∃ e, r = .error e) w := by
  unfold deleteFromStub
  rw [Program.wp_handle, Program.bind_eq, Program.wp_bind]
  refine Program.wp_mono ?_ (wp_safeToModify_closed spec hclosed)
  rintro r v ⟨e, rfl, hfatal⟩
  change Program.wp _ (if isStubError e || isTimeout e then _ else _) _ v
  rw [if_neg (by simpa [recoverable] using hfatal)]
  exact ⟨e, rfl⟩

-- From here on the deletion is used through its specifications; `wp` would otherwise unfold it.
attribute [local irreducible] deleteFromStub

/-- Deleting from the stub leaves the registry alone. -/
theorem wp_deleteFromStub_registry (spec : BreakpointSpec) :
    (deleteFromStub spec).wp (modifyMachine link) (fun _ v => v.breakpoints = w.breakpoints) w := by
  have hall : (deleteFromStub spec : Code τ Unit).Uses (restrained true true true fun _ => True) :=
    uses_deleteFromStub spec trivial trivial trivial fun _ _ _ => trivial
  exact Program.wp_mono (fun _ _ h => h.breakpoints) (wp_since (uses_any hall) (Since.refl _ w))

/-- An error that has changed the registry is no clean failure. -/
theorem not_failsCleanly_of_changed {w₀ v : World τ L} (h : v.breakpoints ≠ w₀.breakpoints)
    (e : PyError) : ¬FailsCleanly w₀ v (.error e) :=
  fun hclean => h (hclean e rfl).1

/-- A call that returns has not failed. -/
theorem failsCleanly_ok (w₀ v : World τ L) : FailsCleanly w₀ v (.ok ()) :=
  fun e he => by simp at he

/-- The deletion of `remove`, judged from the start of the call: the registry entry is gone, so
only a deletion that returns is clean. -/
theorem wp_deletion_judged (spec : BreakpointSpec) {w₀ : World τ L}
    (hstart : ∃ start, w.trace = w₀.trace ++ start ∧ ∀ event ∈ start, noProbe event)
    (hchanged : w.breakpoints ≠ w₀.breakpoints) :
    (deleteFromStub spec).wp (modifyMachine link) (fun r v => FailsCleanly w₀ v r ↔
      (w.sockOpen && !probeFails (eventsBetween w₀ v)) = true) w := by
  have hregistry : (deleteFromStub spec).wp (modifyMachine link)
      (fun _ v => v.breakpoints = w.breakpoints) w := wp_deleteFromStub_registry spec
  cases hsock : w.sockOpen with
  | false =>
    have hraises : (deleteFromStub spec).wp (modifyMachine link)
        (fun r _ => ∃ e, r = .error e) w := wp_deleteFromStub_closed spec hsock
    refine Program.wp_mono ?_ (Program.wp_and hregistry hraises)
    rintro r v ⟨hkept, e, rfl⟩
    exact iff_of_false (not_failsCleanly_of_changed (hkept ▸ hchanged) e) (by simp)
  | true =>
    have hanswers : (deleteFromStub spec).wp (modifyMachine link) (fun r v =>
        ∃ new, v.trace = w.trace ++ new ∧ ((∃ e, r = .error e) ↔ probeFails new = true)) w :=
      wp_deleteFromStub_open spec hsock
    refine Program.wp_mono ?_ (Program.wp_and hregistry hanswers)
    rintro r v ⟨hkept, new, hnew, hraises⟩
    obtain ⟨start, hstart, hevents⟩ := hstart
    have htrace : eventsBetween w₀ v = start ++ new := by
      rw [eventsBetween, hnew, hstart, List.append_assoc, List.drop_left]
    rw [htrace, probeFails_append hevents]
    cases r with
    | ok u =>
      have hanswered : ¬probeFails new = true := fun h => by simpa using hraises.mpr h
      exact iff_of_true (failsCleanly_ok w₀ v) (by simpa using hanswered)
    | error e =>
      have hfails : probeFails new = true := hraises.mp ⟨e, rfl⟩
      exact iff_of_false (not_failsCleanly_of_changed (hkept ▸ hchanged) e) (by simp [hfails])

/-- The part of `remove` that follows the connection, judged from the start of the call. -/
theorem wp_remove_connected (bpId : ℕ) {w₀ : World τ L} (hsince : Since noProbe w₀ w)
    (hopen : w.sockOpen = (!w₀.state.isConnected || w₀.sockOpen)) :
    (do match ← access (.unregisterBp bpId) with
        | none => pure false
        | some spec => do deleteFromStub spec; pure true : Code τ Bool).wp (modifyMachine link)
      (fun r v => FailsCleanly w₀ v (r.map fun _ => ()) ↔
        (Change.remove bpId).spared w₀ (eventsBetween w₀ v) = true) w := by
  rw [Program.bind_eq, Program.wp_bind, wp_access]
  intro c _
  have hanswer : (modifyMachine link).step (.unregisterBp bpId) c w =
      (lookup bpId w.breakpoints, {w with breakpoints := unregister bpId w.breakpoints}) := rfl
  rw [Program.onValue_ok, hanswer]
  dsimp only
  cases hfound : lookup bpId w.breakpoints with
  | none =>
    refine iff_of_true (failsCleanly_ok w₀ _) ?_
    rw [hsince.breakpoints] at hfound
    simp [Change.spared, hfound]
  | some spec =>
    have hchanged : unregister bpId w.breakpoints ≠ w₀.breakpoints := by
      intro hsame
      have hnone := isNone_lookup_of_unregister (hsame.trans hsince.breakpoints.symm)
      simp [hfound] at hnone
    rw [hsince.breakpoints] at hfound
    dsimp only
    rw [Program.bind_eq, Program.wp_bind]
    refine Program.wp_mono ?_ (wp_deletion_judged spec hsince.trace hchanged)
    intro r v hjudged
    have hspared : (Change.remove bpId).spared w₀ (eventsBetween w₀ v) =
        (w.sockOpen && !probeFails (eventsBetween w₀ v)) := by
      simp only [Change.spared, hfound, hopen, Option.isNone_some, Bool.false_or]
    rw [← hspared] at hjudged
    cases r with
    | ok u => exact hjudged
    | error e => exact hjudged

/-- A removal fails cleanly exactly when it is spared. -/
theorem wp_remove_iff (bpId : ℕ) (w : World τ L) :
    ((Change.remove bpId).code : Code τ Unit).wp (modifyMachine link)
      (fun r v => FailsCleanly w v r ↔
        (Change.remove bpId).spared w (eventsBetween w v) = true) w := by
  simp only [Change.code, remove, Program.bind_eq, Program.wp_bind]
  cases hconnected : w.state.isConnected with
  | true =>
    refine wp_ensureConnected_connected hconnected ?_
    rw [Program.onValue_ok]
    refine Program.wp_mono ?_ (wp_remove_connected bpId (Since.refl noProbe w) (by simp [hconnected]))
    intro r v hv
    cases r <;> exact hv
  | false =>
    have hsafe : (ensureConnected : Code τ Unit).Uses
        (within fun event => noProbe event ∧ noModify event) := by
      have hsends : (ensureConnected : Code τ Unit).Uses
          (restrained true true true fun m => isProbe m = false ∧ isModify m = false) :=
        uses_ensureConnected ⟨rfl, rfl⟩ ⟨rfl, rfl⟩
      refine hsends.mono fun _ ho => within_of_restrained (fun _ h _ => h) (fun event hne => ?_) ho
      cases event with
      | sent message obeyed => exact (hne message obeyed rfl).elim
      | _ => exact ⟨trivial, trivial⟩
    refine Program.wp_mono ?_ (Program.wp_and (wp_ensureConnected_open hconnected)
      (wp_since hsafe (Since.refl _ w)))
    rintro r v ⟨hopen, hsince⟩
    have hprobe : Since noProbe w v := hsince.mono fun _ h => h.1
    cases r with
    | error e =>
      obtain ⟨new, hnew, hevents⟩ := hprobe.trace
      have harmed : v.armed = w.armed := hsince.armed fun _ _ h => h.2
      refine iff_of_true (fun _ _ => ⟨hsince.breakpoints, fun point => by rw [harmed]⟩) ?_
      rw [eventsBetween, hnew, List.drop_left, Change.spared, hconnected,
        probeFails_of_noProbe hevents]
      simp
    | ok u =>
      rw [Program.onValue_ok]
      refine Program.wp_mono ?_ (wp_remove_connected bpId hprobe (by simp [hconnected, hopen rfl]))
      intro r v hv
      cases r <;> exact hv

end Removing

section Main

variable {τ N L : Type}

/-- Whatever the stub answers and wherever the client times out, a call that
raises leaves registry and armed points as they were exactly when its condition
holds. -/
theorem fails_cleanly_iff_spared [Inhabited N] (link : Link τ N L) (change : Change)
    (script : List (Choice τ N)) (w : World τ L)
    (hstub : (change.code : Code τ Unit).Follows (modifyMachine link) script w) :
    FailsCleanly w (change.code.run (modifyMachine link) script w).2.1
        (change.code.run (modifyMachine link) script w).1 ↔
      change.spared w (eventsBetween w (change.code.run (modifyMachine link) script w).2.1) =
        true := by
  refine Program.run_of_wp (Q := fun r v => FailsCleanly w v r ↔
    change.spared w (eventsBetween w v) = true) ?_ hstub
  cases change with
  | addBreakpoint addr =>
    refine Program.wp_mono ?_ (wp_add (inserts_addSwBreakpoint addr) (fun _ => .swBp) w)
    intro r v hv
    simpa [Change.spared] using hv
  | addWatchpoint addr size on =>
    refine Program.wp_mono ?_ (wp_add (inserts_insertWatchpoint addr size on) id w)
    intro r v hv
    simpa [Change.spared] using hv
  | remove bpId => exact wp_remove_iff bpId w

/-- The stub carries out the insertion and acknowledges it, but its reply does not arrive. -/
def unansweredInsertion : List (Choice Origin TokenNet) :=
  [{net := default, response := [.ack (.reply 0)]}, {net := default}, {net := default}]

/-- The end of `add_breakpoint` with an unanswered insertion. -/
def unansweredEnd : Except PyError Unit × World Origin Tokens × List (Choice Origin TokenNet) :=
  (Change.addBreakpoint 0x80003100).code.run (modifyMachine (tokenLink Origin)) unansweredInsertion
    pausedWorld

/-- The insertion is obeyed and not answered. -/
theorem fails_cleanly_iff_spared_unanswered :
    FailsCleanly pausedWorld unansweredEnd.2.1 unansweredEnd.1 ↔
      (Change.addBreakpoint 0x80003100).spared pausedWorld
        (eventsBetween pausedWorld unansweredEnd.2.1) = true :=
  fails_cleanly_iff_spared (tokenLink Origin) (.addBreakpoint 0x80003100) unansweredInsertion
    pausedWorld (by decide +kernel)

/-- The breakpoint stays armed in the stub although the call raised. -/
theorem unanswered_insertion_stays_armed :
    ∃ (change : Change) (script : List (Choice Origin TokenNet)) (w : TokenWorld),
      (change.code : Code Origin Unit).Follows (modifyMachine (tokenLink Origin)) script w ∧
      ¬FailsCleanly w (change.code.run (modifyMachine (tokenLink Origin)) script w).2.1
        (change.code.run (modifyMachine (tokenLink Origin)) script w).1 := by
  refine ⟨.addBreakpoint 0x80003100, unansweredInsertion, pausedWorld, by decide +kernel, ?_⟩
  intro hclean
  have hraised : unansweredEnd.1 = .error (.timeout "timed out") := by decide +kernel
  have harmed := (hclean _ hraised).2 ⟨.swBp, 0x80003100, 4⟩
  have hleft : (⟨.swBp, 0x80003100, 4⟩ : Point) ∈ unansweredEnd.2.1.armed := by decide +kernel
  exact absurd (harmed.mp hleft) (by decide)

end Main

end DolphinRe.ModifyAtomicity
