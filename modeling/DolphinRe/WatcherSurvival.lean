import DolphinRe.StubBehaviour
import DolphinRe.Footprints

/-!
# The watcher on a hit

A hit of a capturing breakpoint makes the watcher read registers, record one
entry and resume the target. Single-register queries swallow whatever the stub
replies; the block read raises on a bad reply, and nothing on the way catches
that. So the watcher survives a hit exactly when the block is not captured or
its reply is well formed.
-/

namespace DolphinRe.WatcherSurvival

open PythonText GdbPackets GdbWire GdbTokens StopReplies EffectProgram SessionMachine GdbClient
  SessionTools Footprints ToolStructure StubBehaviour

section Answers

variable {τ N L : Type}

/-- The command that was sent last. -/
def lastCommand (trace : List (Obs τ)) : Option Command :=
  trace.reverse.findSome? fun
    | .sent (.packet command) _ => some command
    | _ => none

/-- An acknowledgement arrives, or the connection is lost. -/
def acknowledged : Except PyError Unit → Bool
  | .ok _ => true
  | .error e => isConnectionLost e

/-- A packet arrives, or the connection is lost: the stop when one is waited
for, and the reply to the last command otherwise. -/
def replied (raw : Str) (reply : Command → Str) (timeout : Option ℕ) (last : Option Command) :
    Except PyError (Packet τ) → Bool
  | .ok packet =>
    match timeout with
    | some _ => packet.text = raw
    | none => last.all fun command => packet.text = reply command
  | .error e => isConnectionLost e

/-- What the stub and the network do while a stop is handled: the wait for a
stop yields the text `raw`, every command is acknowledged and answered by
`reply`, or the connection is lost. -/
def answers (link : Link τ N L) (raw : Str) (reply : Command → Str) :
    Op τ → Choice τ N → World τ L → Bool
  | .consumeAck, c, w => acknowledged (World.step link .consumeAck c w).1
  | .readPacketFromWire timeout, c, w =>
    replied raw reply timeout (lastCommand w.trace) (World.step link (.readPacketFromWire timeout) c w).1
  | _, _, _ => true

/-- The machine of one turn of the watcher. -/
def answering (link : Link τ N L) (raw : Str) (reply : Command → Str) :
    Machine (signature τ) (Choice τ N) (World τ L) :=
  (machine link).restrict fun o c w => answers link raw reply o c w = true

/-- A log entry, or the packet that resumes the target. -/
def isMark : Obs τ → Bool
  | .logged _ _ => true
  | .sent (.packet .resume) _ => true
  | _ => false

/-- The entries and resumes among what happened. -/
def marks (trace : List (Obs τ)) : List (Obs τ) := trace.filter isMark

/-- Since `before` nothing was recorded and the target was not resumed. -/
structure Unmarked (before w : World τ L) : Prop where
  /-- The new events are no marks. -/
  trace : ∃ more, w.trace = before.trace ++ more ∧ marks more = []
  /-- The registry is the same. -/
  breakpoints : w.breakpoints = before.breakpoints
  /-- So are the threads. -/
  watchers : w.watchers = before.watchers

theorem Unmarked.refl (w : World τ L) : Unmarked w w := ⟨⟨[], by simp, rfl⟩, rfl, rfl⟩

theorem Unmarked.extend {before w v : World τ L} (h : Unmarked before w) (events : List (Obs τ))
    (htrace : v.trace = w.trace ++ events) (hevents : marks events = [])
    (hbreakpoints : v.breakpoints = w.breakpoints) (hwatchers : v.watchers = w.watchers) :
    Unmarked before v := by
  obtain ⟨more, hmore, hnone⟩ := h.trace
  refine ⟨⟨more ++ events, ?_, ?_⟩, hbreakpoints.trans h.breakpoints, hwatchers.trans h.watchers⟩
  · rw [htrace, hmore, List.append_assoc]
  · rw [marks, List.filter_append, ← marks, ← marks, hnone, hevents, List.append_nil]

theorem Unmarked.trans {before w v : World τ L} (h : Unmarked before w) (h' : Unmarked w v) :
    Unmarked before v := by
  obtain ⟨more, hmore, hnone⟩ := h'.trace
  exact h.extend more hmore hnone h'.breakpoints h'.watchers

/-- The stub's own acts are no marks. -/
theorem Unmarked.absorb {before w : World τ L} (h : Unmarked before w) (link : Link τ N L)
    (acts : List (StubAct τ)) : Unmarked before (w.absorb link acts) :=
  h.extend [] (by simp) rfl (by simp) (by simp)

/-- The code returns what is promised, or the connection is lost. -/
def ReturnsOrLost {α : Type} (good : α → World τ L → Prop) : Except PyError α → World τ L → Prop
  | .ok a, v => good a v
  | .error _, v => v.sockOpen = false

end Answers

section Queries

variable {τ N L : Type} {link : Link τ N L} {raw : Str} {reply : Command → Str}
  {before w : World τ L}

/-- An event that is no mark. -/
theorem marks_single {event : Obs τ} (h : isMark event = false) : marks [event] = [] := by
  rw [marks, List.filter_cons_of_neg (by simp [h]), List.filter_nil]

/-- A send goes through, or it leaves no connection. -/
theorem wp_send (command : Command) (w : World τ L) :
    (sendall (.packet command)).wp (answering link raw reply) (fun r v =>
      (r = .ok () ∧ w.sockOpen = true ∧
        ∃ c, v = (w.absorb link c.acts).delivered link (.packet command) c) ∨
        (∃ e, r = .error e) ∧ Unmarked w v ∧ v.sockOpen = false) w := by
  rw [wp_sendall]
  intro c _
  have hkept := (Unmarked.refl w).absorb link c.acts
  change ((World.send link (.packet command) c (w.absorb link c.acts)).1 = .ok () ∧
      w.sockOpen = true ∧ ∃ c',
      (World.send link (.packet command) c (w.absorb link c.acts)).2 = _) ∨
    (∃ e, (World.send link (.packet command) c (w.absorb link c.acts)).1 = .error e) ∧
      Unmarked w (World.send link (.packet command) c (w.absorb link c.acts)).2 ∧
        (World.send link (.packet command) c (w.absorb link c.acts)).2.sockOpen = false
  unfold World.send
  split_ifs with hopen hfails
  · exact Or.inr ⟨⟨_, rfl⟩, hkept.extend [] (by simp [World.closed]) rfl rfl rfl, rfl⟩
  · exact Or.inl ⟨rfl, by simpa using hopen, c, rfl⟩
  · exact Or.inr ⟨⟨_, rfl⟩, hkept, Bool.eq_false_iff.mpr hopen⟩

/-- The acknowledgement of the last command. -/
theorem wp_ack (command : Command) (hw : Unmarked before w)
    (hlast : lastCommand w.trace = some command) :
    (consumeAck : Code τ Unit).wp (answering link raw reply) (fun r v => Unmarked before v ∧
      ReturnsOrLost (fun _ v => lastCommand v.trace = some command) r v) w := by
  rw [wp_consumeAck]
  intro c hc
  have hanswers : acknowledged (World.consumeAck link c (w.absorb link c.acts)).1 = true := hc.2
  have hkept := hw.absorb link c.acts
  change Unmarked before (World.consumeAck link c (w.absorb link c.acts)).2 ∧ ReturnsOrLost _
    (World.consumeAck link c (w.absorb link c.acts)).1 (World.consumeAck link c (w.absorb link c.acts)).2
  cases hopen : (w.absorb link c.acts).sockOpen with
  | false =>
    rw [World.consumeAck_closed hopen]
    exact ⟨hkept, hopen⟩
  | true =>
    rw [World.consumeAck_open hopen] at hanswers ⊢
    dsimp only at hanswers ⊢
    refine ⟨hkept.extend [World.ackEvent _] rfl ?_ rfl rfl, ?_⟩
    · refine marks_single ?_
      cases (link.consumeAck c.net (w.absorb link c.acts).link).1 <;> rfl
    · cases hread : (link.consumeAck c.net (w.absorb link c.acts).link).1 with
      | error e =>
        rw [hread] at hanswers
        change (!World.losesConnection (Except.error e : Except PyError τ)) = false
        cases e <;> first | rfl | exact absurd hanswers Bool.false_ne_true
      | ok tag =>
        change lastCommand ((w.absorb link c.acts).trace ++ [.acked tag]) = some command
        simpa [lastCommand] using hlast

/-- A packet read yields what the stub answers, unless the connection is lost. -/
theorem wp_read {timeout : Option ℕ} {text : Str} (hw : Unmarked before w)
    (htext : ∀ packet : Packet τ,
      replied raw reply timeout (lastCommand w.trace) (.ok packet) = true → packet.text = text) :
    (readPacketFromWire timeout : Code τ (Packet τ)).wp (answering link raw reply) (fun r v =>
      Unmarked before v ∧ ReturnsOrLost (fun packet _ => packet.text = text) r v) w := by
  rw [wp_readPacketFromWire]
  intro c hc
  have hanswers : replied raw reply timeout (lastCommand w.trace)
      (World.readPacket link c (w.absorb link c.acts)).1 = true := hc.2
  have hkept := hw.absorb link c.acts
  change Unmarked before (World.readPacket link c (w.absorb link c.acts)).2 ∧ ReturnsOrLost _
    (World.readPacket link c (w.absorb link c.acts)).1 (World.readPacket link c (w.absorb link c.acts)).2
  cases hopen : (w.absorb link c.acts).sockOpen with
  | false =>
    rw [World.readPacket_closed hopen]
    exact ⟨hkept, hopen⟩
  | true =>
    rw [World.readPacket_open hopen] at hanswers ⊢
    dsimp only at hanswers ⊢
    refine ⟨hkept.extend [World.readEvent _] rfl ?_ rfl rfl, ?_⟩
    · refine marks_single ?_
      cases (link.readPacket c.net (w.absorb link c.acts).link).1 <;> rfl
    · cases hread : (link.readPacket c.net (w.absorb link c.acts).link).1 with
      | error e =>
        rw [hread] at hanswers
        change (!World.losesConnection (Except.error e : Except PyError (Packet τ))) = false
        cases e <;> first | rfl | exact absurd hanswers Bool.false_ne_true
      | ok packet =>
        rw [hread] at hanswers
        exact htext packet hanswers

/-- A query is answered by its reply. -/
theorem wp_query {command : Command} (hcommand : command ≠ .resume) (hw : Unmarked before w) :
    (cmd command : Code τ (Packet τ)).wp (answering link raw reply) (fun r v =>
      Unmarked before v ∧ ReturnsOrLost (fun packet _ => packet.text = reply command) r v) w := by
  have hsent : (sendPacket command : Code τ Unit).wp (answering link raw reply) (fun r v =>
      Unmarked before v ∧ ReturnsOrLost (fun _ v => lastCommand v.trace = some command) r v) w := by
    unfold sendPacket
    rw [Program.bind_eq, Program.wp_bind]
    refine Program.wp_mono ?_ (wp_send command w)
    intro r v hsent
    obtain ⟨rfl, -, c, rfl⟩ | ⟨⟨e, rfl⟩, hkept, hclosed⟩ := hsent
    · refine wp_ack command ((hw.absorb link c.acts).extend [.sent (.packet command) c.obeyed] rfl
        ?_ rfl rfl) (by simp [World.delivered, lastCommand])
      refine marks_single ?_
      cases command <;> first | rfl | exact (hcommand rfl).elim
    · exact ⟨hw.trans hkept, hclosed⟩
  unfold cmd
  rw [Program.bind_eq, Program.wp_bind]
  refine Program.wp_mono ?_ hsent
  intro r v hacked
  obtain ⟨hv, hlast⟩ := hacked
  cases r with
  | error e => exact ⟨hv, hlast⟩
  | ok u =>
    refine wp_read hv fun packet hreplied => ?_
    rw [show lastCommand v.trace = some command from hlast] at hreplied
    simpa [replied] using hreplied

/-- Since `before` the program has marked nothing, and it returns unless the connection is lost. -/
def Answered (link : Link τ N L) (raw : Str) (reply : Command → Str) (before : World τ L) (α : Type)
    (p : Code τ α) : Prop :=
  ∀ w, Unmarked before w → p.wp (answering link raw reply)
    (fun r v => Unmarked before v ∧ ReturnsOrLost (fun _ _ => True) r v) w

/-- Queries raise only when the connection is lost. -/
theorem answered_queries (before : World τ L) :
    QueryPieces (· ≠ .resume) (Answered link raw reply before) where
  done a w hw := ⟨hw, trivial⟩
  bind hp hf w hw := by
    rw [Program.wp_bind]
    refine Program.wp_mono ?_ (hp w hw)
    intro r v ⟨hv, hr⟩
    cases r with
    | ok a => exact hf a v hv
    | error e => exact ⟨hv, hr⟩
  cmd command hcommand w hw := by
    refine Program.wp_mono ?_ (wp_query hcommand hw)
    intro r v ⟨hv, hr⟩
    cases r with
    | ok a => exact ⟨hv, trivial⟩
    | error e => exact ⟨hv, hr⟩

end Queries

section Captures

variable {τ N L : Type} {link : Link τ N L} {raw : Str} {reply : Command → Str}
  {before w : World τ L}

/-- A reply from which the register block can be read. -/
def wellFormed (text : Str) : Bool :=
  match raiseIfError text "g".toList, fromHex text with
  | .ok _, some _ => true
  | _, _ => false

/-- Whether a hit of a breakpoint can be recorded. -/
def Recordable (reply : Command → Str) (spec : BreakpointSpec) : Prop :=
  .gprs ∈ spec.captures → wellFormed (reply .readRegisters) = true

instance (reply : Command → Str) (spec : BreakpointSpec) : Decidable (Recordable reply spec) :=
  inferInstanceAs (Decidable (_ → _))

/-- What the checks of the block read raise is no read failure. -/
theorem raises_stubError {text context : Str} {e : PyError} (h : raiseIfError text context = .error e) :
    isReadFailure e = false := by
  unfold raiseIfError at h
  split at h
  · rw [← Except.error.inj h]
    rfl
  · split_ifs at h
    rw [← Except.error.inj h]
    rfl

/-- The block read returns on a well-formed reply and raises an error of its
own on any other, unless the connection is lost. -/
theorem wp_readRegisters (hw : Unmarked before w) :
    (readRegisters : Code τ (List UInt8)).wp (answering link raw reply) (fun r v =>
      Unmarked before v ∧ match r with
        | .ok _ => wellFormed (reply .readRegisters) = true
        | .error e => v.sockOpen = false ∨
          (wellFormed (reply .readRegisters) = false ∧ isReadFailure e = false)) w := by
  unfold readRegisters
  rw [Program.bind_eq, Program.wp_bind]
  refine Program.wp_mono ?_ (wp_query (by simp) hw)
  intro r v ⟨hv, hr⟩
  cases r with
  | error e => exact ⟨hv, Or.inl hr⟩
  | ok packet =>
    have htext : packet.text = reply .readRegisters := hr
    rw [Program.onValue_ok, Program.bind_eq, Program.wp_bind, Program.wp_ofExcept, htext]
    unfold wellFormed
    cases hchecked : raiseIfError (reply .readRegisters) "g".toList with
    | error e => exact ⟨hv, Or.inr ⟨rfl, raises_stubError hchecked⟩⟩
    | ok u =>
      rw [Program.onValue_ok, Program.wp_ofExcept]
      unfold fromHexOrRaise
      cases fromHex (reply .readRegisters) with
      | some blob => exact ⟨hv, rfl⟩
      | none => exact ⟨hv, Or.inr ⟨rfl, rfl⟩⟩

theorem wp_captureGprs (spec : BreakpointSpec) (capture : Capture) (hw : Unmarked before w) :
    (captureGprs spec capture : Code τ Capture).wp (answering link raw reply) (fun r v =>
      Unmarked before v ∧ match r with
        | .ok _ => Recordable reply spec
        | .error e => v.sockOpen = false ∨ (¬Recordable reply spec ∧ isReadFailure e = false)) w := by
  unfold captureGprs
  split_ifs with hgprs
  · rw [Program.bind_eq, Program.wp_bind]
    refine Program.wp_mono ?_ (wp_readRegisters hw)
    intro r v ⟨hv, hr⟩
    cases r with
    | ok blob => exact ⟨hv, fun _ => hr⟩
    | error e =>
      obtain hclosed | ⟨hbad, hfailure⟩ := hr
      · exact ⟨hv, Or.inl hclosed⟩
      · refine ⟨hv, Or.inr ⟨fun hgood => ?_, hfailure⟩⟩
        exact Bool.false_ne_true (hbad.symm.trans (hgood hgprs))
  · exact ⟨hw, fun h => (hgprs h).elim⟩

/-- One part of a capture that raises only when the connection is lost. -/
theorem answered_part {before : World τ L} {p : Code τ Capture} {f : Capture → Code τ Capture}
    (hp : Answered link raw reply before _ p) (hf : ∀ c, Answered link raw reply before _ (f c))
    (lost : Capture) : Answered link raw reply before _ (p.attempt.bind fun r => match r with
      | .ok c => f c
      | .error e => if isReadFailure e then pure lost else throwing e) := by
  intro w hw
  rw [Program.wp_bind, Program.wp_attempt]
  refine Program.wp_mono ?_ (hp w hw)
  intro r v ⟨hv, hr⟩
  rw [Program.onValue_ok]
  cases r with
  | ok c => exact hf c v hv
  | error e =>
    dsimp only
    split_ifs
    · exact ⟨hv, trivial⟩
    · exact ⟨hv, hr⟩

/-- The captured registers are put together exactly when the hit is
recordable, unless the connection is lost. -/
theorem wp_capturing (spec : BreakpointSpec) (capture : Capture) (hw : Unmarked before w) :
    (collect [captureGprs spec, captureLr spec, captureFprs spec] capture : Code τ Capture).wp
      (answering link raw reply) (fun r v => Unmarked before v ∧ match r with
        | .ok _ => v.sockOpen = true → Recordable reply spec
        | .error _ => v.sockOpen = true → ¬Recordable reply spec) w := by
  have hqueries : QueryPieces (· ≠ .resume) (Answered link raw reply before) := answered_queries before
  unfold collect
  rw [Program.bind_eq, Program.wp_bind, Program.wp_attempt]
  refine Program.wp_mono ?_ (wp_captureGprs spec capture hw)
  intro r v ⟨hv, hr⟩
  rw [Program.onValue_ok]
  cases r with
  | error e =>
    dsimp only
    obtain hclosed | ⟨hbad, hfailure⟩ := hr
    · split_ifs
      · exact ⟨hv, fun h => absurd (hclosed.symm.trans h) Bool.false_ne_true⟩
      · exact ⟨hv, fun h => absurd (hclosed.symm.trans h) Bool.false_ne_true⟩
    · rw [if_neg (by simp [hfailure])]
      exact ⟨hv, fun _ => hbad⟩
  | ok capture₁ =>
    have hrest := answered_part (hqueries.captureLr spec capture₁ fun regnum => by simp)
      (fun c => answered_part (hqueries.captureFprs spec c fun regnum => by simp)
        (fun c' => hqueries.done c') c) capture₁
    refine Program.wp_mono ?_ (hrest v hv)
    intro r' v' ⟨hv', hr'⟩
    cases r' with
    | ok _ => exact ⟨hv', fun _ => hr⟩
    | error e =>
      have hclosed : v'.sockOpen = false := hr'
      exact ⟨hv', fun h => absurd (hclosed.symm.trans h) Bool.false_ne_true⟩

end Captures

section Turns

variable {τ N L : Type} {link : Link τ N L} {raw : Str} {reply : Command → Str}
  {before w : World τ L} {host : Host} {spec : BreakpointSpec} {thread : ℕ}

/-- The stop is attributed to a capturing breakpoint without a condition. -/
structure Attributed (raw : Str) (spec : BreakpointSpec) (breakpoints : List BreakpointSpec) : Prop where
  /-- The stop matches its entry. -/
  matched : matchBp (parseStopReply raw) breakpoints = some spec.bpId
  /-- The entry is registered. -/
  found : lookup spec.bpId breakpoints = some spec
  /-- It captures and goes on. -/
  captures : spec.autoContinue = true
  /-- It has no condition, or an empty one. -/
  unconditional : ∀ expr, spec.condition = some expr → expr = []

/-- The registry with one more entry in the log of a breakpoint. -/
def withEntry (bpId : ℕ) (capture : Capture) (breakpoints : List BreakpointSpec) :
    List BreakpointSpec :=
  amend bpId (fun old => {old with log := old.log ++ [capture]}) breakpoints

/-- The hit was recorded under its breakpoint, once. -/
structure Recorded (before : World τ L) (raw : Str) (spec : BreakpointSpec) (w : World τ L) : Prop where
  /-- One capture has been added to its log. -/
  entry : ∃ capture, w.breakpoints = withEntry spec.bpId capture before.breakpoints
  /-- Adding it is the only mark. -/
  trace : ∃ more packet, w.trace = before.trace ++ more ∧ packet.text = raw ∧
    marks more = [.logged spec.bpId packet]
  /-- The threads are the same. -/
  watchers : w.watchers = before.watchers

/-- A recordable hit is recorded, and any other makes the handler raise. -/
theorem wp_handleStop {packet : Packet τ} (hpacket : packet.text = raw) (hw : Unmarked before w)
    (hit : Attributed raw spec before.breakpoints) :
    (handleStop host packet).wp (answering link raw reply) (fun r v => match r with
      | .ok handled => handled = true ∧ Recorded before raw spec v ∧
        (v.sockOpen = true → Recordable reply spec)
      | .error _ => Unmarked before v ∧ (v.sockOpen = true → ¬Recordable reply spec)) w := by
  unfold handleStop
  rw [Program.bind_eq, Program.wp_bind, wp_access]
  intro c _
  change Program.onValue _ _ _ (.ok (matchBp (parseStopReply packet.text) w.breakpoints)) w
  rw [Program.onValue_ok, hpacket, hw.breakpoints, hit.matched]
  dsimp only
  rw [Program.bind_eq, Program.wp_bind, wp_access]
  intro c' _
  change Program.onValue _ _ _ (.ok w.breakpoints) w
  rw [Program.onValue_ok, hw.breakpoints, hit.found]
  dsimp only
  rw [if_pos hit.captures, Program.bind_eq, Program.wp_bind]
  refine Program.wp_mono ?_ (wp_capturing spec _ hw)
  intro r v ⟨hv, hr⟩
  cases r with
  | error e => exact ⟨hv, hr⟩
  | ok capture =>
    have hpasses : (spec.condition.any fun expr => expr ≠ [] ∧ host.evalCondition expr capture = false) =
        false := by
      cases hcondition : spec.condition with
      | none => rfl
      | some expr => simp [hit.unconditional expr hcondition]
    rw [Program.onValue_ok, hpasses, if_neg Bool.false_ne_true, Program.bind_eq, Program.wp_bind,
      wp_access]
    intro c'' _
    refine ⟨rfl, ⟨⟨capture, ?_⟩, ?_, hv.watchers⟩, hr⟩
    · rw [← hv.breakpoints]
      rfl
    · obtain ⟨more, hmore, hnone⟩ := hv.trace
      refine ⟨more ++ [.logged spec.bpId packet], packet, ?_, hpacket, ?_⟩
      · rw [← List.append_assoc, ← hmore]
        rfl
      · rw [marks, List.filter_append, ← marks, hnone]
        rfl

/-- The watcher has recorded one entry and has then resumed the target once. -/
structure Continued (before : World τ L) (raw : Str) (spec : BreakpointSpec) (v : World τ L) : Prop where
  /-- One capture has been added to its log. -/
  entry : ∃ capture, v.breakpoints = withEntry spec.bpId capture before.breakpoints
  /-- Adding it and resuming, in this order, are the only marks. -/
  order : ∃ more packet obeyed, v.trace = before.trace ++ more ∧ packet.text = raw ∧
    marks more = [.logged spec.bpId packet, .sent (.packet .resume) obeyed]
  /-- The threads are the same. -/
  watchers : v.watchers = before.watchers

/-- After the record the resume is sent once, unless the connection is lost. -/
theorem wp_continueAsync (hw : Recorded before raw spec w) :
    (continueAsync : Code τ Unit).wp (answering link raw reply)
      (ReturnsOrLost fun _ v => w.sockOpen = true ∧ Continued before raw spec v) w := by
  unfold continueAsync sendPacket
  rw [Program.bind_eq, Program.wp_bind]
  refine Program.wp_mono ?_ (wp_send .resume w)
  intro r v hsent
  obtain ⟨rfl, hopen, c, rfl⟩ | ⟨⟨e, rfl⟩, -, hclosed⟩ := hsent
  · refine Program.wp_mono ?_ (wp_ack .resume (Unmarked.refl _)
      (by simp [World.delivered, lastCommand]))
    intro r v hacked
    obtain ⟨hv, hr⟩ := hacked
    cases r with
    | error e => exact hr
    | ok u =>
      obtain ⟨capture, hentry⟩ := hw.entry
      obtain ⟨more, packet, hmore, hpacket, hmarked⟩ := hw.trace
      obtain ⟨rest, hrest, hnone⟩ := hv.trace
      refine ⟨hopen, ⟨capture, ?_⟩, ⟨more ++ .sent (.packet .resume) c.obeyed :: rest, packet, c.obeyed, ?_,
        hpacket, ?_⟩, ?_⟩
      · rw [hv.breakpoints, ← hentry]
        simp [World.delivered]
      · rw [hrest]
        simp [World.delivered, hmore]
      · unfold marks at hmarked hnone ⊢
        rw [List.filter_append, List.filter_cons_of_pos rfl, hmarked, hnone]
        rfl
      · rw [hv.watchers, ← hw.watchers]
        simp [World.delivered]
  · exact hclosed

/-- A live watcher that nobody stops, and the stop that its next read yields. -/
structure Watching (raw : Str) (thread : ℕ) (w : World τ L) : Prop where
  /-- The thread is alive. -/
  alive : w.threadAlive thread = true
  /-- Nobody has asked it to stop. -/
  asked : (w.watchers[thread]?).any WatcherThread.stopRequested = false
  /-- If anything is stashed, the stop comes first. -/
  first : ∀ packet ∈ w.pendingReplies.head?, packet.text = raw

/-- The wait yields the stop, unless the connection is lost. -/
theorem wp_waitForStop {timeout : ℕ} (hfirst : ∀ packet ∈ w.pendingReplies.head?, packet.text = raw) :
    (waitForStop (some timeout) : Code τ (Packet τ)).wp (answering link raw reply) (fun r v =>
      Unmarked w v ∧ ReturnsOrLost (fun packet _ => packet.text = raw) r v) w := by
  unfold waitForStop readPacket
  rw [Program.bind_eq, Program.wp_bind, wp_access]
  intro c _
  change Program.onValue _ _ _ (.ok w.pendingReplies.head?) {w with pendingReplies := w.pendingReplies.tail}
  rw [Program.onValue_ok]
  have hpopped : Unmarked w {w with pendingReplies := w.pendingReplies.tail} :=
    (Unmarked.refl w).extend [] (by simp) rfl rfl rfl
  cases hhead : w.pendingReplies.head? with
  | some packet => exact ⟨hpopped, hfirst packet hhead⟩
  | none => exact wp_read hpopped fun packet hreplied => by simpa [replied] using hreplied

/-- What a turn on a hit comes to: it goes on after a recordable hit and
raises after any other, unless the connection is lost. -/
def TurnOn (before : World τ L) (raw : Str) (reply : Command → Str) (spec : BreakpointSpec)
    (r : Except PyError Turn) (v : World τ L) : Prop :=
  v.sockOpen = true → (Recordable reply spec ∧ r = .ok .again ∧ Continued before raw spec v) ∨
    (¬Recordable reply spec ∧ ∃ e, r = .error e)

/-- A lost connection settles the matter. -/
theorem turnOn_of_closed {r : Except PyError Turn} {v : World τ L} (h : v.sockOpen = false) :
    TurnOn before raw reply spec r v :=
  fun ho => absurd (h.symm.trans ho) Bool.false_ne_true

theorem wp_watcherLocked (hwatching : Watching raw thread w) (hit : Attributed raw spec w.breakpoints) :
    (watcherLocked host thread).wp (answering link raw reply) (TurnOn w raw reply spec) w := by
  unfold watcherLocked
  rw [Program.bind_eq, Program.wp_bind, wp_access]
  intro c _
  change Program.onValue _ _ _ (.ok ((w.watchers[thread]?).any WatcherThread.stopRequested)) w
  rw [Program.onValue_ok, hwatching.asked, if_neg Bool.false_ne_true, Program.bind_eq,
    Program.wp_bind, Program.wp_attempt]
  refine Program.wp_mono ?_ (wp_waitForStop hwatching.first)
  intro r₁ v₁ ⟨hv₁, hr₁⟩
  rw [Program.onValue_ok]
  cases r₁ with
  | error e =>
    dsimp only
    split_ifs
    · exact turnOn_of_closed hr₁
    · exact turnOn_of_closed hr₁
    · exact turnOn_of_closed hr₁
  | ok packet =>
    dsimp only
    rw [Program.bind_eq, Program.wp_bind]
    refine Program.wp_mono ?_ (wp_handleStop hr₁ hv₁ hit)
    intro r₂ v₂ hr₂
    cases r₂ with
    | error e => exact fun ho => Or.inr ⟨hr₂.2 ho, e, rfl⟩
    | ok handled =>
      obtain ⟨rfl, hrecorded, hgood⟩ := hr₂
      rw [Program.onValue_ok, if_pos rfl, Program.bind_eq, Program.wp_bind, Program.wp_attempt]
      refine Program.wp_mono ?_ (wp_continueAsync hrecorded)
      intro r₃ v₃ hr₃
      rw [Program.onValue_ok]
      cases r₃ with
      | ok u => exact fun _ => Or.inl ⟨hgood hr₃.1, rfl, hr₃.2⟩
      | error e =>
        dsimp only
        split_ifs
        · exact turnOn_of_closed hr₃
        · exact turnOn_of_closed hr₃

/-- A breakpoint found in the registry keeps the watcher in its loop. -/
theorem anyAutoContinue_of_attributed {breakpoints : List BreakpointSpec}
    (hit : Attributed raw spec breakpoints) : anyAutoContinue breakpoints = true := by
  have hmem : spec ∈ breakpoints := List.mem_of_find?_eq_some hit.found
  exact List.any_eq_true.mpr ⟨spec, hmem, hit.captures⟩

theorem wp_watcherTurn (hwatching : Watching raw thread w) (hit : Attributed raw spec w.breakpoints) :
    (watcherTurn host thread).wp (answering link raw reply) (TurnOn w raw reply spec) w := by
  unfold watcherTurn
  rw [Program.bind_eq, Program.wp_bind, wp_access]
  intro c _
  change Program.onValue _ _ _ (.ok ((w.watchers[thread]?).any WatcherThread.stopRequested)) w
  rw [Program.onValue_ok, hwatching.asked, if_neg Bool.false_ne_true, Program.bind_eq,
    Program.wp_bind, wp_access]
  intro c' _
  change Program.onValue _ _ _ (.ok w.breakpoints) w
  rw [Program.onValue_ok, if_pos (anyAutoContinue_of_attributed hit)]
  exact wp_locked rfl (wp_watcherLocked hwatching hit)

/-- The watcher has recorded the hit once, has then resumed the target once, and
stays in its loop. -/
def Survives (before : World τ L) (raw : Str) (spec : BreakpointSpec) (thread : ℕ)
    (v : World τ L) : Prop :=
  Continued before raw spec v ∧ v.threadAlive thread = true

/-- A thread that leaves is no longer alive. -/
theorem exits (thread : ℕ) (w : World τ L) :
    (w.onThread thread fun t => {t with alive := false}).threadAlive thread = false := by
  unfold World.onThread World.threadAlive
  rw [List.getElem?_modify_eq]
  cases w.watchers[thread]? <;> rfl

/-- On a hit of a capturing breakpoint without a condition, whatever the stub
replies, an iteration during which nobody stops the watcher and the connection
is not lost records one entry, then sends one `c`, and stays in its loop,
exactly when the register block is not captured or its reply is well formed. -/
theorem survives_iff_recordable (hwatching : Watching raw thread w)
    (hit : Attributed raw spec w.breakpoints) {r : Except PyError Unit} {v : World τ L}
    (h : (watcherIteration host thread).Reaches (answering link raw reply) w r v)
    (hconnected : v.sockOpen = true) :
    Survives w raw spec thread v ↔ (.gprs ∈ spec.captures → wellFormed (reply .readRegisters) = true) := by
  have hiteration : (watcherIteration host thread).wp (answering link raw reply) (fun _ v =>
      v.sockOpen = true → (Survives w raw spec thread v ↔ Recordable reply spec)) w := by
    unfold watcherIteration
    rw [Program.bind_eq, Program.wp_bind, wp_access]
    intro c _
    change Program.onValue _ _ _ (.ok (w.threadAlive thread)) w
    rw [Program.onValue_ok, hwatching.alive, if_pos rfl, Program.bind_eq, Program.wp_bind,
      Program.wp_attempt]
    refine Program.wp_mono ?_ (wp_watcherTurn hwatching hit)
    intro r₁ v₁ hturn
    rw [Program.onValue_ok]
    split
    · intro ho
      obtain ⟨hgood, -, hcontinued⟩ | ⟨-, e, he⟩ := hturn ho
      · refine ⟨fun _ => hgood, fun _ => ⟨hcontinued, ?_⟩⟩
        unfold World.threadAlive
        rw [hcontinued.watchers]
        exact hwatching.alive
      · simp at he
    · rename_i hleft
      intro c' _ ho
      obtain ⟨-, hagain, -⟩ | ⟨hbad, -⟩ := hturn ho
      · exact (hleft hagain).elim
      · refine ⟨fun hsurvives => ?_, fun hgood => (hbad hgood).elim⟩
        have halive : (v₁.onThread thread fun t => {t with alive := false}).threadAlive thread = true :=
          hsurvives.2
        exact absurd ((exits thread v₁).symm.trans halive) Bool.false_ne_true
  exact Program.reaches_of_wp hiteration h hconnected

end Turns

section Examples

instance {τ N L : Type} (link : Link τ N L) (raw : Str) (reply : Command → Str) (o : Op τ)
    (c : Choice τ N) (w : World τ L) : Decidable ((answering link raw reply).admits o c w) :=
  inferInstanceAs (Decidable (True ∧ answers link raw reply o c w = true))

/-- A breakpoint whose hits record the register block. -/
def blockSpec : BreakpointSpec :=
  {bpId := 1, addr := 0x80003200, kind := .swBp, size := 4, captures := [.gprs], autoContinue := true}

/-- The target runs towards the breakpoint, and a watcher waits for it. -/
def watchedWorld : TokenWorld :=
  {pausedWorld with
    state := .connectedRunning
    running := true
    breakpoints := [blockSpec]
    watcher := some 0
    watchers := [⟨false, true⟩]}

/-- The stop reply of the hit. -/
def hitText : Str := "T0540:80003200;".toList

/-- The breakpoint is hit, `g` is answered by a body and `c` is acknowledged. -/
def hitAnswered (body : Body) : List (Choice Origin TokenNet) :=
  [{net := default, acts :=
      [⟨.frame ⟨asciiBytes hitText, by decide⟩ (.stop 0 (.hit ⟨.swBp, 0x80003200, 4⟩)), true⟩]},
    {net := default, response := [.ack (.reply 0), .frame body (.reply 0)]},
    {net := default}, {net := default},
    {net := default, response := [.ack (.reply 1)]}, {net := default}]

theorem attributed_hit : Attributed hitText blockSpec watchedWorld.breakpoints :=
  ⟨by decide +kernel, by decide, rfl, by simp [blockSpec]⟩

theorem survives_iff_recordable_block : ∃ v,
    (watcherIteration plainHost 0).Reaches (answering (tokenLink Origin) hitText fun _ => "0011".toList)
      watchedWorld (.ok ()) v ∧
    (Survives watchedWorld hitText blockSpec 0 v ↔
      (.gprs ∈ blockSpec.captures → wellFormed "0011".toList = true)) := by
  have hfollows : (watcherIteration plainHost 0).Follows
      (answering (tokenLink Origin) hitText fun _ => "0011".toList)
      (hitAnswered ⟨asciiBytes "0011".toList, by decide⟩) watchedWorld := by decide +kernel
  have hreaches := Program.reaches_run hfollows
  have hok : ((watcherIteration plainHost 0).run
      (answering (tokenLink Origin) hitText fun _ => "0011".toList)
      (hitAnswered ⟨asciiBytes "0011".toList, by decide⟩) watchedWorld).1 = .ok () := by decide +kernel
  rw [hok] at hreaches
  exact ⟨_, hreaches, survives_iff_recordable ⟨by decide, by decide, by simp [watchedWorld, pausedWorld, freshWorld]⟩
    attributed_hit hreaches (by decide +kernel)⟩

/-- An empty reply to `g` ends the watcher; the hit is not recorded and the target stays halted. -/
theorem empty_block_ends_the_watcher : ∃ r v,
    (watcherIteration plainHost 0).Reaches (answering (tokenLink Origin) hitText fun _ => [])
      watchedWorld r v ∧ v.sockOpen = true ∧ Attributed hitText blockSpec watchedWorld.breakpoints ∧
    ¬Survives watchedWorld hitText blockSpec 0 v ∧ v.threadAlive 0 = false ∧
    v.breakpoints = watchedWorld.breakpoints ∧ v.running = false := by
  have hfollows : (watcherIteration plainHost 0).Follows
      (answering (tokenLink Origin) hitText fun _ => [])
      (hitAnswered ⟨[], by decide⟩) watchedWorld := by decide +kernel
  have hreaches := Program.reaches_run hfollows
  have hdead : ((watcherIteration plainHost 0).run (answering (tokenLink Origin) hitText fun _ => [])
      (hitAnswered ⟨[], by decide⟩) watchedWorld).2.1.threadAlive 0 = false := by decide +kernel
  exact ⟨_, _, hreaches, by decide +kernel, attributed_hit,
    fun h => absurd (hdead.symm.trans h.2) Bool.false_ne_true, hdead, by decide +kernel, by decide +kernel⟩

end Examples

end DolphinRe.WatcherSurvival
