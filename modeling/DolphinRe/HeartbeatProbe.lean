import DolphinRe.PromptStub
import DolphinRe.CommandPairing

/-!
# The heartbeat and the stops around it

The probe sends `qC` and takes the next packet for its reply. Stops that arrive
before the acknowledgement are stashed and stops after the reply stay unread;
a stop between the two is taken for the reply.
-/

namespace DolphinRe.HeartbeatProbe

open PythonText GdbPackets GdbWire GdbTokens EffectProgram SessionMachine GdbClient LinkRefinement
  StubBehaviour PromptStub CommandPairing

section Splits

/-- A list is split in one way at its first element off a predicate. -/
theorem split_unique {α : Type} {p : α → Bool} {xs ys xs' ys' : List α} {x x' : α}
    (hxs : ∀ a ∈ xs, p a = true) (hx : p x = false) (hxs' : ∀ a ∈ xs', p a = true)
    (hx' : p x' = false) (h : xs ++ x :: ys = xs' ++ x' :: ys') : xs = xs' ∧ x = x' ∧ ys = ys' := by
  induction xs generalizing xs' with
  | nil =>
    cases xs' with
    | nil =>
      have hcons := List.cons.inj h
      exact ⟨rfl, hcons.1, hcons.2⟩
    | cons a xs' =>
      have hhead : x = a := (List.cons.inj h).1
      have ha := hxs' a List.mem_cons_self
      rw [← hhead, hx] at ha
      exact absurd ha Bool.false_ne_true
  | cons a xs ih =>
    have ha := hxs a List.mem_cons_self
    cases xs' with
    | nil =>
      have hhead : a = x' := (List.cons.inj h).1
      rw [hhead, hx'] at ha
      exact absurd ha Bool.false_ne_true
    | cons b xs' =>
      obtain ⟨hab, hrest⟩ := List.cons.inj h
      obtain ⟨hxs'', hx'', hys⟩ := ih (fun c hc => hxs c (List.mem_cons_of_mem a hc))
        (fun c hc => hxs' c (List.mem_cons_of_mem b hc)) hrest
      exact ⟨by rw [hab, hxs''], hx'', hys⟩

theorem isFrame_of_isStopFrame {t : Token Origin} (h : isStopFrame t = true) : t.isFrame = true := by
  cases t with
  | frame body tag => rfl
  | ack tag => simp [isStopFrame] at h
  | stray byte tag => simp [isStopFrame] at h

/-- Stop frames are the packets they hold. -/
theorem framePackets_of_stops {ts : Tokens} (h : Quiet ts) : framePackets ts = stopPackets ts := by
  induction ts with
  | nil => rfl
  | cons t ts ih =>
    obtain ⟨body, m, cause, rfl, hts⟩ := h.head
    have hrest := ih hts
    unfold framePackets stopPackets at hrest ⊢
    rw [List.filterMap_cons, List.filterMap_cons, hrest]

/-- The cells of stop frames belong to stops. -/
theorem cells_of_stops {ts : Tokens} (h : Quiet ts) : ∀ c ∈ renderAll ts, c.tag.isStop = true := by
  intro c hc
  obtain ⟨t, ht, hct⟩ := List.mem_flatMap.mp hc
  have hstop := h t ht
  cases t with
  | ack tag => simp [isStopFrame] at hstop
  | stray byte tag => simp [isStopFrame] at hstop
  | frame body tag =>
    cases tag with
    | reply n => simp [isStopFrame] at hstop
    | stop n cause =>
      have htag : ∀ bytes : List UInt8, c ∈ cells (Origin.stop n cause) bytes → c.tag.isStop = true := by
        intro bytes hmem
        obtain ⟨b, -, rfl⟩ := List.mem_map.mp hmem
        rfl
      unfold Token.render at hct
      obtain hleft | hright := List.mem_append.mp hct
      · obtain rfl | hmem := List.mem_cons.mp hleft
        · rfl
        · exact htag _ hmem
      · obtain rfl | hmem := List.mem_cons.mp hright
        · rfl
        · exact htag _ hmem

end Splits

section Probe

variable {w : TokenWorld}

/-- The probe takes the frames up to the first acknowledgement and the first
frame after it, by which it judges. -/
theorem wp_probe_takes (timeout : ℕ) (h : w.sockOpen = true) :
    (probeResponsive timeout).wp promptMachine (fun r v => ∃ passed tag skipped body tag',
      (∀ t ∈ passed, t.isFrame = true) ∧ (∀ t ∈ skipped, t.isFrame = false) ∧
        r = .ok (!startsWith "E".toList (framePacket body tag').text) ∧
        Takes w (passed ++ .ack tag :: (skipped ++ [.frame body tag'])) (framePackets passed) v) w := by
  unfold probeResponsive
  rw [Program.bind_eq, Program.wp_bind, wp_access]
  intro c _
  change Program.onValue _ _ _ (.ok w.sockOpen) w
  rw [Program.onValue_ok, if_pos h, Program.bind_eq, Program.wp_bind, wp_access]
  intro c₁ _
  change Program.onValue _ _ _ (.ok w.sockTimeout) w
  rw [Program.onValue_ok, Program.bind_eq, Program.wp_bind, wp_access]
  intro c₂ _
  change Program.onValue _ _ _ (.ok ()) {w with sockTimeout := timeout}
  have hassoc : ((sendPacket .currentThread).bind fun _ => (readPacketFromWire (some timeout)).bind
      fun reply => .done (!startsWith "E".toList reply.text) : Code Origin Bool) =
      ((sendPacket .currentThread).bind fun _ => readPacketFromWire (some timeout)).bind
        fun reply => .done (!startsWith "E".toList reply.text) := (Program.bind_assoc _ _ _).symm
  rw [Program.onValue_ok, Program.wp_ensuring, Program.wp_handle]
  simp only [Program.bind_eq, Program.pure_eq]
  rw [hassoc, Program.wp_bind]
  refine Program.wp_mono ?_ (wp_cmd_takes .currentThread (some timeout)
    (w := {w with sockTimeout := timeout}) h)
  rintro r v ⟨passed, tag, skipped, body, tag', hpassed, hskipped, rfl, hv⟩
  rw [Program.onValue_ok]
  intro c₃ _
  exact ⟨passed, tag, skipped, body, tag', hpassed, hskipped, rfl, hv.connected, hv.stream, hv.pending⟩

/-- What the probe leaves of a stream: the tokens after the first frame behind
the acknowledgement. -/
theorem probe_leaves {v : TokenWorld} {n : ℕ} {body : Body} {before between after passed skipped : Tokens}
    {tag tag' : Origin} {body' : Body} {stashed : List (Packet Origin)}
    (hlink : Quiet w.link) (hbefore : Quiet before) (hbetween : Quiet between)
    (hemitted : v.emitted = w.emitted ++
      (before ++ .ack (.reply n) :: (between ++ .frame body (.reply n) :: after)))
    (hpassed : ∀ t ∈ passed, t.isFrame = true) (hskipped : ∀ t ∈ skipped, t.isFrame = false)
    (h : Takes w (passed ++ .ack tag :: (skipped ++ [.frame body' tag'])) stashed v) :
    passed = w.link ++ before ∧
      .frame body' tag' :: v.link = between ++ .frame body (.reply n) :: after := by
  obtain ⟨new, hnew, hstream⟩ := h.stream
  have hsame := List.append_cancel_left (hnew.symm.trans hemitted)
  have hparts : (w.link ++ before) ++ .ack (.reply n) :: (between ++ .frame body (.reply n) :: after) =
      passed ++ .ack tag :: (skipped ++ .frame body' tag' :: v.link) := by
    rw [hsame] at hstream
    simpa using hstream
  have hquiet : ∀ t ∈ w.link ++ before, t.isFrame = true :=
    fun t ht => isFrame_of_isStopFrame (hlink.append hbefore t ht)
  obtain ⟨hfront, -, hback⟩ := split_unique hquiet rfl hpassed rfl hparts
  refine ⟨hfront.symm, ?_⟩
  cases skipped with
  | nil => exact hback.symm
  | cons t skipped =>
    have ht := hskipped t List.mem_cons_self
    cases between with
    | nil =>
      have hhead := (List.cons.inj hback).1
      rw [← hhead] at ht
      exact absurd ht (by simp [Token.isFrame])
    | cons u between =>
      have hhead : u = t := (List.cons.inj hback).1
      rw [← hhead, isFrame_of_isStopFrame (hbetween u List.mem_cons_self)] at ht
      exact absurd ht (by decide)

end Probe

section Main

/-- The probe reports a responsive stub, takes nothing but the reply, and every
stop is still deliverable: first those already stashed, then the given ones in
order. -/
structure Harmless (w v : World Origin (Buffers Origin)) (stops : List (Packet Origin))
    (r : Except PyError Bool) : Prop where
  /-- The stub is found responsive. -/
  responsive : r = .ok true
  /-- Only stops are left unread. -/
  taken : ∀ c ∈ v.link.unread, c.tag.isStop = true
  /-- The stashed and the unread stops are those stashed before, and then the given ones. -/
  kept : ∃ unread, v.link.unread = renderAll unread ∧
    v.pendingReplies ++ stopPackets unread = w.pendingReplies ++ stops

/-- On a stub that acknowledges `qC` and answers it in time, with any number of
stops unread before the probe and sent before the acknowledgement, between it
and the reply, and after the reply: the probe is harmless exactly when no stop
comes between the acknowledgement and the reply. -/
theorem probe_harmless_iff {timeout n : ℕ} {body : Body} {w v : World Origin (Buffers Origin)}
    {unread before between after : Tokens} {r : Except PyError Bool} (hconnected : w.sockOpen = true)
    (hunread : w.link.unread = renderAll unread)
    (hstops : ∀ t ∈ unread ++ before ++ between ++ after, isStopFrame t = true)
    (hreply : startsWith "E".toList (framePacket body (Origin.reply n)).text = false)
    (hprobe : (probeResponsive timeout).Reaches (byteMachine InTime) w r v)
    (hemitted : v.emitted = w.emitted ++
      (before ++ .ack (.reply n) :: (between ++ .frame body (.reply n) :: after))) :
    Harmless w v (stopPackets (unread ++ before ++ between ++ after)) r ↔ between = [] := by
  have hquiet : Quiet unread ∧ Quiet before ∧ Quiet between ∧ Quiet after :=
    ⟨fun t ht => hstops t (by simp [ht]), fun t ht => hstops t (by simp [ht]),
      fun t ht => hstops t (by simp [ht]), fun t ht => hstops t (by simp [ht])⟩
  obtain ⟨hunreadq, hbeforeq, hbetweenq, hafterq⟩ := hquiet
  have htokens := wp_probe_takes timeout (w := withLink w unread) hconnected
  have hbytes := (disciplined_simulates byteLink_refines InTime).wp
    (Q := fun r v => v.emitted = w.emitted ++
      (before ++ .ack (.reply n) :: (between ++ .frame body (.reply n) :: after)) →
        (Harmless w v (stopPackets (unread ++ before ++ between ++ after)) r ↔ between = []))
    (by
      rintro r v v' ⟨left, rfl, hleft⟩ ⟨passed, tag, skipped, body', tag', hpassed, hskipped, rfl, hv⟩
        hemitted
      obtain ⟨rfl, hrest⟩ := probe_leaves (w := withLink w unread) (v := withLink v left) hunreadq hbeforeq hbetweenq hemitted
        hpassed hskipped hv
      cases between with
      | nil =>
        obtain ⟨hframe, hafter⟩ := List.cons.inj hrest
        obtain ⟨rfl, rfl⟩ := Token.frame.inj hframe
        have hafter' : left = after := hafter
        subst hafter'
        refine ⟨fun _ => rfl, fun _ => ⟨by rw [hreply]; rfl, ?_, left, hleft, ?_⟩⟩
        · rw [show v.link.unread = renderAll left from hleft]
          exact cells_of_stops hafterq
        · have hpending : v.pendingReplies = w.pendingReplies ++ framePackets (unread ++ before) := hv.pending
          rw [hpending, framePackets_of_stops (hunreadq.append hbeforeq), List.append_nil,
            stopPackets_append (unread ++ before), List.append_assoc]
      | cons t between =>
        have hkept : left = between ++ .frame body (.reply n) :: after := (List.cons.inj hrest).2
        refine ⟨fun hharmless => ?_, fun h => absurd h (List.cons_ne_nil t between)⟩
        have hcell : (⟨36, .reply n⟩ : Cell Origin) ∈ v.link.unread := by
          rw [show v.link.unread = renderAll left from hleft, hkept]
          simp [Token.render]
        exact absurd (hharmless.taken _ hcell) (by simp [Origin.isStop]))
    (⟨unread, rfl, hunread⟩ : Same Renders w (withLink w unread)) htokens
  exact Program.reaches_of_wp hbytes hprobe hemitted

/-- One stop before the acknowledgement and one behind the reply, byte by byte. -/
def probedAround : List (Choice Origin Net) :=
  [{net := trickle, acts := [⟨stopToken 0, true⟩],
      response := [.ack (.reply 0), .frame threadBody (.reply 0)]},
    {net := trickle}, {net := trickle, acts := [⟨stopToken 1, true⟩]}]

/-- One stop between the acknowledgement and the reply. -/
def probedBetween : List (Choice Origin Net) :=
  [{net := trickle, response := [.ack (.reply 0), stopToken 0, .frame threadBody (.reply 0)]},
    {net := trickle}, {net := trickle}]

/-- The run of a probe on a fresh connection. -/
def probed (script : List (Choice Origin Net)) :
    Except PyError Bool × World Origin (Buffers Origin) × List (Choice Origin Net) :=
  (probeResponsive 500).run (byteMachine InTime) script connectedWorld

theorem probe_harmless_iff_around :
    Harmless connectedWorld (probed probedAround).2.1 (stopPackets [stopToken 0, stopToken 1])
      (probed probedAround).1 ↔ ([] : Tokens) = [] := by
  have hfollows : (probeResponsive 500).Follows (byteMachine InTime) probedAround connectedWorld := by
    decide +kernel
  have hstops : ∀ t ∈ ([] : Tokens) ++ [stopToken 0] ++ [] ++ [stopToken 1], isStopFrame t = true := by
    decide
  have hreply : startsWith "E".toList (framePacket threadBody (Origin.reply 0)).text = false := by decide
  exact probe_harmless_iff rfl rfl hstops hreply (Program.reaches_run hfollows) (by decide +kernel)

/-- A stop between the acknowledgement and the reply is taken for the reply,
which stays behind as the next thing unread. -/
theorem stop_taken_for_the_reply :
    (probeResponsive 500).Reaches (byteMachine InTime) connectedWorld (probed probedBetween).1
      (probed probedBetween).2.1 ∧
    (probed probedBetween).2.1.emitted = connectedWorld.emitted ++
      ([] ++ .ack (.reply 0) :: ([stopToken 0] ++ .frame threadBody (.reply 0) :: [])) ∧
    (probed probedBetween).1 = .ok true ∧
    ¬Harmless connectedWorld (probed probedBetween).2.1 (stopPackets [stopToken 0])
      (probed probedBetween).1 := by
  have hfollows : (probeResponsive 500).Follows (byteMachine InTime) probedBetween connectedWorld := by
    decide +kernel
  have hleft : (⟨36, .reply 0⟩ : Cell Origin) ∈ (probed probedBetween).2.1.link.unread := by
    decide +kernel
  exact ⟨Program.reaches_run hfollows, by decide +kernel, by decide +kernel,
    fun h => absurd (h.taken _ hleft) (by decide)⟩

end Main

end DolphinRe.HeartbeatProbe
