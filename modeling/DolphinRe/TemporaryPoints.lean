import DolphinRe.StubBehaviour
import DolphinRe.ToolRuns

/-!
# Temporary breakpoints

The step tools and the tracing tools set a breakpoint or a watchpoint of their
own. Whatever the stub does, and wherever watcher threads and the auto-connect
worker run, the registry lists afterwards what it listed before: a session in
which the temporary point got registered is connected, so that nothing in the
cleanup can fail before the point has left the registry.
-/

namespace DolphinRe.TemporaryPoints

open PythonText GdbPackets GdbWire GdbTokens StopReplies EffectProgram SessionMachine GdbClient
  SessionTools BreakpointTools ExecutionTools StubBehaviour Footprints ToolStructure Interference
  ToolRuns

section Statement

variable {τ N L : Type}

/-- Tools that set a point of their own. -/
inductive Tool where
  | stepOver
  | stepOut
  | runUntil (addr : ℤ) (timeout : ℕ)
  | traceWritesTo (addr size duration : ℤ) (captures : Option (List String))
  | traceCallsTo (entryAddr duration : ℤ) (captures : Option (List String))
  deriving DecidableEq, Repr

/-- One call, with its result dropped. -/
def Tool.code (host : Host) : Tool → Code τ Unit
  | .stepOver => do let _ ← ExecutionTools.stepOver host
  | .stepOut => do let _ ← ExecutionTools.stepOut host
  | .runUntil addr timeout => do let _ ← ExecutionTools.runUntil addr timeout
  | .traceWritesTo addr size duration captures => do
    let _ ← ExecutionTools.traceWritesTo addr size duration captures
  | .traceCallsTo entryAddr duration captures => do
    let _ ← ExecutionTools.traceCallsTo entryAddr duration captures

/-- A registered breakpoint without its recorded hits. -/
def entry (spec : BreakpointSpec) : BreakpointSpec := {spec with log := []}

/-- `session.breakpoints`, the recorded hits apart. -/
def entries (w : World τ L) : List BreakpointSpec := w.breakpoints.map entry

/-- Registered ids have been handed out by `alloc_bp_id`. -/
def Numbered (w : World τ L) : Prop := ∀ spec ∈ w.breakpoints, spec.bpId < w.nextId

/-- Accesses that change no entry of the registry. The session state is
assigned only when `assigns` says so. -/
def leaves (assigns : Bool) : Op τ → Prop
  | .setState _ => cond assigns True False
  | .registerBp _ => False
  | .unregisterBp _ => False
  | .clearBreakpoints => False
  | .setCaptures _ _ => False
  | .setAutoContinue _ _ => False
  | _ => True

/-- Meanwhile, watcher threads make any number of their accesses, and the
auto-connect worker any number of ticks. -/
def meanwhile (link : Link τ N L) : World τ L → World τ L → Prop :=
  Relation.ReflTransGen fun w v =>
    (∃ o c, leaves false o ∧ v = (World.step link o c w).2) ∨
      ∃ r, autoConnectTick.Reaches (machine link) w r v

/-- The tools with the background threads running before every access. -/
abbrev busy (link : Link τ N L) :
    Machine (signature τ) (Choice τ N × World τ L) (World τ L × List (World τ L)) :=
  Machine.interleaved (machine link) (meanwhile link)

end Statement

section Registry

variable {f : BreakpointSpec → BreakpointSpec} {bpId : ℕ} {before breakpoints : List BreakpointSpec}

/-- Changes to the hits only. -/
theorem map_entry_amend (hf : ∀ spec, entry (f spec) = entry spec) (bpId : ℕ)
    (breakpoints : List BreakpointSpec) :
    (amend bpId f breakpoints).map entry = breakpoints.map entry := by
  unfold amend
  rw [List.map_map]
  refine List.map_congr_left fun spec _ => ?_
  rw [Function.comp_apply]
  split_ifs
  · exact hf spec
  · rfl

/-- Other changes are changes of the entries. -/
theorem map_entry_amend_comm (hf : ∀ spec, entry (f spec) = f (entry spec)) (bpId : ℕ)
    (breakpoints : List BreakpointSpec) :
    (amend bpId f breakpoints).map entry = amend bpId f (breakpoints.map entry) := by
  unfold amend
  rw [List.map_map, List.map_map]
  refine List.map_congr_left fun spec _ => ?_
  simp only [Function.comp_apply]
  have hid : (entry spec).bpId = spec.bpId := rfl
  rw [hid]
  split_ifs
  · exact hf spec
  · rfl

/-- Removing an entry commutes with forgetting the logs. -/
theorem map_entry_unregister (bpId : ℕ) (breakpoints : List BreakpointSpec) :
    (unregister bpId breakpoints).map entry = unregister bpId (breakpoints.map entry) := by
  unfold unregister
  rw [List.filter_map]
  rfl

/-- The newest entry is the only one with its id. -/
theorem amend_newest (hold : ∀ spec ∈ before, spec.bpId < bpId) {spec : BreakpointSpec}
    (hspec : spec.bpId = bpId) : amend bpId f (before ++ [spec]) = before ++ [f spec] := by
  have hbefore : amend bpId f before = before := by
    unfold amend
    refine (List.map_congr_left fun old hmem => ?_).trans (List.map_id before)
    have hlt := hold old hmem
    rw [if_neg (by omega), id]
  calc amend bpId f (before ++ [spec]) = amend bpId f before ++ amend bpId f [spec] := List.map_append
    _ = before ++ [f spec] := by rw [hbefore]; simp [amend, hspec]

/-- Removing the newest entry leaves the older ones. -/
theorem unregister_newest (hold : ∀ spec ∈ before, spec.bpId < bpId) {spec : BreakpointSpec}
    (hspec : spec.bpId = bpId) : unregister bpId (before ++ [spec]) = before := by
  have hbefore : unregister bpId before = before := by
    refine List.filter_eq_self.mpr fun old hmem => ?_
    have hlt := hold old hmem
    simp only [ne_eq, decide_not, Bool.not_eq_true', decide_eq_false_iff_not]
    omega
  calc unregister bpId (before ++ [spec]) = unregister bpId before ++ unregister bpId [spec] :=
        List.filter_append _ _
    _ = before := by rw [hbefore]; simp [unregister, hspec]

/-- A new id goes to the end of the registry. -/
theorem register_newest {spec : BreakpointSpec} (hold : ∀ old ∈ breakpoints, old.bpId < spec.bpId) :
    register spec breakpoints = breakpoints ++ [spec] := by
  unfold register
  rw [if_neg]
  rw [List.any_eq_true]
  rintro ⟨old, hmem, hsame⟩
  have hlt := hold old hmem
  have heq : old.bpId = spec.bpId := of_decide_eq_true hsame
  omega

end Registry

section Steps

variable {τ N L : Type} {link : Link τ N L} {w v : World τ L}

/-- The same entries, and no id taken back. -/
structure Listed (w v : World τ L) : Prop where
  /-- The entries are the same, but for their logs. -/
  entries : entries v = entries w
  /-- No id is taken back. -/
  nextId : w.nextId ≤ v.nextId

/-- With the same registry, the entries are the same. -/
theorem listed_of_eq (hbreakpoints : v.breakpoints = w.breakpoints) (hnext : w.nextId ≤ v.nextId) :
    Listed w v :=
  ⟨congrArg (List.map entry) hbreakpoints, hnext⟩

/-- What the stub does on its own leaves the registry alone. -/
theorem listed_absorb (acts : List (StubAct τ)) : Listed w (w.absorb link acts) :=
  listed_of_eq (World.absorb_breakpoints link acts w) (World.absorb_nextId link acts w).ge

/-- An access that leaves the entries alone. -/
theorem listed_step {assigns : Bool} {o : Op τ} (ho : leaves assigns o) (c : Choice τ N)
    (w : World τ L) : Listed w (World.step link o c w).2 := by
  have habsorb : Listed w (w.absorb link c.acts) := listed_absorb c.acts
  cases o with
  | send message =>
    change Listed w (World.send link message c (w.absorb link c.acts)).2
    unfold World.send
    split_ifs <;> exact ⟨habsorb.entries, habsorb.nextId⟩
  | consumeAck =>
    change Listed w (World.consumeAck link c (w.absorb link c.acts)).2
    unfold World.consumeAck
    split_ifs <;> exact ⟨habsorb.entries, habsorb.nextId⟩
  | readPacketFromWire timeout =>
    change Listed w (World.readPacket link c (w.absorb link c.acts)).2
    unfold World.readPacket
    split_ifs <;> exact ⟨habsorb.entries, habsorb.nextId⟩
  | connect =>
    change Listed w (World.connect link c (w.absorb link c.acts)).2
    unfold World.connect
    split_ifs <;> exact ⟨habsorb.entries, habsorb.nextId⟩
  | markRunning =>
    change Listed w (if _ then {w with state := .connectedRunning} else w)
    split_ifs <;> exact ⟨rfl, le_rfl⟩
  | markPaused =>
    change Listed w (if _ then {w with state := .connectedPaused} else w)
    split_ifs <;> exact ⟨rfl, le_rfl⟩
  | close =>
    change Listed w (if _ then w.closed link else w)
    split_ifs <;> exact ⟨rfl, le_rfl⟩
  | allocBpId => exact ⟨rfl, Nat.le_succ w.nextId⟩
  | appendLog bpId capture raw =>
    exact ⟨map_entry_amend (f := fun spec => {spec with log := spec.log ++ [capture]}) (fun _ => rfl)
      bpId w.breakpoints, le_rfl⟩
  | _ => first
    | exact ho.elim
    | exact ⟨rfl, le_rfl⟩
    | exact ⟨habsorb.entries, habsorb.nextId⟩

/-- Only an assignment of the session state disconnects. -/
theorem connected_step {o : Op τ} (ho : ∀ state, o ≠ .setState state) (c : Choice τ N)
    (hw : w.state.isConnected = true) : (World.step link o c w).2.state.isConnected = true := by
  have habsorb : (w.absorb link c.acts).state.isConnected = true := by
    rw [World.absorb_state]
    exact hw
  cases o with
  | setState state => exact absurd rfl (ho state)
  | send message =>
    change (World.send link message c (w.absorb link c.acts)).2.state.isConnected = true
    unfold World.send
    split_ifs <;> exact habsorb
  | consumeAck =>
    change (World.consumeAck link c (w.absorb link c.acts)).2.state.isConnected = true
    unfold World.consumeAck
    split_ifs <;> exact habsorb
  | readPacketFromWire timeout =>
    change (World.readPacket link c (w.absorb link c.acts)).2.state.isConnected = true
    unfold World.readPacket
    split_ifs <;> exact habsorb
  | connect =>
    change (World.connect link c (w.absorb link c.acts)).2.state.isConnected = true
    unfold World.connect
    split_ifs <;> exact habsorb
  | markRunning =>
    change (if _ then {w with state := SessionState.connectedRunning} else w).state.isConnected = true
    split_ifs
    · rfl
    · exact hw
  | markPaused =>
    change (if _ then {w with state := SessionState.connectedPaused} else w).state.isConnected = true
    split_ifs
    · rfl
    · exact hw
  | close =>
    change (if _ then w.closed link else w).state.isConnected = true
    split_ifs <;> exact hw
  | _ => first
    | exact hw
    | exact habsorb

end Steps

section Invariants

variable {τ N L : Type} {link : Link τ N L} {before : List BreakpointSpec} {bpId : ℕ}
  {w v : World τ L} {o : Op τ}

/-- The registry lists what it listed before. -/
structure Unchanged (before : List BreakpointSpec) (w : World τ L) : Prop where
  /-- The entries are those from before. -/
  entries : entries w = before
  /-- Their ids have been handed out. -/
  handedOut : ∀ spec ∈ before, spec.bpId < w.nextId

/-- The same in a connected session. -/
structure Ready (before : List BreakpointSpec) (w : World τ L) : Prop extends Unchanged before w where
  /-- The session is connected. -/
  connected : w.state.isConnected = true

/-- A new id has been handed out in a connected session. -/
structure Allocated (before : List BreakpointSpec) (bpId : ℕ) (w : World τ L) : Prop extends
    Ready before w where
  /-- The id is a new one. -/
  older : ∀ spec ∈ before, spec.bpId < bpId
  /-- It has been handed out. -/
  allocated : bpId < w.nextId

/-- One more entry has been listed in a connected session. -/
structure Temporary (before : List BreakpointSpec) (bpId : ℕ) (w : World τ L) : Prop where
  /-- The session is connected. -/
  connected : w.state.isConnected = true
  /-- The id is a new one. -/
  older : ∀ spec ∈ before, spec.bpId < bpId
  /-- It has been handed out. -/
  allocated : bpId < w.nextId
  /-- Its entry is the last one. -/
  entries : ∃ spec, spec.bpId = bpId ∧ entries w = before ++ [spec]

/-- That nothing has changed yet says that the ids are numbered. -/
theorem unchanged_iff : Unchanged (entries w) w ↔ Numbered w := by
  constructor
  · exact fun h spec hspec => h.handedOut (entry spec) (List.mem_map_of_mem hspec)
  · intro h
    refine ⟨rfl, fun spec hspec => ?_⟩
    obtain ⟨registered, hmem, rfl⟩ := List.mem_map.mp hspec
    exact h registered hmem

/-- Ids that were handed out stay handed out. -/
theorem Unchanged.numbered (h : Unchanged before w) : Numbered w :=
  unchanged_iff.mp ⟨rfl, h.entries ▸ h.handedOut⟩

/-- Where the entries stay, what was unchanged is. -/
theorem Listed.unchanged (h : Listed w v) (hw : Unchanged before w) : Unchanged before v where
  entries := h.entries.trans hw.entries
  handedOut spec hspec := (hw.handedOut spec hspec).trans_le h.nextId

/-- What leaves the session state alone does not assign it. -/
theorem not_setState_of_leaves (ho : leaves false o) (state : SessionState) : o ≠ .setState state :=
  fun h => by rw [h] at ho; exact ho

/-- Such accesses change no entry. -/
theorem unchanged_step {assigns : Bool} (ho : leaves assigns o) (c : Choice τ N)
    (hw : Unchanged before w) : Unchanged before (World.step link o c w).2 :=
  (listed_step ho c w).unchanged hw

/-- Neither does an assignment of the session state. -/
theorem unchanged_setState (state : SessionState) (c : Choice τ N) (hw : Unchanged before w) :
    Unchanged before (World.step link (.setState state) c w).2 :=
  ⟨hw.entries, hw.handedOut⟩

/-- Accesses that do not assign it keep the session connected. -/
theorem ready_step (ho : leaves false o) (c : Choice τ N) (hw : Ready before w) :
    Ready before (World.step link o c w).2 :=
  ⟨unchanged_step ho c hw.toUnchanged, connected_step (not_setState_of_leaves ho) c hw.connected⟩

/-- They take back no id. -/
theorem allocated_step (ho : leaves false o) (c : Choice τ N) (hw : Allocated before bpId w) :
    Allocated before bpId (World.step link o c w).2 :=
  ⟨ready_step ho c hw.toReady, hw.older, hw.allocated.trans_le (listed_step ho c w).nextId⟩

/-- They leave the temporary entry in place. -/
theorem temporary_step (ho : leaves false o) (c : Choice τ N) (hw : Temporary before bpId w) :
    Temporary before bpId (World.step link o c w).2 := by
  have hlisted : Listed w (World.step link o c w).2 := listed_step ho c w
  obtain ⟨spec, hspec, hentries⟩ := hw.entries
  exact ⟨connected_step (not_setState_of_leaves ho) c hw.connected, hw.older,
    hw.allocated.trans_le hlisted.nextId, spec, hspec, hlisted.entries.trans hentries⟩

/-- Changes to the temporary entry itself. -/
theorem temporary_amend {f : BreakpointSpec → BreakpointSpec} (hid : ∀ spec, (f spec).bpId = spec.bpId)
    (hf : ∀ spec, entry (f spec) = f (entry spec)) (hw : Temporary before bpId w) :
    Temporary before bpId {w with breakpoints := amend bpId f w.breakpoints} := by
  obtain ⟨spec, hspec, hentries⟩ := hw.entries
  refine ⟨hw.connected, hw.older, hw.allocated, f spec, (hid spec).trans hspec, ?_⟩
  have hlisted : w.breakpoints.map entry = before ++ [spec] := hentries
  change (amend bpId f w.breakpoints).map entry = before ++ [f spec]
  rw [map_entry_amend_comm hf, hlisted, amend_newest hw.older hspec]

/-- Accesses that change no entry but the one with an id. -/
def minds (bpId : ℕ) (o : Op τ) : Prop :=
  leaves false o ∨ (∃ captures, o = .setCaptures bpId captures) ∨
    ∃ enabled, o = .setAutoContinue bpId enabled

/-- So do those that capture at the temporary entry alone. -/
theorem temporary_minding (ho : minds bpId o) (c : Choice τ N) (hw : Temporary before bpId w) :
    Temporary before bpId (World.step link o c w).2 := by
  rcases ho with ho | ⟨captures, rfl⟩ | ⟨enabled, rfl⟩
  · exact temporary_step ho c hw
  · exact temporary_amend (f := fun spec => {spec with captures := captures}) (fun _ => rfl)
      (fun _ => rfl) hw
  · exact temporary_amend (f := fun spec => {spec with autoContinue := enabled}) (fun _ => rfl)
      (fun _ => rfl) hw

/-- A new id is above every registered one. -/
theorem allocated_alloc (c : Choice τ N) (hw : Ready before w) :
    Allocated before (World.step link .allocBpId c w).1 (World.step link .allocBpId c w).2 where
  toReady := ready_step (o := .allocBpId) trivial c hw
  older := hw.handedOut
  allocated := Nat.lt_succ_self w.nextId

/-- Registering under a new id adds one entry. -/
theorem temporary_register (spec : BreakpointSpec) (c : Choice τ N) (hw : Allocated before spec.bpId w) :
    Temporary before spec.bpId (World.step link (.registerBp spec) c w).2 := by
  have hlisted : w.breakpoints.map entry = before := hw.toUnchanged.entries
  have hnew : ∀ old ∈ w.breakpoints, old.bpId < spec.bpId := fun old hold =>
    hw.older (entry old) (hlisted ▸ List.mem_map_of_mem hold)
  refine ⟨hw.connected, hw.older, hw.allocated, entry spec, rfl, ?_⟩
  change (register spec w.breakpoints).map entry = before ++ [entry spec]
  rw [register_newest hnew, List.map_append, hlisted]
  rfl

/-- Unregistering the temporary entry restores the registry. -/
theorem unchanged_unregister (c : Choice τ N) (hw : Temporary before bpId w) :
    Unchanged before (World.step link (.unregisterBp bpId) c w).2 := by
  obtain ⟨spec, hspec, hentries⟩ := hw.entries
  refine ⟨?_, fun old hold => (hw.older old hold).trans hw.allocated⟩
  have hlisted : w.breakpoints.map entry = before ++ [spec] := hentries
  change (unregister bpId w.breakpoints).map entry = before
  rw [map_entry_unregister, hlisted, unregister_newest hw.older hspec]

end Invariants

section Background

variable {τ N L : Type} {link : Link τ N L} {before : List BreakpointSpec} {bpId : ℕ}
  {I : World τ L → Prop}

/-- What changes no breakpoint leaves the entries alone. -/
theorem leaves_of_restrained {assigns marks locks : Bool} {sends : Sent → Prop} {o : Op τ}
    (ho : restrained assigns marks locks sends o) : leaves assigns o := by
  cases o <;> first | exact ho | trivial

/-- What leaves the session state alone is allowed where it may be assigned. -/
theorem leaves_mono {o : Op τ} (ho : leaves false o) : leaves true o := by
  cases o <;> first | exact ho | trivial

/-- Probes leave both alone. -/
theorem leaves_of_probes {o : Op τ} (ho : probes o) : leaves false o := by
  cases o <;> trivial

/-- Code that changes no breakpoint leaves the entries alone. -/
theorem uses_leaves {α : Type} {assigns : Bool} {p : Code τ α}
    (hp : p.Uses (restrained assigns true true fun _ => True)) : p.Uses (leaves assigns) :=
  hp.mono fun _ => leaves_of_restrained

/-- A tick finds a connected session and does nothing. -/
theorem tick_connected {w v : World τ L} {r : Except PyError Unit} (hw : w.state.isConnected = true)
    (h : autoConnectTick.Reaches (machine link) w r v) : v = w := by
  obtain ⟨_, _, hrest⟩ := h
  change (if w.state = .disconnected then _ else pure () : Code τ Unit).Reaches (machine link) w r v
    at hrest
  rw [if_neg (fun hstate => by rw [hstate] at hw; simp [SessionState.isConnected] at hw)] at hrest
  exact hrest.2

/-- What single accesses keep in a connected session, the background threads keep. -/
theorem stable_meanwhile (hconnected : ∀ w, I w → w.state.isConnected = true)
    (hstep : ∀ o (c : Choice τ N) w, leaves false o → I w → I (World.step link o c w).2) :
    Stable (meanwhile link) I := by
  intro w v hw hsteps
  induction hsteps with
  | refl => exact hw
  | tail _ hlast ih =>
    rcases hlast with ⟨o, c, ho, rfl⟩ | ⟨r, htick⟩
    · exact hstep o c _ ho ih
    · rw [tick_connected (hconnected _ ih) htick]
      exact ih

/-- What single accesses keep even when they assign the session state. -/
theorem stable_leaving
    (hstep : ∀ o (c : Choice τ N) w, leaves true o → I w → I (World.step link o c w).2) :
    Stable (meanwhile link) I := by
  have htick : (autoConnectTick : Code τ Unit).Uses (leaves true) := by
    refine uses_then trivial fun state => ?_
    split_ifs
    · exact Program.uses_handle (uses_leaves (uses_ensureConnected trivial trivial)) fun _ => trivial
    · trivial
  intro w v hw hsteps
  induction hsteps with
  | refl => exact hw
  | tail _ hlast ih =>
    rcases hlast with ⟨o, c, ho, rfl⟩ | ⟨r, hreaches⟩
    · exact hstep o c _ (leaves_mono ho) ih
    · exact Program.reaches_of_wp (Program.wp_of_uses (I := I)
        (fun o c w ho _ hu => hstep o c w ho hu) htick ih) hreaches

/-- The background threads change no entry. -/
theorem stable_unchanged : Stable (meanwhile link) (Unchanged before) :=
  stable_leaving fun _ c _ ho hw => unchanged_step ho c hw

/-- They keep a connected session connected. -/
theorem stable_ready : Stable (meanwhile link) (Ready before) :=
  stable_meanwhile (fun _ h => h.connected) fun _ c _ ho hw => ready_step ho c hw

/-- They take back no id. -/
theorem stable_allocated : Stable (meanwhile link) (Allocated before bpId) :=
  stable_meanwhile (fun _ h => h.connected) fun _ c _ ho hw => allocated_step ho c hw

/-- They leave the temporary entry in place. -/
theorem stable_temporary : Stable (meanwhile link) (Temporary before bpId) :=
  stable_meanwhile (fun _ h => h.connected) fun _ c _ ho hw => temporary_step ho c hw

end Background

section Programs

variable {τ N L α : Type} {link : Link τ N L} {before : List BreakpointSpec} {bpId : ℕ}
  {I G E : World τ L → Prop}

/-- From one property of the current world to a second one, or to a third by raising. -/
abbrev Leads (link : Link τ N L) (I : World τ L → Prop) (p : Code τ α) (G : α → World τ L → Prop)
    (E : World τ L → Prop) : Prop :=
  p.Triple (busy link) (fun x => I x.1) (fun a x => G a x.1) fun x => E x.1

/-- A property of the current world that code keeps next to the background threads. -/
abbrev Holds (link : Link τ N L) (I : World τ L → Prop) (p : Code τ α) : Prop :=
  p.Keeps (busy link) fun x => I x.1

/-- What accesses and background threads keep, code keeps. -/
theorem holds_of_uses (hstable : Stable (meanwhile link) I) {P : Op τ → Prop}
    (hstep : ∀ o (c : Choice τ N) w, P o → I w → I (World.step link o c w).2) {p : Code τ α}
    (hp : p.Uses P) : Holds link I p :=
  keeps_interleaved hstable (fun o c w ho _ hw => hstep o c w ho hw) hp

/-- Code that changes no breakpoint leaves the entries as they were. -/
theorem holds_unchanged {p : Code τ α} (hp : p.Uses (leaves true)) : Holds link (Unchanged before) p :=
  holds_of_uses stable_unchanged (fun _ c _ ho hw => unchanged_step ho c hw) hp

/-- If it assigns no state either, the session stays connected. -/
theorem holds_ready {p : Code τ α} (hp : p.Uses (leaves false)) : Holds link (Ready before) p :=
  holds_of_uses stable_ready (fun _ c _ ho hw => ready_step ho c hw) hp

/-- Code that captures at the temporary entry alone keeps it in place. -/
theorem holds_temporary {p : Code τ α} (hp : p.Uses (minds bpId)) :
    Holds link (Temporary before bpId) p :=
  holds_of_uses stable_temporary (fun _ c _ ho hw => temporary_minding ho c hw) hp

/-- What is ready stays ready, and is unchanged when an error leaves it. -/
theorem leads_ready {p : Code τ α} (hp : p.Uses (leaves false)) :
    Leads link (Ready before) p (fun _ => Ready before) (Unchanged before) :=
  (holds_ready hp).triple.mono (fun _ _ h => h) fun _ h => h.toUnchanged

/-- An access leads to what it establishes. -/
theorem leads_access (hstable : Stable (meanwhile link) I) {o : Op τ} {H : o.Answer → World τ L → Prop}
    (hstep : ∀ (c : Choice τ N) w, I w → H (World.step link o c w).1 (World.step link o c w).2) :
    Leads link I (access o) H E :=
  triple_interleaved hstable fun c w _ hw => hstep c w hw

/-- A connected session is not connected again. -/
theorem leads_ensureConnected (hstable : Stable (meanwhile link) I)
    (hconnected : ∀ w, I w → w.state.isConnected = true) :
    Leads link I ensureConnected (fun _ => I) E := by
  rintro x hx ⟨c, w⟩ ⟨hothers, -⟩
  have hw : I w := hstable _ _ hx hothers
  change (if w.state.isConnected = true then pure () else _ : Code τ Unit).wp (busy link) _ _
  rw [if_pos (hconnected w hw)]
  exact hw

/-- A failed handshake is reported as an error. -/
theorem leads_reportUnreachable (e : PyError) :
    Leads link (Unchanged before) (reportUnreachable e) (fun _ => Ready before) (Unchanged before) := by
  unfold reportUnreachable
  split_ifs
  · refine Program.triple_bind
      (holds_unchanged (uses_access (o := .setState .disconnected) trivial)).triple fun _ => ?_
    exact Program.triple_raise fun _ h => h
  · exact Program.triple_raise fun _ h => h

/-- A handshake leads to a connected session. -/
theorem leads_handshake : Leads link (Unchanged before) handshake (fun _ => Ready before)
    (Unchanged before) := by
  refine Program.triple_bind (holds_unchanged (uses_connect trivial)).triple fun _ => ?_
  have hwhy : (cmd .whyHalted : Code τ (Packet τ)).Uses (leaves true) := uses_leaves (uses_cmd trivial)
  refine Program.triple_bind (holds_unchanged hwhy).triple fun _ => ?_
  exact leads_access stable_unchanged fun c w hw => ⟨unchanged_setState _ c hw, rfl⟩

/-- Resuming on connect keeps it connected. -/
theorem holds_resumeOnConnect : Holds link (Ready before) resumeOnConnect := by
  have hparts := Program.keeps_compositional (ε := PyError) (busy link) fun x => Ready before x.1
  refine hparts.bind (holds_ready (uses_access trivial)) fun enabled => ?_
  split_ifs
  · refine hparts.handle (hparts.bind (holds_ready (uses_locked trivial trivial ?_)) fun _ => ?_)
      fun _ => hparts.done ()
    · exact uses_leaves (uses_continueAsync trivial)
    · exact Program.Triple.keeps (leads_access stable_ready fun c w hw =>
        ⟨unchanged_setState _ c hw.toUnchanged, rfl⟩)
  · exact hparts.done ()

/-- After a connection that did not fail the session is ready. -/
theorem leads_connecting : Leads link (Unchanged before) ensureConnected (fun _ => Ready before)
    (Unchanged before) := by
  refine Program.triple_bind (leads_access (o := .getState)
    (H := fun state w => Unchanged before w ∧ w.state = state) stable_unchanged
    fun _ _ hw => ⟨hw, rfl⟩) fun state => ?_
  by_cases hstate : state.isConnected = true
  · rw [if_pos hstate]
    exact Program.triple_done fun x hx => ⟨hx.1, hx.2 ▸ hstate⟩
  · rw [if_neg hstate]
    refine Program.triple_bind (G := fun _ x => Ready before x.1) (fun x hx => ?_) fun _ => ?_
    · exact Program.triple_handle leads_handshake leads_reportUnreachable x hx.1
    · refine Program.triple_bind (leads_ready (uses_access trivial)) fun _ => ?_
      exact holds_resumeOnConnect.triple.mono (fun _ _ h => h) fun _ h => h.toUnchanged

/-- A body that holds the lock. -/
theorem leads_locked (hI : Stable (meanwhile link) I) (hG : Stable (meanwhile link) G)
    (hE : Stable (meanwhile link) E) {body : Code τ α} (hbody : Leads link I body (fun _ => G) E) :
    Leads link I (locked body) (fun _ => G) E := by
  refine Program.triple_bind (leads_access (o := .acquire) (H := fun _ => I) hI fun _ _ hw => hw)
    fun _ => ?_
  exact Program.triple_ensuring hbody
    (fun _ => leads_access (o := .release) (H := fun _ => G) hG fun _ _ hw => hw)
    (leads_access (o := .release) (H := fun _ => E) hE fun _ _ hw => hw)

/-- Pausing for a change keeps the session connected, or raises. -/
theorem leads_pauseForModify : Leads link (Ready before) pauseForModify (fun _ => Ready before)
    (Unchanged before) := by
  have hprobe : (probeResponsive 500 : Code τ Bool).Uses (leaves false) :=
    uses_probe (fun _ => leaves_of_probes) (fun _ => trivial) 500
  refine Program.triple_bind (leads_ready hprobe) fun responsive => ?_
  split_ifs
  · refine leads_ready (Program.uses_bind (uses_leaves (uses_quiesceForModify trivial trivial)) fun _ => ?_)
    exact Program.uses_bind (uses_drainStopReplies trivial trivial trivial) fun _ => uses_access trivial
  · refine Program.triple_bind (G := fun _ x => Unchanged before x.1)
      (leads_access stable_ready fun c w hw => ?_) fun _ => Program.triple_raise fun _ h => h
    exact unchanged_setState _ c hw.toUnchanged

/-- A modification leaves a session ready unless it raises. -/
theorem leads_safeToModify {body : Code τ α} (hbody : body.Uses (leaves false)) :
    Leads link (Ready before) (safeToModify body) (fun _ => Ready before) (Unchanged before) := by
  refine leads_locked stable_ready stable_ready stable_unchanged ?_
  refine Program.triple_bind (leads_ready (uses_access trivial)) fun state => ?_
  split_ifs
  · refine Program.triple_bind leads_pauseForModify fun _ => leads_ready ?_
    exact Program.uses_ensuring hbody (uses_leaves (uses_resumeAfterModify trivial))
  · exact leads_ready hbody

/-- A new entry is registered in a ready session. -/
theorem leads_registerNew (addr : ℤ) (kind : BpKind) (size : ℤ) :
    Leads link (Ready before) (registerNew addr kind size) (fun bpId => Temporary before bpId)
      (Unchanged before) := by
  refine Program.triple_bind (leads_access (o := .allocBpId) stable_ready
    fun c _ hw => allocated_alloc c hw) fun bpId => ?_
  let spec : BreakpointSpec := {bpId := bpId, addr := addr, kind := kind, size := size}
  refine Program.triple_bind (leads_access (o := .registerBp spec)
    (H := fun _ => Temporary before bpId) stable_allocated
    fun c _ hw => temporary_register spec c hw) fun _ => ?_
  exact Program.triple_done fun _ h => h

/-- Adding a breakpoint adds one entry, or raises and adds none. -/
theorem leads_addBreakpoint (addr : ℤ) : Leads link (Unchanged before) (addBreakpoint addr)
    (fun bpId => Temporary before bpId) (Unchanged before) := by
  refine Program.triple_bind leads_connecting fun _ => ?_
  refine Program.triple_bind (leads_safeToModify (uses_leaves (uses_setBreak trivial))) fun _ => ?_
  exact leads_registerNew addr .swBp 4

/-- So does adding a watchpoint. -/
theorem leads_addWatchpoint (addr size : ℤ) (on : String) :
    Leads link (Unchanged before) (addWatchpoint addr size on) (fun bpId => Temporary before bpId)
      (Unchanged before) := by
  refine Program.triple_bind leads_connecting fun _ => ?_
  refine Program.triple_bind (leads_safeToModify (Program.uses_bind
    (Program.uses_ofExcept (S := signature τ) _ _) fun kind => Program.uses_bind ?_ fun _ => trivial))
    fun kind => ?_
  · exact uses_leaves (uses_setBreak trivial)
  · exact leads_registerNew addr kind size

/-- The cleanup takes the entry out of the registry, whatever fails. -/
theorem leads_remove : Leads link (Temporary before bpId) (remove bpId) (fun _ => Unchanged before)
    (Unchanged before) := by
  refine Program.triple_bind (leads_ensureConnected stable_temporary fun _ hw => hw.connected) fun _ => ?_
  refine Program.triple_bind (leads_access (o := .unregisterBp bpId)
    (H := fun _ => Unchanged before) stable_temporary fun c _ hw => unchanged_unregister c hw)
    fun found => ?_
  cases found with
  | none => exact Program.triple_done fun _ h => h
  | some spec =>
    have hdelete : (deleteFromStub spec : Code τ Unit).Uses (leaves true) :=
      uses_leaves (uses_deleteFromStub spec trivial trivial trivial fun _ _ _ => trivial)
    have hdone : ((deleteFromStub spec).bind fun _ => .done true : Code τ Bool).Uses (leaves true) :=
      Program.uses_bind hdelete fun _ => trivial
    exact (holds_unchanged hdone).triple

end Programs

section Tools

variable {τ N L α : Type} {link : Link τ N L} {before : List BreakpointSpec} {bpId : ℕ}
  {I : World τ L → Prop}

/-- Reading the session leaves it alone. -/
theorem leaves_of_reading {o : Op τ} (ho : isReading o = true) : leaves false o := by
  cases o <;> trivial

/-- Calls that change no breakpoint, given what connecting does. -/
theorem calls_of_leaves (hquiet : ∀ {β : Type} {p : Code τ β}, p.Uses (leaves false) → Holds link I p)
    (hconnecting : Holds link I ensureConnected) : Calls fun _ (p : Code τ _) => Holds link I p where
  parts := Program.keeps_compositional _ _
  session _ ho := hquiet (uses_access (leaves_of_reading ho))
  connecting := hconnecting
  readMem addr size := hquiet (uses_leaves (uses_readMem addr size trivial))
  register regnum := hquiet (uses_locked trivial trivial (uses_leaves (uses_readRegister regnum trivial)))
  resuming := hquiet (uses_locked trivial trivial (uses_leaves (uses_resumeLocked trivial)))
  stepping := hquiet (uses_locked trivial trivial (uses_leaves (uses_stepLocked trivial)))
  awaiting timeout := hquiet (uses_leaves (uses_awaitStop timeout))
  awaitingTarget timeout := hquiet (uses_locked trivial trivial (uses_leaves (uses_awaitTarget timeout)))

/-- Calls that change no breakpoint leave the entries as they were. -/
theorem calls_unchanged : Calls fun _ (p : Code τ _) => Holds link (Unchanged before) p :=
  calls_of_leaves (fun hp => holds_unchanged (hp.mono fun _ => leaves_mono))
    (holds_unchanged (uses_leaves (uses_ensureConnected trivial trivial)))

/-- They leave the temporary entry in place. -/
theorem calls_temporary : Calls fun _ (p : Code τ _) => Holds link (Temporary before bpId) p :=
  calls_of_leaves (fun hp => holds_temporary (hp.mono fun _ => Or.inl))
    (leads_ensureConnected stable_temporary fun _ hw => hw.connected).keeps

/-- A body run under a temporary breakpoint. -/
theorem holds_withTemporary (addr : ℤ) {body : Code τ α}
    (hbody : ∀ bpId, Holds link (Temporary before bpId) body) :
    Holds link (Unchanged before) (withTemporary addr body) := by
  refine Program.Triple.keeps (Program.triple_bind (leads_addBreakpoint addr) fun bpId => ?_)
  have hremove : Leads link (Temporary before bpId)
      (Program.handle (do let _ ← remove bpId) fun _ => pure ()) (fun _ => Unchanged before)
      (Unchanged before) := by
    refine Program.triple_handle (Program.triple_bind leads_remove fun _ => ?_) fun _ => ?_
    · exact Program.triple_done fun _ h => h
    · exact Program.triple_done fun _ h => h
  exact Program.triple_ensuring (hbody bpId).triple (fun _ => hremove) hremove

/-- So does capturing at it. -/
theorem holds_captureOnHit (captures : Option (List String)) (autoResume : Bool) :
    Holds link (Temporary before bpId) (captureOnHit bpId captures autoResume) := by
  have hcalls : Calls fun _ (p : Code τ _) => Holds link (Temporary before bpId) p := calls_temporary
  refine hcalls.parts.bind hcalls.connecting fun _ => ?_
  refine hcalls.parts.bind (hcalls.session .getBreakpoints rfl) fun _ => ?_
  split_ifs
  · exact hcalls.parts.raise _
  · refine hcalls.parts.bind (hcalls.parts.ofExcept _) fun keys => ?_
    refine hcalls.parts.bind (holds_temporary (uses_access (Or.inr (Or.inl ⟨keys, rfl⟩)))) fun _ => ?_
    refine hcalls.parts.bind (holds_temporary (uses_access (Or.inr (Or.inr ⟨true, rfl⟩)))) fun _ => ?_
    refine hcalls.parts.bind (hcalls.session .getState rfl) fun state => ?_
    split_ifs
    · have hresume : (resumeLocked : Code τ Unit).Uses (minds bpId) :=
        (uses_leaves (uses_resumeLocked trivial)).mono fun _ => Or.inl
      have hmarked : Holds link (Temporary before bpId) resumeLocked := holds_temporary hresume
      have hboth := hcalls.parts.bind hmarked fun _ => hcalls.ensureWatcherRunning
      simp only [resumeLocked, Program.bind_eq, Program.bind_assoc] at hboth
      exact hboth
    · exact hcalls.ensureWatcherRunning

/-- Capturing is stopped for the temporary entry only. -/
theorem holds_stopCapturing : Holds link (Temporary before bpId) (stopCapturing (some bpId)) := by
  have hcalls : Calls fun _ (p : Code τ _) => Holds link (Temporary before bpId) p := calls_temporary
  refine hcalls.parts.bind (hcalls.session .getBreakpoints rfl) fun breakpoints => ?_
  unfold affectedBy
  dsimp only
  split_ifs
  · exact hcalls.parts.raise _
  · have hclear : (clearAutoContinue [bpId] : Code τ Unit).Uses (minds bpId) :=
      uses_then (Or.inr (Or.inr ⟨false, rfl⟩)) fun _ => trivial
    have hrest : Holds link (Temporary before bpId) (do
        clearAutoContinue [bpId]
        if !anyAutoContinue (← access .getBreakpoints) then stopWatcher
        pure [bpId]) := by
      refine hcalls.parts.bind (holds_temporary hclear) fun _ => ?_
      refine hcalls.parts.bind (hcalls.session .getBreakpoints rfl) fun _ => ?_
      split_ifs
      · exact hcalls.parts.bind hcalls.stopWatcher fun _ => hcalls.parts.done _
      · exact hcalls.parts.done _
    exact hrest

/-- A trace leaves the entries as they were, whether it returns or raises. -/
theorem leads_traceHits (duration : ℕ) (captures : List String) :
    Leads link (Temporary before bpId) (traceHits bpId duration captures) (fun _ => Unchanged before)
      (Unchanged before) := by
  have hcalls : Calls fun _ (p : Code τ _) => Holds link (Temporary before bpId) p := calls_temporary
  have hcleanup : Leads link (Temporary before bpId)
      (do
        Program.handle (do let _ ← stopCapturing (some bpId)) fun _ => pure ()
        Program.handle (do let _ ← remove bpId) fun _ => pure ())
      (fun _ => Unchanged before) (Unchanged before) := by
    refine Program.triple_bind (G := fun _ x => Temporary before bpId x.1) ?_ fun _ => ?_
    · refine Program.triple_handle (E := fun x => Temporary before bpId x.1)
        (Program.triple_bind holds_stopCapturing.triple fun _ => ?_) fun _ => ?_
      · exact Program.triple_done fun _ h => h
      · exact Program.triple_done fun _ h => h
    · refine Program.triple_handle (Program.triple_bind leads_remove fun _ => ?_) fun _ => ?_
      · exact Program.triple_done fun _ h => h
      · exact Program.triple_done fun _ h => h
  have hbody := hcalls.parts.bind (holds_captureOnHit (some captures) true) fun _ =>
    hcalls.parts.bind (hcalls.session (.sleep duration) rfl) fun _ => hcalls.getCaptureLog bpId
  exact Program.triple_ensuring hbody.triple (fun _ => hcleanup) hcleanup

/-- Every tool leaves the registry as it was. -/
theorem holds_code (host : Host) (tool : Tool) : Holds link (Unchanged before) (tool.code host) := by
  have hcalls : Calls fun _ (p : Code τ _) => Holds link (Unchanged before) p := calls_unchanged
  have hrun : ∀ timeout, ∀ bpId, Holds link (Temporary before bpId) (runToStop host timeout) :=
    fun timeout _ => calls_temporary.runToStop host timeout
  have hdrop : ∀ {β : Type} {p : Code τ β}, Holds link (Unchanged before) p →
      Holds link (Unchanged before) (p.bind fun _ => Program.done ()) :=
    fun hp => hcalls.parts.bind hp fun _ => hcalls.parts.done ()
  cases tool with
  | stepOver =>
    refine hdrop (hcalls.parts.bind hcalls.connecting fun _ => ?_)
    refine hcalls.parts.bind (hcalls.refuseIfWatcherRunning _) fun _ => ?_
    refine hcalls.parts.bind (hcalls.getRegister _ _ _) fun pc => ?_
    refine hcalls.parts.bind (hcalls.disasmOneAt host _) fun insn => ?_
    cases insn with
    | none => exact hcalls.parts.raise _
    | some insn =>
      dsimp only
      split_ifs
      · exact holds_withTemporary _ (hrun 10000)
      · exact hcalls.step host
  | stepOut =>
    refine hdrop (hcalls.parts.bind hcalls.connecting fun _ => ?_)
    refine hcalls.parts.bind (hcalls.refuseIfWatcherRunning _) fun _ => ?_
    refine hcalls.parts.bind (hcalls.getRegister _ _ _) fun lr => ?_
    exact holds_withTemporary _ (hrun 30000)
  | runUntil addr timeout =>
    refine hdrop (hcalls.parts.bind hcalls.connecting fun _ => ?_)
    refine hcalls.parts.bind (hcalls.refuseIfWatcherRunning _) fun _ => ?_
    exact holds_withTemporary addr fun _ => calls_temporary.runUntilBody addr timeout
  | traceWritesTo addr size duration captures =>
    refine hdrop (hcalls.parts.bind (hcalls.parts.ofExcept _) fun duration => Program.Triple.keeps ?_)
    exact Program.triple_bind (leads_addWatchpoint addr size "write") fun _ => leads_traceHits _ _
  | traceCallsTo entryAddr duration captures =>
    refine hdrop (hcalls.parts.bind (hcalls.parts.ofExcept _) fun duration => Program.Triple.keeps ?_)
    exact Program.triple_bind (leads_addBreakpoint entryAddr) fun _ => leads_traceHits _ _

end Tools

section Numbering

variable {τ N L : Type} {link : Link τ N L} {w : World τ L} {bpId : ℕ}

/-- All registered ids have been handed out, and so has one more. -/
def HandedOut (bpId : ℕ) (w : World τ L) : Prop := Numbered w ∧ bpId < w.nextId

/-- Amended entries keep their ids. -/
theorem numbered_amend {f : BreakpointSpec → BreakpointSpec} (hid : ∀ spec, (f spec).bpId = spec.bpId)
    (hw : Numbered w) : Numbered {w with breakpoints := amend bpId f w.breakpoints} := by
  intro spec hspec
  obtain ⟨old, hold, rfl⟩ := List.mem_map.mp hspec
  have hlt : old.bpId < w.nextId := hw old hold
  split_ifs
  · rw [hid]
    exact hlt
  · exact hlt

/-- Only registering can bring in an id. -/
theorem numbered_step {o : Op τ} (ho : ∀ spec, o ≠ .registerBp spec) (c : Choice τ N) (hw : Numbered w) :
    Numbered (World.step link o c w).2 := by
  have hleaves : leaves true o → Numbered (World.step link o c w).2 := fun h =>
    (unchanged_step h c (unchanged_iff.mpr hw)).numbered
  cases o with
  | registerBp spec => exact absurd rfl (ho spec)
  | unregisterBp bpId => exact fun spec hspec => hw spec (List.mem_of_mem_filter hspec)
  | clearBreakpoints => exact fun spec hspec => absurd hspec List.not_mem_nil
  | setCaptures bpId captures =>
    exact numbered_amend (f := fun spec => {spec with captures := captures}) (fun _ => rfl) hw
  | setAutoContinue bpId enabled =>
    exact numbered_amend (f := fun spec => {spec with autoContinue := enabled}) (fun _ => rfl) hw
  | _ => exact hleaves trivial

/-- No access takes an id back. -/
theorem handedOut_step {o : Op τ} (ho : leaves true o) (c : Choice τ N) (hw : HandedOut bpId w) :
    HandedOut bpId (World.step link o c w).2 :=
  ⟨(unchanged_step ho c (unchanged_iff.mpr hw.1)).numbered, hw.2.trans_le (listed_step ho c w).nextId⟩

/-- An id that has been handed out may be registered. -/
theorem numbered_register (spec : BreakpointSpec) (c : Choice τ N) (hw : HandedOut spec.bpId w) :
    Numbered (World.step link (.registerBp spec) c w).2 := by
  intro other hother
  have hmem : other ∈ register spec w.breakpoints := hother
  unfold register at hmem
  split_ifs at hmem
  · obtain ⟨old, hold, rfl⟩ := List.mem_map.mp hmem
    split_ifs
    · exact hw.2
    · exact hw.1 old hold
  · rcases List.mem_append.mp hmem with hmem | hmem
    · exact hw.1 other hmem
    · rw [List.mem_singleton.mp hmem]
      exact hw.2

/-- The background threads register nothing. -/
theorem stable_numbered : Stable (meanwhile link) Numbered :=
  stable_leaving fun _ c _ ho hw => (unchanged_step ho c (unchanged_iff.mpr hw)).numbered

/-- Neither does code without registrations. -/
theorem holds_numbered {α : Type} {p : Code τ α} (hp : p.Uses fun o : Op τ => ∀ spec, o ≠ .registerBp spec) :
    Holds link Numbered p :=
  holds_of_uses stable_numbered (fun _ c _ ho hw => numbered_step ho c hw) hp

/-- Nor code that leaves the entries alone. -/
theorem numbered_of_leaves {α : Type} {p : Code τ α} (hp : p.Uses (leaves true)) :
    Holds link Numbered p :=
  holds_numbered (hp.mono fun _ ho _ heq => by rw [heq] at ho; exact ho)

/-- Registering hands the id out first. -/
theorem numbered_registerNew (addr : ℤ) (kind : BpKind) (size : ℤ) :
    Holds link Numbered (registerNew addr kind size) := by
  refine Program.Triple.keeps (Program.triple_bind (leads_access (o := .allocBpId)
    (H := HandedOut) stable_numbered fun c w hw => ?_) fun bpId => ?_)
  · exact ⟨numbered_step (fun _ h => by simp at h) c hw, Nat.lt_succ_self w.nextId⟩
  · let spec : BreakpointSpec := {bpId := bpId, addr := addr, kind := kind, size := size}
    have hstable : Stable (meanwhile link) (HandedOut bpId) :=
      stable_leaving fun _ c _ ho hw => handedOut_step ho c hw
    refine Program.triple_bind (G := fun _ x => Numbered x.1) (fun x hx c hc => ?_) fun _ =>
      Program.triple_done fun _ h => h
    have hafter : Numbered (World.step link (.registerBp spec) c.1 c.2).2 :=
      numbered_register spec c.1 (hstable _ _ hx hc.1)
    exact hafter

/-- Adding a breakpoint keeps ids numbered. -/
theorem numbered_addBreakpoint (addr : ℤ) : Holds link Numbered (addBreakpoint addr) := by
  have hparts := Program.keeps_compositional (ε := PyError) (busy link) fun x => Numbered x.1
  refine hparts.bind (numbered_of_leaves (uses_leaves (uses_ensureConnected trivial trivial))) fun _ => ?_
  refine hparts.bind (numbered_of_leaves (uses_leaves (uses_safeToModify trivial trivial trivial
    (uses_setBreak trivial)))) fun _ => ?_
  exact numbered_registerNew addr .swBp 4

/-- So does adding a watchpoint. -/
theorem numbered_addWatchpoint (addr size : ℤ) (on : String) :
    Holds link Numbered (addWatchpoint addr size on) := by
  have hparts := Program.keeps_compositional (ε := PyError) (busy link) fun x => Numbered x.1
  refine hparts.bind (numbered_of_leaves (uses_leaves (uses_ensureConnected trivial trivial))) fun _ => ?_
  refine hparts.bind (numbered_of_leaves (uses_leaves (uses_safeToModify trivial trivial trivial ?_)))
    fun kind => numbered_registerNew addr kind size
  refine Program.uses_bind (Program.uses_ofExcept (S := signature τ) _ _) fun kind => ?_
  exact Program.uses_bind (uses_setBreak trivial) fun _ => trivial

/-- So does removing an entry. -/
theorem numbered_remove (bpId : ℕ) : Holds link Numbered (remove bpId) := by
  have hparts := Program.keeps_compositional (ε := PyError) (busy link) fun x => Numbered x.1
  refine hparts.bind (numbered_of_leaves (uses_leaves (uses_ensureConnected trivial trivial))) fun _ => ?_
  refine hparts.bind (holds_numbered (uses_access (o := .unregisterBp bpId) fun _ h => by simp at h))
    fun found => ?_
  cases found with
  | none => exact hparts.done false
  | some spec =>
    refine hparts.bind (numbered_of_leaves (uses_leaves ?_)) fun _ => hparts.done true
    exact uses_deleteFromStub spec trivial trivial trivial fun _ _ _ => trivial

/-- Every call keeps ids below the next one, so every session reached has them there. -/
theorem numbered_action (host : Host) (action : Action) : Holds link Numbered (action.code host) := by
  have hcalm : ∀ {α : Type} {p : Code τ α}, p.Uses calm → Holds link Numbered p := fun hp =>
    numbered_of_leaves (hp.mono fun _ => leaves_of_restrained)
  have hpieces : Pieces fun _ (p : Code τ _) => Holds link Numbered p :=
    pieces_of_calm (Program.keeps_compositional _ _)
      (fun o ho => holds_numbered (uses_access (o := o) fun spec heq => by simp [heq, isSession] at ho))
      hcalm
  refine action_of_changes hpieces numbered_addBreakpoint numbered_addWatchpoint numbered_remove
    (hpieces.captureOnHit (hcalm (uses_resumeLocked rfl))) host action fun _ => ?_
  have hprobe : (probeResponsive 500 : Code τ Bool).Uses calm := uses_probeResponsive (by rfl) 500
  exact hpieces.health (hcalm (uses_access trivial)) (hcalm (uses_locked trivial trivial hprobe))

end Numbering

section Theorem

variable {τ N L : Type} {link : Link τ N L} {host : Host}

/-- Temporary points never outlive their tool: from any session, whatever the
stub answers or fails to answer and whatever the background threads do, and
whether the tool returns or raises, the registry lists the same ids with the
same fields, and only recorded hits may have been added. -/
theorem temporaries_never_outlive (tool : Tool) {w v : World τ L} {r : Except PyError Unit}
    {passed : List (World τ L)} (hw : Numbered w)
    (h : (tool.code host : Code τ Unit).Reaches (busy link) (w, []) r (v, passed)) :
    entries v = entries w ∧ Numbered v := by
  have hafter : Unchanged (entries w) v :=
    Program.reaches_of_wp (holds_code host tool (w, []) (unchanged_iff.mpr hw)) h
  exact ⟨hafter.entries, hafter.numbered⟩

/-- The insertion is answered, the resume is acknowledged, and the connection is lost
before any stop arrives. -/
def lostWhileWaiting : List (Choice Origin TokenNet) :=
  [{net := default, response := [.ack (.reply 0), .frame okBody (.reply 0)]},
    {net := default}, {net := default},
    {net := default, response := [.ack (.reply 1)]}, {net := default},
    {net := ⟨none, .lost "socket closed mid-read", []⟩}]

/-- A watchpoint that captures. -/
def watched : BreakpointSpec :=
  {bpId := 1, addr := 0x80400000, kind := .writeWp, captures := [.gprs], autoContinue := true}

/-- A paused session with that watchpoint. -/
def watchedWorld : TokenWorld := {pausedWorld with breakpoints := [watched], nextId := 2}

/-- The connection is lost while `run_until` waits; the breakpoint is unregistered all the same. -/
theorem temporaries_never_outlive_lost : ∃ e v passed,
    ((Tool.runUntil 0x80003100 1000).code plainHost : Code Origin Unit).Reaches
      (busy (tokenLink Origin)) (watchedWorld, []) (.error (.connectionLost e)) (v, passed) ∧
      v.nextId = 3 ∧ entries v = entries watchedWorld ∧ Numbered v := by
  have hfollows : ((Tool.runUntil 0x80003100 1000).code plainHost : Code Origin Unit).Follows
      (machine (tokenLink Origin)) lostWhileWaiting watchedWorld := follows_machine _ _ _ _
  have hend : (((Tool.runUntil 0x80003100 1000).code plainHost : Code Origin Unit).run
      (machine (tokenLink Origin)) lostWhileWaiting watchedWorld).1 =
      .error (.connectionLost "socket closed mid-read") := by decide +kernel
  have hnext : (((Tool.runUntil 0x80003100 1000).code plainHost : Code Origin Unit).run
      (machine (tokenLink Origin)) lostWhileWaiting watchedWorld).2.1.nextId = 3 := by decide +kernel
  have hrefl : ∀ w : TokenWorld, meanwhile (tokenLink Origin) w w := fun _ => Relation.ReflTransGen.refl
  obtain ⟨passed, hreaches⟩ := reaches_interleaved hrefl (Program.reaches_along hfollows hend) []
  exact ⟨_, _, _, hreaches, hnext, temporaries_never_outlive (Tool.runUntil 0x80003100 1000)
    (by simp [Numbered, watchedWorld, watched]) hreaches⟩

end Theorem

end DolphinRe.TemporaryPoints
