import DolphinRe.MapSymbols
import DolphinRe.NumberedRecords
import DolphinRe.TemporaryPoints

/-!
# The history of the registry

Breakpoints are registered under numbers that are never used again, keep their
point while they are registered, and their capture logs are only added to until
they are cleared. This holds of every sequence of calls, wherever the watcher
threads and the auto-connect worker run, so a client that reads a log again and
again sees every hit once, in order.
-/

namespace DolphinRe.RegistryHistory

open PythonText GdbPackets GdbWire GdbTokens StopReplies EffectProgram SessionMachine GdbClient
  SessionTools BreakpointTools ExecutionTools StubBehaviour Footprints ToolStructure Interference
  ToolRuns TemporaryPoints MapSymbols NumberedRecords

section Listing

/-- A line of the listing tools. -/
structure Line where
  /-- The id. -/
  id : ℕ
  /-- The address. -/
  addr : ℤ
  /-- The kind. -/
  kind : BpKind
  /-- The size in bytes. -/
  size : ℤ
  deriving DecidableEq, Repr

/-- A registered breakpoint as it is listed. -/
def listing (spec : BreakpointSpec) : Line := ⟨spec.bpId, spec.addr, spec.kind, spec.size⟩

/-- The lines of some of the registered breakpoints. -/
def lines (p : BpKind → Bool) (breakpoints : List BreakpointSpec) : List Line :=
  (breakpoints.filter fun spec => p spec.kind).map listing

variable {τ : Type}

/-- `list_breakpoints`. -/
def listBreakpoints : Code τ (List Line) := do
  pure (lines BpKind.isBreakpoint (← access .getBreakpoints))

/-- `list_watchpoints`. -/
def listWatchpoints : Code τ (List Line) := do
  pure (lines BpKind.isWatchpoint (← access .getBreakpoints))

/-- `list_all`. -/
def listAll : Code τ (List Line) := do
  pure ((← access .getBreakpoints).map listing)

end Listing

section Logs

/-- A capture with the symbols attached to it; a key is absent when nothing resolves. -/
structure Annotated where
  /-- The copied entry. -/
  capture : Capture
  /-- `pc_symbol`. -/
  pcSymbol : Option Str
  /-- `ea_symbol`. -/
  eaSymbol : Option Str
  /-- `lr_symbol`. -/
  lrSymbol : Option Str
  deriving DecidableEq

/-- `_sym_enrich(v)["display"]`. -/
def displayOf (m : SymbolMap) (addr : ℤ) : Option Str := (m.lookup addr).map Resolved.display

/-- `_annotate_capture` on a copy. The watcher records no `ea`. -/
def annotateCapture (m : SymbolMap) (capture : Capture) : Annotated where
  capture := capture
  pcSymbol := capture.pc.bind (displayOf m)
  eaSymbol := capture.watchAddr.bind (displayOf m)
  lrSymbol := capture.lr.bind fun lr => displayOf m lr

/-- What `compile` and `eval` make of a filter text: a compiled filter answers or raises. -/
abbrev Compiler : Type := Str → Except PyError (Capture → Except PyError Bool)

/-- An entry matches when the filter answers yes; an entry on which it raises does not match. -/
def selects (filter : Capture → Except PyError Bool) (capture : Capture) : Bool :=
  match filter capture with
  | .ok answer => answer
  | .error _ => false

/-- The entries that match; an empty text is no filter. -/
def matching (compile : Compiler) (condition : Option Str) (log : List Capture) : Except PyError (List Capture) :=
  match condition with
  | none => .ok log
  | some [] => .ok log
  | some text => (compile text).map fun filter => log.filter (selects filter)

/-- `log_entries[-limit:]` for a positive limit. -/
def newest {α : Type} (limit : Option ℤ) (entries : List α) : List α :=
  match limit with
  | none => entries
  | some n => if 0 < n then entries.drop (entries.length - n.toNat) else entries

variable {τ N L : Type}

/-- `get_capture_log`. -/
def getCaptureLogWhere (compile : Compiler) (m : SymbolMap) (bpId : ℕ) (condition : Option Str) (limit : Option ℤ) :
    Code τ (List Annotated) := do
  let log ← getCaptureLog bpId
  let entries ← Program.ofExcept (matching compile condition log)
  pure ((newest limit entries).map (annotateCapture m))

/-- The registry with the log of one breakpoint emptied. -/
def emptied (bpId : ℕ) (w : World τ L) : World τ L :=
  {w with breakpoints := amend bpId (fun spec => {spec with log := []}) w.breakpoints}

/-- `clear_capture_log`: it counts the entries and then clears them; the other threads may run
before either. -/
def ClearsLog (link : Link τ N L) (bpId : ℕ) (w : World τ L) (r : Except PyError ℕ) (v : World τ L) : Prop :=
  ∃ seen, meanwhile link w seen ∧
    ((lookup bpId seen.breakpoints = none ∧ r = .error (notRegistered bpId) ∧ v = seen) ∨
      ∃ spec u, lookup bpId seen.breakpoints = some spec ∧ meanwhile link seen u ∧ r = .ok spec.log.length ∧
        v = emptied bpId u)

end Logs

section Statement

variable {τ N L : Type}

/-- Calls of the foreground. -/
inductive Call where
  /-- A call of a tool. -/
  | tool (action : Action)
  /-- A call of a tool with a point of its own. -/
  | temporary (tool : Tool)
  | clearLog (bpId : ℕ)
  | disconnect
  deriving DecidableEq, Repr

/-- What a call may make of the session, with other threads running before every access. -/
def Call.Turns (link : Link τ N L) (host : Host) : Call → World τ L → World τ L → Prop
  | .tool action => fun w v => ∃ r passed,
      (action.code host : Code τ Unit).Reaches (busy link) (w, []) r (v, passed)
  | .temporary t => fun w v => ∃ r passed,
      (t.code host : Code τ Unit).Reaches (busy link) (w, []) r (v, passed)
  | .clearLog bpId => fun w v => ∃ r, ClearsLog link bpId w r v
  | .disconnect => fun w v => ∃ r passed,
      (SessionTools.disconnect : Code τ Unit).Reaches (busy link) (w, []) r (v, passed)

/-- Some calls one after the other. -/
def Passes (link : Link τ N L) (host : Host) : List Call → World τ L → World τ L → Prop
  | [], w, v => meanwhile link w v
  | call :: calls, w, v => ∃ u, call.Turns link host w u ∧ Passes link host calls u v

/-- A registered breakpoint as a numbered record. -/
def layout : Layout BreakpointSpec (ℤ × BpKind × ℤ × Option Str) Capture where
  number := BreakpointSpec.bpId
  nature spec := (spec.addr, spec.kind, spec.size, spec.condition)
  journal := BreakpointSpec.log

/-- `session.breakpoints` with `session._next_id`. -/
def registry (w : World τ L) : Table BreakpointSpec := ⟨w.nextId, w.breakpoints⟩

/-- The log of a number is not cleared by some calls. -/
def Uncleared (calls : List Call) (bpId : ℕ) : Prop := Call.clearLog bpId ∉ calls

/-- A session in order that has grown older. -/
structure Since (kept : ℕ → Prop) (start : Table BreakpointSpec) (w : World τ L) : Prop where
  /-- The registry is in order. -/
  ordered : InOrder layout (registry w)
  /-- It goes on from the earlier one. -/
  aged : Ages layout kept start (registry w)

end Statement

section Steps

variable {τ N L : Type} {link : Link τ N L} {w v : World τ L} {kept : ℕ → Prop} {start : Table BreakpointSpec}
  {bpId : ℕ} {f : BreakpointSpec → BreakpointSpec}

/-- Accesses that register nothing. -/
def registersNothing : Op τ → Prop
  | .registerBp _ => False
  | _ => True

/-- What leaves the entries alone registers nothing. -/
theorem registersNothing_of_leaves {assigns : Bool} {o : Op τ} (ho : leaves assigns o) : registersNothing o := by
  cases o <;> first | exact ho | trivial

/-- One entry may go on as another while the rest stay. -/
theorem continues_ite (hf : ∀ spec, Continues layout kept spec (f spec)) (spec : BreakpointSpec) :
    Continues layout kept spec (if spec.bpId = bpId then f spec else spec) := by
  split_ifs
  · exact hf spec
  · exact Continues.refl spec

/-- Records of a number change. -/
theorem Since.amend (bpId : ℕ) (f : BreakpointSpec → BreakpointSpec) (h : Since kept start w) (hf : ∀ spec, Continues layout kept spec (f spec))
    (hbreakpoints : v.breakpoints = SessionMachine.amend bpId f w.breakpoints) (hnext : v.nextId = w.nextId) :
    Since kept start v := by
  have hregistry : registry v = ⟨(registry w).next,
      (registry w).records.map fun spec => if spec.bpId = bpId then f spec else spec⟩ := by
    unfold registry
    rw [hbreakpoints, hnext]
    rfl
  constructor
  · rw [hregistry]
    exact h.ordered.map fun spec => (continues_ite hf spec).number
  · rw [hregistry]
    exact h.aged.trans (ages_map fun spec _ => continues_ite hf spec)

/-- Records go, and numbers are handed out. -/
theorem Since.sublist (h : Since kept start w) (hsub : v.breakpoints.Sublist w.breakpoints)
    (hnext : w.nextId ≤ v.nextId) : Since kept start v where
  ordered := (h.ordered.sublist hsub).advance hnext
  aged := (h.aged.trans (ages_subset hsub.subset)).trans (ages_advance hnext)

/-- With the same registry, the session has not aged. -/
theorem Since.same (h : Since kept start w) (hbreakpoints : v.breakpoints = w.breakpoints)
    (hnext : v.nextId = w.nextId) : Since kept start v :=
  h.sublist (hbreakpoints ▸ List.Sublist.refl _) hnext.ge

/-- Only registering can bring in a record. -/
theorem since_step {o : Op τ} (ho : registersNothing o) (c : Choice τ N) (h : Since kept start w) :
    Since kept start (World.step link o c w).2 := by
  have habsorb : Since kept start (w.absorb link c.acts) :=
    h.same (World.absorb_breakpoints link c.acts w) (World.absorb_nextId link c.acts w)
  cases o with
  | registerBp spec => exact ho.elim
  | allocBpId => exact h.sublist (List.Sublist.refl _) (Nat.le_succ w.nextId)
  | unregisterBp bpId => exact h.sublist (List.filter_sublist (l := w.breakpoints)) le_rfl
  | clearBreakpoints => exact h.sublist (List.nil_sublist w.breakpoints) le_rfl
  | setCaptures bpId captures =>
    exact h.amend bpId (fun spec => {spec with captures := captures})
      (fun spec => ⟨rfl, rfl, fun _ => List.prefix_refl _⟩) rfl rfl
  | setAutoContinue bpId enabled =>
    exact h.amend bpId (fun spec => {spec with autoContinue := enabled})
      (fun spec => ⟨rfl, rfl, fun _ => List.prefix_refl _⟩) rfl rfl
  | appendLog bpId capture raw =>
    exact h.amend bpId (fun spec => {spec with log := spec.log ++ [capture]})
      (fun spec => ⟨rfl, rfl, fun _ => List.prefix_append _ _⟩) rfl rfl
  | send message =>
    change Since kept start (World.send link message c (w.absorb link c.acts)).2
    unfold World.send
    split_ifs <;> exact habsorb.same rfl rfl
  | consumeAck =>
    change Since kept start (World.consumeAck link c (w.absorb link c.acts)).2
    unfold World.consumeAck
    split_ifs <;> exact habsorb.same rfl rfl
  | readPacketFromWire timeout =>
    change Since kept start (World.readPacket link c (w.absorb link c.acts)).2
    unfold World.readPacket
    split_ifs <;> exact habsorb.same rfl rfl
  | connect =>
    change Since kept start (World.connect link c (w.absorb link c.acts)).2
    unfold World.connect
    split_ifs <;> exact habsorb.same rfl rfl
  | markRunning =>
    change Since kept start (if _ then {w with state := .connectedRunning} else w)
    split_ifs <;> exact h.same rfl rfl
  | markPaused =>
    change Since kept start (if _ then {w with state := .connectedPaused} else w)
    split_ifs <;> exact h.same rfl rfl
  | close =>
    change Since kept start (if _ then w.closed link else w)
    split_ifs <;> exact h.same rfl rfl
  | _ => first
    | exact h.same rfl rfl
    | exact habsorb.same rfl rfl

end Steps

section Registering

variable {τ N L : Type} {link : Link τ N L} {I : World τ L → Prop} {host : Host}

/-- What is kept by everything that registers nothing, and by registering under a new id. -/
structure Registering (link : Link τ N L) (I : World τ L → Prop) : Prop where
  /-- It is kept by what registers nothing. -/
  others : ∀ {α : Type} {p : Code τ α}, p.Uses registersNothing → Holds link I p
  /-- It is kept by registering under a new id. -/
  new : ∀ addr kind size, Holds link I (registerNew addr kind size)

/-- It is kept by what is composed of such parts. -/
theorem Registering.parts (_ : Registering link I) :
    Program.Compositional (S := signature τ) (ε := PyError) fun _ p => Holds link I p :=
  Program.keeps_compositional _ _

variable (h : Registering link I)

include h

/-- It is kept by code that leaves the entries alone. -/
theorem Registering.leaving {α : Type} {p : Code τ α} (hp : p.Uses (leaves true)) : Holds link I p :=
  h.others (hp.mono fun _ => registersNothing_of_leaves)

/-- It is kept by calm code. -/
theorem Registering.calm {α : Type} {p : Code τ α} (hp : p.Uses calm) : Holds link I p :=
  h.leaving (hp.mono fun _ => leaves_of_restrained)

/-- It is kept by adding a breakpoint. -/
theorem Registering.addBreakpoint (addr : ℤ) : Holds link I (addBreakpoint addr) := by
  refine h.parts.bind (h.leaving (uses_leaves (uses_ensureConnected trivial trivial))) fun _ => ?_
  refine h.parts.bind (h.leaving (uses_leaves (uses_safeToModify trivial trivial trivial
    (uses_setBreak trivial)))) fun _ => ?_
  exact h.new addr .swBp 4

/-- It is kept by adding a watchpoint. -/
theorem Registering.addWatchpoint (addr size : ℤ) (on : String) : Holds link I (addWatchpoint addr size on) := by
  refine h.parts.bind (h.leaving (uses_leaves (uses_ensureConnected trivial trivial))) fun _ => ?_
  have hinsert : (insertWatchpoint addr size on : Code τ BpKind).Uses (restrained true true true fun _ => True) :=
    Program.uses_bind (Program.uses_ofExcept (S := signature τ) _ _) fun kind =>
      Program.uses_bind (uses_setBreak trivial) fun _ => trivial
  exact h.parts.bind (h.leaving (uses_leaves (uses_safeToModify trivial trivial trivial hinsert)))
    fun kind => h.new addr kind size

/-- It is kept by removing an entry. -/
theorem Registering.remove (bpId : ℕ) : Holds link I (remove bpId) := by
  refine h.parts.bind (h.leaving (uses_leaves (uses_ensureConnected trivial trivial))) fun _ => ?_
  refine h.parts.bind (h.others (uses_access (o := .unregisterBp bpId) trivial)) fun found => ?_
  cases found with
  | none => exact h.parts.done false
  | some spec =>
    refine h.parts.bind (h.leaving (uses_leaves ?_)) fun _ => h.parts.done true
    exact uses_deleteFromStub spec trivial trivial trivial fun _ _ _ => trivial

/-- It is kept by the pieces of the tools. -/
theorem Registering.pieces : Pieces fun _ (p : Code τ _) => Holds link I p :=
  pieces_of_calm h.parts
    (fun o ho => h.others (uses_access (o := o) (by cases o <;> trivial)))
    h.calm

/-- It is kept by starting to capture. -/
theorem Registering.captureOnHit (bpId : ℕ) (captures : Option (List String)) (autoResume : Bool) :
    Holds link I (captureOnHit bpId captures autoResume) :=
  h.pieces.captureOnHit (h.calm (uses_resumeLocked rfl)) bpId captures autoResume

/-- Every call of a tool keeps it. -/
theorem Registering.action (action : Action) : Holds link I (action.code host) := by
  refine action_of_changes h.pieces h.addBreakpoint h.addWatchpoint h.remove h.captureOnHit host action
    fun _ => ?_
  have hprobe : (probeResponsive 500 : Code τ Bool).Uses Footprints.calm := uses_probeResponsive (by rfl) 500
  exact h.pieces.health (h.calm (uses_access trivial)) (h.calm (uses_locked trivial trivial hprobe))

/-- So does every tool with a point of its own. -/
theorem Registering.temporary (tool : Tool) : Holds link I (tool.code host) := by
  have hdrop : ∀ {β : Type} {p : Code τ β}, Holds link I p → Holds link I (p.bind fun _ => Program.done ()) :=
    fun hp => h.parts.bind hp fun _ => h.parts.done ()
  cases tool with
  | stepOver => exact hdrop (h.pieces.stepOver h.addBreakpoint h.remove host)
  | stepOut => exact hdrop (h.pieces.stepOut h.addBreakpoint h.remove host)
  | runUntil addr timeout => exact hdrop (h.pieces.runUntil h.addBreakpoint h.remove addr timeout)
  | traceWritesTo addr size duration captures =>
    refine hdrop (h.parts.bind (h.parts.ofExcept _) fun duration => ?_)
    exact h.parts.bind (h.addWatchpoint addr size "write") fun bpId =>
      h.pieces.traceHits h.remove h.captureOnHit bpId duration _
  | traceCallsTo entryAddr duration captures =>
    refine hdrop (h.parts.bind (h.parts.ofExcept _) fun duration => ?_)
    exact h.parts.bind (h.addBreakpoint entryAddr) fun bpId =>
      h.pieces.traceHits h.remove h.captureOnHit bpId duration _

/-- It is kept by disconnecting. -/
theorem Registering.disconnect : Holds link I (disconnect : Code τ Unit) := by
  have hclose : Holds link I (do
      if ← access .isSockOpen then access .close
      access (.setState .disconnected)
      access .clearBreakpoints) := by
    refine h.others (uses_then trivial fun opened => ?_)
    split_ifs
    · exact uses_then trivial fun _ => uses_then trivial fun _ => uses_access trivial
    · exact uses_then trivial fun _ => uses_access trivial
  refine h.parts.bind (h.pieces.session .isAttached rfl) fun attached => ?_
  dsimp only
  split_ifs
  · exact h.parts.bind (h.others (uses_access trivial)) fun _ => hclose
  · exact hclose

end Registering

section Runs

variable {τ N L : Type} {link : Link τ N L} {host : Host} {w v : World τ L} {kept : ℕ → Prop}
  {start : Table BreakpointSpec} {bpId : ℕ}

/-- A number that has been handed out and that nothing is registered under. -/
structure Given (kept : ℕ → Prop) (start : Table BreakpointSpec) (bpId : ℕ) (w : World τ L) : Prop extends
    Since kept start w where
  /-- All registered ids are smaller. -/
  above : ∀ spec ∈ w.breakpoints, spec.bpId < bpId
  /-- It has been handed out. -/
  issued : bpId < w.nextId
  /-- It was not handed out before the start. -/
  later : start.next ≤ bpId

/-- A new id is given. -/
theorem given_alloc (c : Choice τ N) (h : Since kept start w) :
    Given kept start (World.step link .allocBpId c w).1 (World.step link .allocBpId c w).2 where
  toSince := since_step (o := .allocBpId) trivial c h
  above := h.ordered.below
  issued := Nat.lt_succ_self w.nextId
  later := h.aged.next

/-- It stays given until it is registered. -/
theorem given_step {o : Op τ} (ho : leaves true o) (c : Choice τ N) (h : Given kept start bpId w) :
    Given kept start bpId (World.step link o c w).2 where
  toSince := since_step (registersNothing_of_leaves ho) c h.toSince
  above spec hspec := by
    have hlisted : TemporaryPoints.entries (World.step link o c w).2 = TemporaryPoints.entries w :=
      (listed_step ho c w).entries
    have hmem : entry spec ∈ TemporaryPoints.entries w := hlisted ▸ List.mem_map_of_mem hspec
    obtain ⟨old, hold, hsame⟩ := List.mem_map.mp hmem
    have hid : (entry old).bpId = (entry spec).bpId := congrArg BreakpointSpec.bpId hsame
    have hbelow : old.bpId < bpId := h.above old hold
    exact hid ▸ hbelow
  issued := h.issued.trans_le (listed_step ho c w).nextId
  later := h.later

/-- Registering under a number of its own puts a record at the end. -/
theorem since_register (spec : BreakpointSpec) (c : Choice τ N) (h : Given kept start spec.bpId w) :
    Since kept start (World.step link (.registerBp spec) c w).2 := by
  have hregistry : registry (World.step link (.registerBp spec) c w).2 =
      ⟨(registry w).next, (registry w).records ++ [spec]⟩ :=
    congrArg (Table.mk w.nextId) (register_newest h.above)
  constructor
  · rw [hregistry]
    exact h.ordered.append h.above h.issued
  · rw [hregistry]
    exact h.aged.append h.later

/-- The background threads only let the session age. -/
theorem stable_since : Stable (meanwhile link) (Since kept start) :=
  stable_leaving fun _ c _ ho hw => since_step (registersNothing_of_leaves ho) c hw

/-- The registry stays in order, and only grows older. -/
theorem since_registering : Registering link (Since kept start) where
  others hp := holds_of_uses stable_since (fun _ c _ ho hw => since_step ho c hw) hp
  new addr kind size := by
    refine Program.Triple.keeps (Program.triple_bind (leads_access (o := .allocBpId) (H := Given kept start)
      stable_since fun c w hw => given_alloc c hw) fun bpId => ?_)
    let spec : BreakpointSpec := {bpId := bpId, addr := addr, kind := kind, size := size}
    refine Program.triple_bind (leads_access (o := .registerBp spec) (H := fun _ => Since kept start)
      (stable_leaving fun _ c _ ho hw => given_step ho c hw)
      fun c w hw => since_register spec c hw) fun _ => Program.triple_done fun _ h => h

/-- Clearing a log takes back what was written under its number only. -/
theorem since_clearsLog {r : Except PyError ℕ} (hkept : ¬kept bpId) (h : Since kept start w)
    (hclears : ClearsLog link bpId w r v) : Since kept start v := by
  obtain ⟨seen, hseen, hrest⟩ := hclears
  have hsince : Since kept start seen := stable_since _ _ h hseen
  rcases hrest with ⟨-, -, rfl⟩ | ⟨spec, u, -, hu, -, rfl⟩
  · exact hsince
  · have hlater : Since kept start u := stable_since _ _ hsince hu
    have hregistry : registry (emptied bpId u) = ⟨(registry u).next, (registry u).records.map fun spec =>
        if spec.bpId = bpId then {spec with log := []} else spec⟩ := rfl
    constructor
    · rw [hregistry]
      refine hlater.ordered.map fun spec => ?_
      split_ifs <;> rfl
    · rw [hregistry]
      refine hlater.aged.trans (ages_map fun spec _ => ?_)
      by_cases hid : spec.bpId = bpId
      · rw [if_pos hid]
        exact ⟨rfl, rfl, fun hkeeps => absurd (hid ▸ hkeeps) hkept⟩
      · rw [if_neg hid]
        exact Continues.refl spec

/-- One call. -/
theorem since_call {call : Call} (hcall : ∀ bpId, call = .clearLog bpId → ¬kept bpId) (h : Since kept start w)
    (hturns : call.Turns link host w v) : Since kept start v := by
  cases call with
  | tool action =>
    obtain ⟨r, passed, hreach⟩ := hturns
    exact Program.reaches_of_wp (since_registering.action action (w, []) h) hreach
  | temporary tool =>
    obtain ⟨r, passed, hreach⟩ := hturns
    exact Program.reaches_of_wp (since_registering.temporary tool (w, []) h) hreach
  | clearLog bpId =>
    obtain ⟨r, hclears⟩ := hturns
    exact since_clearsLog (hcall bpId rfl) h hclears
  | disconnect =>
    obtain ⟨r, passed, hreach⟩ := hturns
    exact Program.reaches_of_wp (since_registering.disconnect (w, []) h) hreach

/-- Any number of calls. -/
theorem since_passes {calls : List Call} (hcalls : ∀ bpId, kept bpId → Uncleared calls bpId)
    (h : Since kept start w) (hpasses : Passes link host calls w v) : Since kept start v := by
  induction calls generalizing w with
  | nil => exact stable_since _ _ h hpasses
  | cons call calls ih =>
    obtain ⟨u, hturns, hrest⟩ := hpasses
    have hcall : ∀ bpId, call = .clearLog bpId → ¬kept bpId := fun bpId hclear hkept =>
      hcalls bpId hkept (hclear ▸ List.mem_cons_self)
    have hothers : ∀ bpId, kept bpId → Uncleared calls bpId := fun bpId hkept hmem =>
      hcalls bpId hkept (List.mem_cons_of_mem _ hmem)
    exact ih hothers (since_call hcall h hturns) hrest

/-- At first it has not. -/
theorem since_start (hw : InOrder layout (registry w)) : Since kept (registry w) w := ⟨hw, Ages.refl _⟩

end Runs

section Polling

variable {τ N L : Type} {link : Link τ N L} {host : Host} {w u v x : World τ L} {compile : Compiler}
  {condition : Option Str} {limit : Option ℤ} {bpId : ℕ} {passed passed' : List (World τ L)}

/-- What matches in a longer log. -/
theorem matching_prefix {log more : List Capture} (hlog : log <+: more) {entries : List Capture}
    (h : matching compile condition log = .ok entries) {entries' : List Capture}
    (h' : matching compile condition more = .ok entries') : entries <+: entries' := by
  unfold matching at h h'
  cases condition with
  | none =>
    cases h
    cases h'
    exact hlog
  | some text =>
    cases text with
    | nil =>
      cases h
      cases h'
      exact hlog
    | cons c rest =>
      dsimp only at h h'
      cases hfilter : compile (c :: rest) with
      | error e =>
        rw [hfilter] at h
        cases h
      | ok filter =>
        rw [hfilter] at h h'
        cases h
        cases h'
        exact hlog.filter _

/-- As many entries as are asked for are the newest ones. -/
theorem suffix_newest {α : Type} (old fresh : List α) (hfits : ∀ n, limit = some n → (fresh.length : ℤ) ≤ n) :
    fresh <:+ newest limit (old ++ fresh) := by
  unfold newest
  cases limit with
  | none => exact List.suffix_append old fresh
  | some n =>
    dsimp only
    split_ifs with hpos
    · have hle : (old ++ fresh).length - n.toNat ≤ old.length := by
        have hn := hfits n rfl
        rw [List.length_append]
        omega
      rw [List.drop_append_of_le_length hle]
      exact List.suffix_append _ fresh
    · exact List.suffix_append old fresh

/-- An entry that is found is registered under its id. -/
theorem lookup_some {breakpoints : List BreakpointSpec} {spec : BreakpointSpec}
    (h : lookup bpId breakpoints = some spec) : spec ∈ breakpoints ∧ spec.bpId = bpId := by
  unfold lookup at h
  refine ⟨List.mem_of_find?_eq_some h, ?_⟩
  simpa using List.find?_some h

/-- A log that is returned is the one registered at that moment. -/
theorem reaches_getCaptureLog {log : List Capture} {y : World τ L × List (World τ L)}
    (h : (getCaptureLog bpId).Reaches (busy link) (w, passed) (.ok log) y) :
    meanwhile link w y.1 ∧ ∃ spec, lookup bpId y.1.breakpoints = some spec ∧ log = spec.log := by
  unfold getCaptureLog at h
  rw [Program.bind_eq, Program.reaches_bind] at h
  rcases h with ⟨bps, z, ⟨⟨c, u⟩, ⟨hothers, -⟩, hread, hz⟩, hrest⟩ | ⟨e, -, he⟩
  · have hbps : bps = u.breakpoints := Except.ok.inj hread
    have hworld : z.1 = u := congrArg Prod.fst hz
    cases hfound : lookup bpId bps with
    | none =>
      rw [hfound] at hrest
      cases hrest.1
    | some spec =>
      rw [hfound] at hrest
      have hlog : log = spec.log := Except.ok.inj hrest.1
      have hy : y.1 = z.1 := congrArg Prod.fst hrest.2
      rw [hbps] at hfound
      rw [hy, hworld]
      exact ⟨hothers, spec, hfound, hlog⟩
  · cases he

/-- The entries of the log registered under an id that a filter keeps. -/
def Logged (compile : Compiler) (condition : Option Str) (bpId : ℕ) (w : World τ L) (entries : List Capture) :
    Prop :=
  ∃ spec, lookup bpId w.breakpoints = some spec ∧ matching compile condition spec.log = .ok entries

/-- A read returns the newest of the entries that the registered log holds at that moment. -/
theorem reaches_getCaptureLogWhere {m : SymbolMap} {result : List Annotated} {y : World τ L × List (World τ L)}
    (h : (getCaptureLogWhere compile m bpId condition limit).Reaches (busy link) (w, passed) (.ok result) y) :
    meanwhile link w y.1 ∧ ∃ entries, Logged compile condition bpId y.1 entries ∧
      result = (newest limit entries).map (annotateCapture m) := by
  unfold getCaptureLogWhere at h
  rw [Program.bind_eq, Program.reaches_bind] at h
  rcases h with ⟨log, z, hread, hrest⟩ | ⟨e, -, he⟩
  · obtain ⟨hothers, spec, hfound, rfl⟩ := reaches_getCaptureLog hread
    rw [Program.bind_eq] at hrest
    cases hmatching : matching compile condition spec.log with
    | error e =>
      rw [hmatching] at hrest
      cases hrest.1
    | ok entries =>
      rw [hmatching] at hrest
      have hy : y = z := hrest.2
      have hresult : result = (newest limit entries).map (annotateCapture m) := Except.ok.inj hrest.1
      rw [hy]
      exact ⟨hothers, entries, ⟨spec, hfound, hmatching⟩, hresult⟩
  · cases he

/-- The log of a breakpoint that is not cleared grows at its end. -/
theorem logged_grows {calls : List Call} {old new : List Capture} (hw : InOrder layout (registry u))
    (hcalls : Uncleared calls bpId) (hbetween : Passes link host calls u v) (hx : meanwhile link v x)
    (hold : Logged compile condition bpId u old) (hnew : Logged compile condition bpId x new) : old <+: new := by
  obtain ⟨spec, hfound, hentries⟩ := hold
  obtain ⟨spec', hfound', hentries'⟩ := hnew
  obtain ⟨hspec, hid⟩ := lookup_some hfound
  obtain ⟨hspec', hid'⟩ := lookup_some hfound'
  have hcleared : ∀ id, id = bpId → Uncleared calls id := fun id hsame => hsame ▸ hcalls
  have hlate : Since (· = bpId) (registry u) x :=
    stable_since _ _ (since_passes hcleared (since_start hw) hbetween) hx
  have hgoes : Continues layout (· = bpId) spec spec' :=
    hlate.aged.journal hw hspec hspec' (hid'.trans hid.symm)
  exact matching_prefix (hgoes.journal hid) hentries hentries'

/-- A client that reads the log of a breakpoint twice, under the same filter and with any calls in between
except one that clears it: at the second read the registered log holds the entries of the first, followed by
what has come since, so nothing is lost, changed, reordered or repeated. The client sees all of them, or with
a limit the newest, and everything new if the limit is not below its number. -/
theorem polls_miss_nothing {calls : List Call} {m m' : SymbolMap} {old new : List Annotated}
    (hw : InOrder layout (registry w)) (hcalls : Uncleared calls bpId)
    (hfirst : (getCaptureLogWhere compile m bpId condition none).Reaches (busy link) (w, []) (.ok old) (u, passed))
    (hbetween : Passes link host calls u v)
    (hlater : (getCaptureLogWhere compile m' bpId condition limit).Reaches (busy link) (v, []) (.ok new)
      (x, passed')) :
    ∃ entries fresh, Logged compile condition bpId u entries ∧ old = entries.map (annotateCapture m) ∧
      Logged compile condition bpId x (entries ++ fresh) ∧
      new = (newest limit (entries ++ fresh)).map (annotateCapture m') ∧
      ((∀ n, limit = some n → (fresh.length : ℤ) ≤ n) → fresh.map (annotateCapture m') <:+ new) := by
  obtain ⟨hu, entries, hentries, hold⟩ := reaches_getCaptureLogWhere hfirst
  obtain ⟨hx, entries', hentries', hnew⟩ := reaches_getCaptureLogWhere hlater
  have hordered : InOrder layout (registry u) := by
    have hstart : Since (· = bpId) (registry w) w := since_start hw
    exact (stable_since w u hstart hu).ordered
  obtain ⟨fresh, rfl⟩ := logged_grows hordered hcalls hbetween hx hentries hentries'
  refine ⟨entries, fresh, hentries, hold, hentries', hnew, fun hfits => ?_⟩
  rw [hnew]
  exact (suffix_newest entries fresh hfits).map (annotateCapture m')

/-- What a listing tool returns is the registry at that moment, under increasing ids. -/
theorem reaches_listing {p : BpKind → Bool} (hw : InOrder layout (registry w)) {listed : List Line}
    {y : World τ L × List (World τ L)}
    (h : ((access .getBreakpoints).bind fun breakpoints => .done (lines p breakpoints)).Reaches (busy link)
      (w, passed) (.ok listed) y) :
    listed = lines p y.1.breakpoints ∧ (listed.map Line.id).Pairwise (· < ·) := by
  obtain ⟨⟨c, v⟩, ⟨hothers, -⟩, hlisted, hy⟩ := h
  have hresult : listed = lines p v.breakpoints := Except.ok.inj hlisted
  have hworld : y.1 = v := congrArg Prod.fst hy
  have hordered : InOrder layout (registry v) := by
    have hstart : Since (fun _ => True) (registry w) w := since_start hw
    exact (stable_since w v hstart hothers).ordered
  rw [hworld, hresult]
  refine ⟨rfl, ?_⟩
  have hsub : (v.breakpoints.filter fun spec => p spec.kind).Sublist v.breakpoints := List.filter_sublist
  unfold lines
  rw [List.map_map]
  exact hordered.increasing.sublist (hsub.map BreakpointSpec.bpId)

/-- The tools list the registered breakpoints under increasing ids, wherever the other threads run, and each
breakpoint in one of the two partial lists. -/
theorem lists_in_order (hw : InOrder layout (registry w)) {listed : List Line} {y : World τ L × List (World τ L)} :
    (listBreakpoints.Reaches (busy link) (w, passed) (.ok listed) y →
        listed = lines BpKind.isBreakpoint y.1.breakpoints ∧ (listed.map Line.id).Pairwise (· < ·)) ∧
      (listWatchpoints.Reaches (busy link) (w, passed) (.ok listed) y →
        listed = lines BpKind.isWatchpoint y.1.breakpoints ∧ (listed.map Line.id).Pairwise (· < ·)) ∧
      (listAll.Reaches (busy link) (w, passed) (.ok listed) y →
        (lines BpKind.isBreakpoint y.1.breakpoints ++ lines BpKind.isWatchpoint y.1.breakpoints).Perm listed ∧
          (listed.map Line.id).Pairwise (· < ·)) := by
  refine ⟨reaches_listing hw, reaches_listing hw, fun h => ?_⟩
  have hall : (listAll : Code τ (List Line)) =
      (access .getBreakpoints).bind fun breakpoints => .done (lines (fun _ => true) breakpoints) := by
    unfold listAll lines
    simp
  rw [hall] at h
  obtain ⟨hlisted, hincreasing⟩ := reaches_listing hw h
  refine ⟨?_, hincreasing⟩
  have hwatch : (fun spec : BreakpointSpec => BpKind.isWatchpoint spec.kind) =
      fun spec => !BpKind.isBreakpoint spec.kind := by
    funext spec
    cases spec.kind <;> rfl
  rw [hlisted]
  unfold lines
  rw [hwatch, ← List.map_append, List.filter_true]
  exact (List.filter_append_perm _ _).map listing

end Polling

section Clearing

variable {τ N L : Type} {link : Link τ N L} {w v : World τ L} {listed rest all : List ℕ} {bpId : ℕ}

/-- The registered ids in order. -/
def bpIds (w : World τ L) : List ℕ := w.breakpoints.map BreakpointSpec.bpId

/-- These ids are registered. -/
def Registered (listed : List ℕ) (w : World τ L) : Prop := bpIds w = listed

/-- Such accesses keep the list of ids. -/
theorem registered_step {o : Op τ} (ho : leaves true o) (c : Choice τ N) (h : Registered listed w) :
    Registered listed (World.step link o c w).2 := by
  have hlisted : TemporaryPoints.entries (World.step link o c w).2 = TemporaryPoints.entries w :=
    (listed_step ho c w).entries
  have hids : ∀ u : World τ L, (TemporaryPoints.entries u).map BreakpointSpec.bpId = bpIds u := fun u =>
    List.map_map
  rw [Registered, ← hids, hlisted, hids]
  exact h

/-- So do the background threads. -/
theorem stable_registered : Stable (meanwhile link) (Registered listed) :=
  stable_leaving fun _ c _ ho hw => registered_step ho c hw

/-- So does code that leaves the entries alone. -/
theorem holds_registered {α : Type} {p : Code τ α} (hp : p.Uses (leaves true)) : Holds link (Registered listed) p :=
  holds_of_uses stable_registered (fun _ c _ ho hw => registered_step ho c hw) hp

/-- Taking the first id out of the registry. -/
theorem registered_unregister (hdistinct : (bpId :: rest).Nodup) (c : Choice τ N) (h : Registered (bpId :: rest) w) :
    (World.step link (.unregisterBp bpId) c w).1.isSome = true ∧
      Registered rest (World.step link (.unregisterBp bpId) c w).2 := by
  obtain ⟨first, others, hbps, hfirst, hothers⟩ : ∃ first others, w.breakpoints = first :: others ∧
      first.bpId = bpId ∧ others.map BreakpointSpec.bpId = rest := List.map_eq_cons_iff.mp h
  have hnotin : bpId ∉ rest := (List.nodup_cons.mp hdistinct).1
  constructor
  · change (lookup bpId w.breakpoints).isSome = true
    rw [hbps, lookup, List.find?_cons_of_pos (by simpa using hfirst)]
    rfl
  · change (unregister bpId w.breakpoints).map BreakpointSpec.bpId = rest
    unfold unregister
    rw [hbps, List.filter_cons_of_neg (by simp [hfirst]), List.filter_eq_self.mpr]
    · exact hothers
    · intro spec hspec
      have hmem : spec.bpId ∈ rest := hothers ▸ List.mem_map_of_mem hspec
      have hne : spec.bpId ≠ bpId := fun hsame => hnotin (hsame ▸ hmem)
      simpa using hne

/-- What is left when a removal raises is the end of the list. -/
abbrev Left (all : List ℕ) (w : World τ L) : Prop := bpIds w <:+ all

/-- Removing the first listed entry leaves the rest, or raises. -/
theorem leads_removeFirst (hdistinct : (bpId :: rest).Nodup) (hall : bpId :: rest <:+ all) :
    Leads link (Registered (bpId :: rest)) (remove bpId) (fun found w => found = true ∧ Registered rest w)
      (Left all) := by
  have hleft : ∀ {listed : List ℕ}, listed <:+ all → ∀ w : World τ L, Registered listed w → Left all w :=
    fun hsuffix w hw => by
      rw [Left, hw]
      exact hsuffix
  have hrest : rest <:+ all := (List.suffix_cons bpId rest).trans hall
  refine Program.triple_bind (G := fun _ x => Registered (bpId :: rest) x.1) ?_ fun _ => ?_
  · exact (holds_registered (uses_leaves (uses_ensureConnected trivial trivial))).triple.mono (fun _ _ h => h)
      fun _ h => hleft hall _ h
  refine Program.triple_bind (leads_access (o := .unregisterBp bpId)
    (H := fun found w => found.isSome = true ∧ Registered rest w) stable_registered
    fun c w hw => registered_unregister hdistinct c hw) fun found => ?_
  cases found with
  | none => exact fun x hx => absurd hx.1 Bool.false_ne_true
  | some spec =>
    have hdelete : (deleteFromStub spec : Code τ Unit).Uses (leaves true) :=
      uses_leaves (uses_deleteFromStub spec trivial trivial trivial fun _ _ _ => trivial)
    refine Program.triple_bind (G := fun _ x => Registered rest x.1) ?_ fun _ => ?_
    · exact fun x hx => (holds_registered hdelete).triple.mono (fun _ _ h => h) (fun _ h => hleft hrest _ h) x hx.2
    · exact Program.triple_done fun _ h => ⟨rfl, h⟩

/-- Removing all of them leaves none, or raises where some are left. -/
theorem leads_removeEach (hdistinct : listed.Nodup) (hall : listed <:+ all) (removed : List ℕ) :
    Leads link (Registered listed) (removeEach listed removed) (fun r w => r = removed ++ listed ∧ Registered [] w)
      (Left all) := by
  induction listed generalizing removed with
  | nil => exact Program.triple_done fun x h => ⟨(List.append_nil removed).symm, h⟩
  | cons bpId rest ih =>
    have hrest : rest <:+ all := (List.suffix_cons bpId rest).trans hall
    refine Program.triple_bind (leads_removeFirst hdistinct hall) fun found => fun x hx => ?_
    obtain ⟨rfl, hregistered⟩ := hx
    refine Program.wp_mono (fun r y hy => ?_) (ih (List.nodup_cons.mp hdistinct).2 hrest (removed ++ [bpId]) x hregistered)
    cases r with
    | ok result => exact ⟨hy.1.trans (List.append_cons removed bpId rest).symm, hy.2⟩
    | error e => exact hy

/-- `remove_all` next to the background threads: if it returns, it reports every registered id, in order, and
nothing is registered any more; if it raises, the first ids are gone and the others are all still there. -/
theorem remove_all_is_in_order {r : Except PyError (List ℕ)} {passed : List (World τ L)}
    (hw : InOrder layout (registry w)) (h : removeAll.Reaches (busy link) (w, []) r (v, passed)) :
    (r = .ok (bpIds w) ∧ v.breakpoints = []) ∨
      ∃ e, r = .error e ∧ bpIds v <:+ bpIds w := by
  have hdistinct : (bpIds w).Nodup := hw.increasing.imp fun hlt => Nat.ne_of_lt hlt
  have hleads : Leads link (Registered (bpIds w)) removeAll
      (fun result u => result = bpIds w ∧ Registered [] u) (Left (bpIds w)) := by
    refine Program.triple_bind (G := fun _ x => Registered (bpIds w) x.1) ?_ fun _ => ?_
    · exact (holds_registered (uses_leaves (uses_ensureConnected trivial trivial))).triple.mono (fun _ _ h => h)
        fun x hx => hx ▸ List.suffix_refl _
    refine Program.triple_bind (leads_access (o := .getBreakpoints)
      (H := fun breakpoints u => breakpoints.map BreakpointSpec.bpId = bpIds w ∧
        Registered (bpIds w) u) stable_registered fun _ u hu => ⟨hu, hu⟩) fun breakpoints => ?_
    intro x hx
    rw [hx.1]
    exact leads_removeEach hdistinct (List.suffix_refl _) [] x hx.2
  have hend := Program.reaches_of_wp (hleads (w, []) rfl) h
  cases r with
  | ok result => exact Or.inl ⟨congrArg Except.ok hend.1, List.map_eq_nil_iff.mp hend.2⟩
  | error e => exact Or.inr ⟨e, rfl, hend⟩

end Clearing

section Samples

/-- A hit of a watchpoint. -/
def sampleHit (pc : ℤ) : Capture := ⟨some pc, none, some 5, none, none, none, none, none⟩

/-- A session with two registered points, the second of which has been hit. -/
def twoPoints : TokenWorld :=
  {pausedWorld with
    breakpoints := [⟨1, 0x80001000, .swBp, 4, none, [], true, [sampleHit 0x80001000]⟩,
      ⟨2, 0x80400000, .writeWp, 4, none, [], true, [sampleHit 0x80002000]⟩]
    nextId := 3}

/-- The watcher records a hit of the first point. -/
def recording : Op Origin := .appendLog 1 (sampleHit 0x80001004) ⟨[], .reply 0⟩

/-- The first point is hit once more. -/
def hitAgain (w : TokenWorld) : TokenWorld := (World.step (tokenLink Origin) recording {net := default} w).2

/-- A watcher thread may record another hit. -/
theorem meanwhile_hitAgain (w : TokenWorld) : meanwhile (tokenLink Origin) w (hitAgain w) :=
  Relation.ReflTransGen.single (Or.inl ⟨recording, {net := default}, trivial, rfl⟩)

/-- The sample registry is in order. -/
theorem inOrder_twoPoints : InOrder layout (registry twoPoints) :=
  ⟨by decide, by decide⟩

/-- A filter that asks for a program counter. -/
def hasPc : Compiler := fun _ => .ok fun capture => .ok capture.pc.isSome

/-- The log of the first point under that filter. -/
def pollFirst (limit : Option ℤ) : Code Origin (List Annotated) :=
  getCaptureLogWhere hasPc {} 1 (some "pc".toList) limit

/-- A read of the sample log is a run of the tool. -/
theorem reaches_pollFirst {limit : Option ℤ} {w : TokenWorld} {result : List Annotated}
    (hresult : ((pollFirst limit).run (machine (tokenLink Origin)) [] w).1 = .ok result)
    (hworld : ((pollFirst limit).run (machine (tokenLink Origin)) [] w).2.1 = w) :
    ∃ passed, (pollFirst limit).Reaches (busy (tokenLink Origin)) (w, []) (.ok result) (w, passed) := by
  have hrefl : ∀ w : TokenWorld, meanwhile (tokenLink Origin) w w := fun _ => Relation.ReflTransGen.refl
  have hreach := Program.reaches_along (follows_machine (tokenLink Origin) (pollFirst limit) [] w) hresult
  obtain ⟨passed, hpassed⟩ := reaches_interleaved hrefl hreach []
  rw [hworld] at hpassed
  exact ⟨_, hpassed⟩

/-- The second read shows the hit that came in between. -/
theorem polls_miss_nothing_hit : ∃ (new : List Annotated) (entries fresh : List Capture), new.length = 2 ∧
    Logged hasPc (some "pc".toList) 1 twoPoints entries ∧
      Logged hasPc (some "pc".toList) 1 (hitAgain twoPoints) (entries ++ fresh) ∧
      new = (newest (some 5) (entries ++ fresh)).map (annotateCapture {}) := by
  have hold : ((pollFirst none).run (machine (tokenLink Origin)) [] twoPoints).1 =
      .ok [annotateCapture {} (sampleHit 0x80001000)] := by decide +kernel
  have hnew : ((pollFirst (some 5)).run (machine (tokenLink Origin)) [] (hitAgain twoPoints)).1 =
      .ok [annotateCapture {} (sampleHit 0x80001000), annotateCapture {} (sampleHit 0x80001004)] := by decide +kernel
  obtain ⟨passed, hfirst⟩ := reaches_pollFirst hold rfl
  obtain ⟨passed', hlater⟩ := reaches_pollFirst hnew rfl
  have hbetween : Passes (tokenLink Origin) plainHost [] twoPoints (hitAgain twoPoints) :=
    meanwhile_hitAgain twoPoints
  obtain ⟨entries, fresh, hentries, -, hlogged, hresult, -⟩ := polls_miss_nothing inOrder_twoPoints
    (fun h => absurd h List.not_mem_nil) hfirst hbetween hlater
  exact ⟨_, entries, fresh, rfl, hentries, hlogged, hresult⟩

/-- Both deletions are answered. -/
def bothDeleted : List (Choice Origin TokenNet) :=
  [{net := default, response := [.ack (.reply 0), .frame okBody (.reply 0)]}, {net := default}, {net := default},
    {net := default, response := [.ack (.reply 1), .frame okBody (.reply 1)]}, {net := default}, {net := default}]

/-- Both entries are removed. -/
theorem remove_all_is_in_order_two : ∃ (v : TokenWorld) (passed : List TokenWorld),
    removeAll.Reaches (busy (tokenLink Origin)) (twoPoints, []) (.ok [1, 2]) (v, passed) ∧ v.breakpoints = [] := by
  have hfollows : (removeAll : Code Origin (List ℕ)).Follows (machine (tokenLink Origin)) bothDeleted twoPoints :=
    follows_machine _ _ _ _
  have hreach := Program.reaches_along hfollows (r := .ok [1, 2]) (by decide +kernel)
  have hrefl : ∀ w : TokenWorld, meanwhile (tokenLink Origin) w w := fun _ => Relation.ReflTransGen.refl
  obtain ⟨passed, hpassed⟩ := reaches_interleaved hrefl hreach []
  refine ⟨_, _, hpassed, ?_⟩
  rcases remove_all_is_in_order inOrder_twoPoints hpassed with ⟨-, hempty⟩ | ⟨e, he, -⟩
  · exact hempty
  · cases he

end Samples

end DolphinRe.RegistryHistory
