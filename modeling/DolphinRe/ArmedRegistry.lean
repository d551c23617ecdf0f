import DolphinRe.Footprints
import DolphinRe.Interference
import DolphinRe.PacketNumerals
import DolphinRe.StubBehaviour
import DolphinRe.ToolStructure

/-!
# Registered breakpoints are armed

The registry is keyed by number and the stub by kind, address and length. Over
any run of the tools that insert and delete points, with the background
threads running anywhere in between, every registered breakpoint is armed as
long as no deletion names a point of a registered one and every insertion says
what the registry will record.
-/

namespace DolphinRe.ArmedRegistry

open PythonText GdbPackets GdbWire GdbTokens StopReplies EffectProgram SessionMachine GdbClient
  SessionTools BreakpointTools ExecutionTools LinkRefinement StubBehaviour Footprints ToolStructure
  Interference PacketNumerals

section Statement

variable {τ N L : Type}

/-- Tools that insert or delete points. -/
inductive Call where
  | addBreakpoint (addr : ℤ)
  | addWatchpoint (addr size : ℤ) (on : String)
  | remove (bpId : ℕ)
  | removeAll
  | stepOver
  | stepOut
  | runUntil (addr : ℤ) (timeout : ℕ)
  | traceWritesTo (addr size duration : ℤ) (captures : Option (List String))
  | traceCallsTo (entryAddr duration : ℤ) (captures : Option (List String))
  deriving DecidableEq, Repr

/-- One call, with its result dropped. -/
def Call.code (host : Host) : Call → Code τ Unit
  | .addBreakpoint addr => do let _ ← BreakpointTools.addBreakpoint addr
  | .addWatchpoint addr size on => do let _ ← BreakpointTools.addWatchpoint addr size on
  | .remove bpId => do let _ ← BreakpointTools.remove bpId
  | .removeAll => do let _ ← BreakpointTools.removeAll
  | .stepOver => do let _ ← ExecutionTools.stepOver host
  | .stepOut => do let _ ← ExecutionTools.stepOut host
  | .runUntil addr timeout => do let _ ← ExecutionTools.runUntil addr timeout
  | .traceWritesTo addr size duration captures => do
    let _ ← ExecutionTools.traceWritesTo addr size duration captures
  | .traceCallsTo entryAddr duration captures => do
    let _ ← ExecutionTools.traceCallsTo entryAddr duration captures

/-- A run of calls; one that raises does not end the run. -/
def performAll (host : Host) : List Call → Code τ Unit
  | [] => pure ()
  | call :: calls => do
    let _ ← (call.code host).attempt
    performAll host calls

/-- Every registered breakpoint is armed in the stub. -/
def RegisteredArmed (w : World τ L) : Prop := ∀ spec ∈ w.breakpoints, spec.point ∈ w.armed

/-- The stub carries out every breakpoint packet it receives. -/
def SetsPoints : Discipline τ := fun o c _ _ =>
  match o with
  | .send message => isModify message = true → c.obeyed = true
  | _ => True

/-- An insertion's address is a plain hexadecimal number and its size one digit;
a deletion names no point of a registered breakpoint. -/
def SparesRegistered : Discipline τ := fun o _ w _ =>
  match o with
  | .send (.packet (.setBreak true _ addr size)) => 0 ≤ addr ∧ 0 ≤ size ∧ size < 10
  | .send (.packet (.setBreak false kind addr size)) => ∀ spec ∈ w.breakpoints,
    readPoint (Command.setBreak false kind addr size).payload ≠ some (false, spec.point)
  | _ => True

instance (o : Op τ) (c : Choice τ Unit) (w : World τ Unit) (answer : o.Answer) :
    Decidable (SetsPoints o c w answer) := by
  unfold SetsPoints
  split <;> infer_instance

instance (o : Op τ) (c : Choice τ Unit) (w : World τ Unit) (answer : o.Answer) :
    Decidable (SparesRegistered o c w answer) := by
  unfold SparesRegistered
  split <;> infer_instance

/-- The machine of a stub that sets points. -/
abbrev settingMachine (link : Link τ N L) : Machine (signature τ) (Choice τ N) (World τ L) :=
  disciplined link SetsPoints

/-- The same when the condition is met at every step. -/
abbrev sparingMachine (link : Link τ N L) : Machine (signature τ) (Choice τ N) (World τ L) :=
  disciplined link fun o c w answer => SetsPoints o c w answer ∧ SparesRegistered o c w answer

/-- What the background threads may do between two accesses of the tools. -/
def background (link : Link τ N L) : World τ L → World τ L → Prop :=
  operating (sparingMachine link) spares

end Statement

section Steps

variable {τ N L : Type} {link : Link τ N L} {w v : World τ L} {c : Choice τ N}

/-- Two worlds with the same registered and the same armed points. -/
structure SamePoints (w v : World τ L) : Prop where
  /-- The registered points are the same, in the same order. -/
  registered : v.breakpoints.map BreakpointSpec.point = w.breakpoints.map BreakpointSpec.point
  /-- So are the points armed in the stub. -/
  armed : v.armed = w.armed

/-- Registered breakpoints are armed, and so is one more point. -/
def AlsoArmed (point : Point) (w : World τ L) : Prop := RegisteredArmed w ∧ point ∈ w.armed

/-- Whether the registered points are armed depends on their points alone. -/
theorem registeredArmed_iff : RegisteredArmed w ↔
    ∀ point ∈ w.breakpoints.map BreakpointSpec.point, point ∈ w.armed := by
  simp [RegisteredArmed]

/-- Worlds with the same points agree on that. -/
theorem SamePoints.registeredArmed (h : SamePoints w v) (hw : RegisteredArmed w) :
    RegisteredArmed v := by
  rw [registeredArmed_iff] at hw ⊢
  rw [h.registered, h.armed]
  exact hw

/-- They agree on one more point. -/
theorem SamePoints.alsoArmed {point : Point} (h : SamePoints w v) (hw : AlsoArmed point w) :
    AlsoArmed point v :=
  ⟨h.registeredArmed hw.1, h.armed ▸ hw.2⟩

/-- Changes to a specification that keep its point keep all points. -/
theorem map_point_amend {f : BreakpointSpec → BreakpointSpec} (hf : ∀ spec, (f spec).point = spec.point)
    (bpId : ℕ) (breakpoints : List BreakpointSpec) :
    (amend bpId f breakpoints).map BreakpointSpec.point = breakpoints.map BreakpointSpec.point := by
  unfold amend
  rw [List.map_map]
  refine List.map_congr_left fun spec _ => ?_
  rw [Function.comp_apply]
  split_ifs
  · exact hf spec
  · rfl

/-- What the stub does on its own arms and disarms nothing. -/
theorem samePoints_absorb (acts : List (StubAct τ)) : SamePoints w (w.absorb link acts) :=
  ⟨by rw [World.absorb_breakpoints], World.absorb_armed link acts w⟩

/-- A sparing access keeps all points. -/
theorem samePoints_step {M : Machine (signature τ) (Choice τ N) (World τ L)}
    (hM : M.step = World.step link) {o : Op τ} (ho : spares o) (c : Choice τ N) (w : World τ L) :
    SamePoints w (M.step o c w).2 := by
  rw [hM]
  have habsorb : SamePoints w (w.absorb link c.acts) := samePoints_absorb c.acts
  cases o with
  | send message =>
    change SamePoints w (World.send link message c (w.absorb link c.acts)).2
    unfold World.send
    split_ifs
    · exact ⟨habsorb.registered, habsorb.armed⟩
    · refine ⟨habsorb.registered, ?_⟩
      change (if c.obeyed = true then armedAfter message _ else _) = _
      rw [armedAfter_of_not_modify ho]
      split_ifs <;> exact habsorb.armed
    · exact habsorb
  | consumeAck =>
    change SamePoints w (World.consumeAck link c (w.absorb link c.acts)).2
    unfold World.consumeAck
    split_ifs
    · exact ⟨habsorb.registered, habsorb.armed⟩
    · exact habsorb
  | readPacketFromWire timeout =>
    change SamePoints w (World.readPacket link c (w.absorb link c.acts)).2
    unfold World.readPacket
    split_ifs
    · exact ⟨habsorb.registered, habsorb.armed⟩
    · exact habsorb
  | connect =>
    change SamePoints w (World.connect link c (w.absorb link c.acts)).2
    unfold World.connect
    split_ifs
    · exact habsorb
    · exact habsorb
    · exact ⟨habsorb.registered, habsorb.armed⟩
  | markRunning =>
    change SamePoints w (if _ then {w with state := .connectedRunning} else w)
    split_ifs <;> exact ⟨rfl, rfl⟩
  | markPaused =>
    change SamePoints w (if _ then {w with state := .connectedPaused} else w)
    split_ifs <;> exact ⟨rfl, rfl⟩
  | close =>
    change SamePoints w (if _ then w.closed link else w)
    split_ifs <;> exact ⟨rfl, rfl⟩
  | setCaptures bpId captures =>
    exact ⟨map_point_amend (f := fun spec => {spec with captures := captures})
      (fun _ => rfl) bpId w.breakpoints, rfl⟩
  | setAutoContinue bpId enabled =>
    exact ⟨map_point_amend (f := fun spec => {spec with autoContinue := enabled})
      (fun _ => rfl) bpId w.breakpoints, rfl⟩
  | appendLog bpId capture raw =>
    exact ⟨map_point_amend (f := fun spec => {spec with log := spec.log ++ [capture]})
      (fun _ => rfl) bpId w.breakpoints, rfl⟩
  | _ => first
    | exact ho.elim
    | exact ⟨rfl, rfl⟩
    | exact ⟨habsorb.registered, habsorb.armed⟩

/-- Arming a point leaves the others armed. -/
theorem mem_arm {point other : Point} {armed : List Point} (h : other ∈ armed) :
    other ∈ arm point armed := by
  unfold arm
  split_ifs
  · exact h
  · exact List.mem_append_left _ h

/-- It arms the point. -/
theorem self_mem_arm (point : Point) (armed : List Point) : point ∈ arm point armed := by
  unfold arm
  split_ifs with h
  · exact h
  · exact List.mem_append_right _ (List.mem_singleton_self point)

/-- An insertion that reads as it is written arms its point and keeps the others. -/
theorem armedAfter_insertion {kind : BpKind} {addr size : ℤ}
    (h : 0 ≤ addr ∧ 0 ≤ size ∧ size < 10) (armed : List Point) :
    armedAfter (.packet (.setBreak true kind addr size)) armed = arm ⟨kind, addr, size⟩ armed := by
  unfold armedAfter setPoint
  dsimp only
  rw [(readPoint_payload_iff true kind addr size).mpr h]

/-- A deletion keeps every point it does not name. -/
theorem armedAfter_deletion {kind : BpKind} {addr size : ℤ} {point : Point} {armed : List Point}
    (hother : readPoint (Command.setBreak false kind addr size).payload ≠ some (false, point))
    (h : point ∈ armed) :
    point ∈ armedAfter (.packet (.setBreak false kind addr size)) armed := by
  unfold armedAfter setPoint
  dsimp only
  cases hread : readPoint (Command.setBreak false kind addr size).payload with
  | none => exact h
  | some read =>
    obtain ⟨insert, named⟩ := read
    cases insert with
    | true => exact mem_arm h
    | false =>
      have hne : point ≠ named := fun heq => hother (by rw [hread, heq])
      exact List.mem_filter.mpr ⟨h, by simpa using hne⟩

/-- What a breakpoint packet does under the condition. -/
theorem setBreak_step {insert : Bool} {kind : BpKind} {addr size : ℤ}
    (hc : (sparingMachine link).admits (.send (.packet (.setBreak insert kind addr size))) c w)
    (hw : RegisteredArmed w) :
    RegisteredArmed ((sparingMachine link).step (.send (.packet (.setBreak insert kind addr size))) c w).2 ∧
      (insert = true →
        ((sparingMachine link).step (.send (.packet (.setBreak insert kind addr size))) c w).1 = .ok () →
        ⟨kind, addr, size⟩ ∈ ((sparingMachine link).step
          (.send (.packet (.setBreak insert kind addr size))) c w).2.armed) := by
  obtain ⟨-, hobeyed, hspared⟩ := hc
  have hobeyed : c.obeyed = true := hobeyed rfl
  have hbefore : RegisteredArmed (w.absorb link c.acts) := (samePoints_absorb c.acts).registeredArmed hw
  have hregistered : (w.absorb link c.acts).breakpoints = w.breakpoints :=
    World.absorb_breakpoints link c.acts w
  change RegisteredArmed (World.send link _ c (w.absorb link c.acts)).2 ∧
    (_ → (World.send link _ c (w.absorb link c.acts)).1 = .ok () →
      _ ∈ (World.send link _ c (w.absorb link c.acts)).2.armed)
  generalize w.absorb link c.acts = u at hbefore hregistered
  unfold World.send
  split_ifs
  · exact ⟨hbefore, fun _ h => by simp at h⟩
  · have hafter : (u.delivered link (.packet (.setBreak insert kind addr size)) c).armed =
        armedAfter (.packet (.setBreak insert kind addr size)) u.armed := if_pos hobeyed
    cases insert with
    | true =>
      rw [armedAfter_insertion hspared] at hafter
      refine ⟨fun spec hspec => ?_, fun _ _ => ?_⟩
      · dsimp only
        rw [hafter]
        exact mem_arm (hbefore spec hspec)
      · dsimp only
        rw [hafter]
        exact self_mem_arm _ _
    | false =>
      refine ⟨fun spec hspec => ?_, fun h => by simp at h⟩
      dsimp only
      rw [hafter]
      have hmem : spec ∈ w.breakpoints := hregistered ▸ hspec
      exact armedAfter_deletion (hspared spec hmem) (hbefore spec hspec)
  · exact ⟨hbefore, fun _ h => by simp at h⟩

/-- Registering a breakpoint whose point is armed. -/
theorem registered_register (spec : BreakpointSpec) (h : AlsoArmed spec.point w) :
    RegisteredArmed {w with breakpoints := register spec w.breakpoints} := by
  intro other hother
  have hmem : other ∈ register spec w.breakpoints := hother
  unfold register at hmem
  split_ifs at hmem
  · obtain ⟨old, hold, rfl⟩ := List.mem_map.mp hmem
    split_ifs
    · exact h.2
    · exact h.1 old hold
  · rcases List.mem_append.mp hmem with hmem | hmem
    · exact h.1 other hmem
    · rw [List.mem_singleton.mp hmem]
      exact h.2

end Steps

section Programs

variable {τ N L α β : Type} {link : Link τ N L}

/-- The tools with the background threads running in between. -/
abbrev busyMachine (link : Link τ N L) :
    Machine (signature τ) (Choice τ N × World τ L) (World τ L × List (World τ L)) :=
  Machine.interleaved (sparingMachine link) (background link)

/-- Registered breakpoints are armed, now and in every world passed. -/
def Sound (x : World τ L × List (World τ L)) : Prop := Passed RegisteredArmed RegisteredArmed x

/-- One more point is armed now. -/
def Gained (point : Point) (x : World τ L × List (World τ L)) : Prop :=
  Passed RegisteredArmed (AlsoArmed point) x

/-- The background threads keep the registered points armed. -/
theorem stable_registeredArmed : Stable (background link) RegisteredArmed :=
  stable_operating fun _ c w ho _ hw => (samePoints_step rfl ho c w).registeredArmed hw

/-- They keep one more point armed. -/
theorem stable_alsoArmed (point : Point) : Stable (background link) (AlsoArmed point) :=
  stable_operating fun _ c w ho _ hw => (samePoints_step rfl ho c w).alsoArmed hw

/-- With one more point armed, the registered ones are. -/
theorem sound_of_gained {point : Point} {x : World τ L × List (World τ L)} (h : Gained point x) :
    Sound x :=
  h.mono fun _ hw => hw.1

/-- Code that spares the breakpoints keeps them armed. -/
theorem keeps_sound {p : Code τ α} (hp : p.Uses spares) : p.Keeps (busyMachine link) Sound :=
  passed_of_uses (fun _ h => h) stable_registeredArmed
    (fun _ c w ho _ hw => (samePoints_step rfl ho c w).registeredArmed hw) hp

/-- It keeps one more point armed. -/
theorem keeps_gained {p : Code τ α} (point : Point) (hp : p.Uses spares) :
    p.Keeps (busyMachine link) (Gained point) :=
  passed_of_uses (fun _ h => h.1) (stable_alsoArmed point)
    (fun _ c w ho _ hw => (samePoints_step rfl ho c w).alsoArmed hw) hp

/-- The outcome of code that arms the point of its result before it returns. -/
def Gains (point : α → Point) : Except PyError α → World τ L × List (World τ L) → Prop
  | .ok a, x => Gained (point a) x
  | .error _, x => Sound x

/-- Code that arms the point of its result before it returns. -/
def Gaining (link : Link τ N L) (point : α → Point) (p : Code τ α) : Prop :=
  ∀ x, Sound x → p.wp (busyMachine link) (Gains point) x

/-- An error gains nothing. -/
theorem gaining_raise (point : α → Point) (e : PyError) : Gaining link point (.raise e : Code τ α) :=
  fun _ h => h

/-- Something harmless before. -/
theorem gaining_after {point : β → Point} {p : Code τ α} {f : α → Code τ β} (hp : p.Uses spares)
    (hf : ∀ a, Gaining link point (f a)) : Gaining link point (p.bind f) := by
  intro x hx
  rw [Program.wp_bind]
  refine Program.wp_mono ?_ (keeps_sound hp x hx)
  intro r y hy
  cases r with
  | ok a => exact hf a y hy
  | error e => exact hy

/-- Something harmless afterwards. -/
theorem gaining_then {point : β → Point} {p : Code τ α} {f : α → Code τ β} {first : α → Point}
    (hp : Gaining link first p)
    (hf : ∀ a x, Gained (first a) x → (f a).wp (busyMachine link) (Gains point) x) :
    Gaining link point (p.bind f) := by
  intro x hx
  rw [Program.wp_bind]
  refine Program.wp_mono ?_ (hp x hx)
  intro r y hy
  cases r with
  | ok a => exact hf a y hy
  | error e => exact hy

/-- A cleanup that spares the breakpoints loses nothing. -/
theorem gaining_ensuring {point : α → Point} {p : Code τ α} {cleanup : Code τ Unit}
    (hp : Gaining link point p) (hcleanup : cleanup.Uses spares) :
    Gaining link point (p.ensuring cleanup) := by
  intro x hx
  rw [Program.wp_ensuring]
  refine Program.wp_mono ?_ (hp x hx)
  intro r y hy
  cases r with
  | ok a =>
    refine Program.wp_mono ?_ (keeps_gained (point a) hcleanup y hy)
    intro s z hz
    cases s with
    | ok _ => exact hz
    | error e => exact sound_of_gained hz
  | error e =>
    refine Program.wp_mono ?_ (keeps_sound hcleanup y hy)
    intro s z hz
    cases s <;> exact hz

/-- What follows the sending of a breakpoint packet. -/
def afterBreak (insert : Bool) (kind : BpKind) : Code τ (Packet τ) := do
  consumeAck
  let reply ← readPacketFromWire none
  if reply.text = [] then
    throwing (.gdbStubError (String.ofList (breakOp insert kind) ++ " unsupported by stub"))
  else if startsWith "E".toList reply.text then
    throwing (.gdbStubError
      (String.ofList (breakOp insert kind) ++ " failed: " ++ String.ofList reply.text))
  else pure reply

/-- A change is sent, and answered afterwards. -/
theorem setBreak_eq (insert : Bool) (kind : BpKind) (addr size : ℤ) :
    (setBreak insert kind addr size : Code τ (Packet τ)) =
      (sendall (.packet (.setBreak insert kind addr size))).bind fun _ => afterBreak insert kind := by
  simp only [setBreak, cmd, sendPacket, afterBreak, Program.bind_eq, Program.bind_assoc]

/-- The answer spares the breakpoints. -/
theorem uses_afterBreak (insert : Bool) (kind : BpKind) :
    (afterBreak insert kind : Code τ (Packet τ)).Uses spares := by
  refine Program.uses_bind (uses_consumeAck trivial) fun _ => ?_
  refine Program.uses_bind (uses_readPacketFromWire trivial) fun reply => ?_
  split_ifs <;> trivial

/-- An insertion arms its point before it returns. -/
theorem gaining_insertion (kind : BpKind) (addr size : ℤ) :
    Gaining link (fun _ => ⟨kind, addr, size⟩) (setBreak true kind addr size) := by
  intro x hx
  rw [setBreak_eq, Program.wp_bind, wp_sendall]
  intro c hc
  -- the point is armed once the packet has left the client
  have hsent := passed_step (K := RegisteredArmed)
    (J := fun v => RegisteredArmed v ∧ (((sparingMachine link).step
      (.send (.packet (.setBreak true kind addr size))) c.1 c.2).1 = .ok () →
        ⟨kind, addr, size⟩ ∈ v.armed))
    (fun _ h => h) (fun _ h => h.1) stable_registeredArmed (fun hadmits hbefore =>
      (setBreak_step hadmits hbefore).imp_right fun h => h rfl) hc hx
  change Program.onValue _ _ _ ((sparingMachine link).step
    (.send (.packet (.setBreak true kind addr size))) c.1 c.2).1 _
  cases hanswer : ((sparingMachine link).step
    (.send (.packet (.setBreak true kind addr size))) c.1 c.2).1 with
  | error e => exact hsent.mono fun _ h => h.1
  | ok u =>
    have hgained : Gained ⟨kind, addr, size⟩ _ := hsent.mono fun _ h => ⟨h.1, h.2 hanswer⟩
    refine Program.wp_mono ?_ (keeps_gained _ (uses_afterBreak true kind) _ hgained)
    intro r y hy
    cases r with
    | ok packet => exact hy
    | error e => exact sound_of_gained hy

/-- The quiescing around a change spares the points. -/
theorem gaining_safeToModify {point : α → Point} {body : Code τ α} (hbody : Gaining link point body) :
    Gaining link point (safeToModify body) := by
  refine gaining_after (uses_access trivial) fun _ => gaining_ensuring ?_ (uses_access trivial)
  refine gaining_after (uses_access trivial) fun state => ?_
  split_ifs
  · refine gaining_after (uses_spares (uses_pauseForModify rfl rfl)) fun _ => ?_
    exact gaining_ensuring hbody (uses_spares (uses_resumeAfterModify rfl))
  · exact hbody

/-- Inserting a watchpoint gains it. -/
theorem gaining_insertWatchpoint (addr size : ℤ) (on : String) :
    Gaining link (fun kind => ⟨kind, addr, size⟩) (insertWatchpoint addr size on : Code τ BpKind) := by
  unfold insertWatchpoint
  cases watchKind on with
  | error e => exact gaining_raise _ e
  | ok kind =>
    rw [Program.bind_eq, Program.ofExcept, Program.done_bind]
    exact gaining_then (gaining_insertion kind addr size) fun _ _ hx => hx

/-- A breakpoint is registered once its point is armed. -/
theorem wp_registerNew (addr : ℤ) (kind : BpKind) (size : ℤ)
    {x : World τ L × List (World τ L)} (hx : Gained ⟨kind, addr, size⟩ x) :
    (registerNew addr kind size).wp (busyMachine link) (fun _ y => Sound y) x := by
  intro c hc
  have halloc : Gained ⟨kind, addr, size⟩ ((busyMachine link).step .allocBpId c x).2 :=
    passed_step (fun _ h => h.1) (fun _ h => h.1) (stable_alsoArmed _)
      (fun _ h => (samePoints_step rfl (o := .allocBpId) trivial c.1 c.2).alsoArmed h) hc hx
  intro c' hc'
  refine passed_step (K := AlsoArmed ⟨kind, addr, size⟩) (J := RegisteredArmed) (fun _ h => h.1)
    (fun _ h => h) (stable_alsoArmed _) (fun _ h => ?_) hc' halloc
  exact registered_register {bpId := _, addr := addr, kind := kind, size := size} h

/-- Insertion, then registration. -/
theorem sound_add {point : α → Point} {body : Code τ α} (hbody : Gaining link point body)
    {f : α → Code τ β}
    (hf : ∀ a x, Gained (point a) x → (f a).wp (busyMachine link) (fun _ y => Sound y) x) :
    (ensureConnected.bind fun _ => (safeToModify body).bind f).Keeps (busyMachine link) Sound := by
  have hconnect : (ensureConnected : Code τ Unit).Uses spares :=
    uses_spares (uses_ensureConnected rfl rfl)
  refine Program.keeps_bind (keeps_sound hconnect) fun _ x hx => ?_
  rw [Program.wp_bind]
  refine Program.wp_mono ?_ (gaining_safeToModify hbody x hx)
  intro r y hy
  cases r with
  | ok a => exact hf a y hy
  | error e => exact hy

/-- A breakpoint is registered once it is armed. -/
theorem sound_addBreakpoint (addr : ℤ) : (addBreakpoint addr).Keeps (busyMachine link) Sound :=
  sound_add (gaining_insertion .swBp addr 4) fun _ _ hx => wp_registerNew addr .swBp 4 hx

/-- So is a watchpoint. -/
theorem sound_addWatchpoint (addr size : ℤ) (on : String) :
    (addWatchpoint addr size on).Keeps (busyMachine link) Sound :=
  sound_add (gaining_insertWatchpoint addr size on) fun kind _ hx => wp_registerNew addr kind size hx

/-- Insertion packets. -/
def isInsertion : Sent → Bool
  | .packet (.setBreak insert _ _ _) => insert
  | _ => false

/-- Deletions keep registered breakpoints armed. -/
theorem keeps_deletion {p : Code τ α}
    (hp : p.Uses (restrained true true true fun message => isInsertion message = false)) :
    p.Keeps (busyMachine link) Sound := by
  refine passed_of_uses (fun _ h => h) stable_registeredArmed (fun o c w ho hc hw => ?_) hp
  have hspares : spares o → RegisteredArmed ((sparingMachine link).step o c w).2 :=
    fun h => (samePoints_step rfl h c w).registeredArmed hw
  cases o with
  | send message =>
    cases message with
    | interrupt => exact hspares rfl
    | packet command =>
      cases command with
      | setBreak insert kind addr size => exact (setBreak_step hc hw).1
      | _ => exact hspares rfl
  | _ => first
    | exact ho.elim
    | exact hspares trivial

/-- An entry is unregistered before its point is disarmed. -/
theorem sound_remove (bpId : ℕ) : (remove bpId).Keeps (busyMachine link) Sound := by
  have hconnect : (ensureConnected : Code τ Unit).Uses spares :=
    uses_spares (uses_ensureConnected rfl rfl)
  refine Program.keeps_bind (keeps_sound hconnect) fun _ => ?_
  refine Program.keeps_bind (Program.keeps_perform (fun c x hc hx => ?_) Program.keeps_done)
    fun found => ?_
  · refine passed_step (K := RegisteredArmed) (J := RegisteredArmed) (fun _ h => h) (fun _ h => h)
      stable_registeredArmed (fun _ h spec hspec => ?_) hc hx
    exact h spec (List.mem_of_mem_filter hspec)
  · cases found with
    | none => exact Program.keeps_done false
    | some spec =>
      refine Program.keeps_bind (keeps_deletion ?_) fun _ => Program.keeps_done true
      exact uses_deleteFromStub spec rfl rfl rfl fun _ _ _ => rfl

end Programs

section Tools

variable {τ N L : Type} {link : Link τ N L}

/-- The pieces of the tools spare the points. -/
theorem sparing_pieces : Pieces fun _ (p : Code τ _) => p.Uses spares :=
  pieces_of_calm (Program.uses_compositional (S := signature τ) spares)
    (fun o ho => uses_access (by cases o <;> trivial)) uses_spares

/-- Starting to capture spares the breakpoints. -/
theorem uses_captureOnHit (bpId : ℕ) (captures : Option (List String)) (autoResume : Bool) :
    (captureOnHit bpId captures autoResume : Code τ Unit).Uses spares :=
  sparing_pieces.captureOnHit (uses_spares (uses_resumeLocked rfl)) bpId captures autoResume

/-- The pieces of the tools keep the registered points armed. -/
theorem sound_pieces : Pieces fun _ (p : Code τ _) => p.Keeps (busyMachine link) Sound :=
  pieces_of_calm (Program.keeps_compositional _ _)
    (fun o ho => keeps_sound (sparing_pieces.session o ho)) fun hp => keeps_sound (uses_spares hp)

/-- So does a trace. -/
theorem sound_traceHits (bpId duration : ℕ) (captures : List String) :
    (traceHits bpId duration captures).Keeps (busyMachine link) Sound :=
  sound_pieces.traceHits sound_remove (fun id keys resume => keeps_sound (uses_captureOnHit id keys resume))
    bpId duration captures

/-- So does every tool. -/
theorem sound_call (host : Host) (call : Call) :
    (call.code host).Keeps (busyMachine link) Sound := by
  cases call with
  | addBreakpoint addr =>
    exact Program.keeps_bind (sound_addBreakpoint addr) fun _ => Program.keeps_done ()
  | addWatchpoint addr size on =>
    exact Program.keeps_bind (sound_addWatchpoint addr size on) fun _ => Program.keeps_done ()
  | remove bpId => exact Program.keeps_bind (sound_remove bpId) fun _ => Program.keeps_done ()
  | removeAll =>
    exact Program.keeps_bind (sound_pieces.removeAll sound_remove) fun _ => Program.keeps_done ()
  | stepOver =>
    exact Program.keeps_bind (sound_pieces.stepOver sound_addBreakpoint sound_remove host) fun _ =>
      Program.keeps_done ()
  | stepOut =>
    exact Program.keeps_bind (sound_pieces.stepOut sound_addBreakpoint sound_remove host) fun _ =>
      Program.keeps_done ()
  | runUntil addr timeout =>
    exact Program.keeps_bind (sound_pieces.runUntil sound_addBreakpoint sound_remove addr timeout)
      fun _ => Program.keeps_done ()
  | traceWritesTo addr size duration captures =>
    refine Program.keeps_bind (Program.keeps_bind (Program.keeps_ofExcept _) fun duration => ?_)
      fun _ => Program.keeps_done ()
    exact Program.keeps_bind (sound_addWatchpoint addr size "write") fun bpId =>
      sound_traceHits bpId duration _
  | traceCallsTo entryAddr duration captures =>
    refine Program.keeps_bind (Program.keeps_bind (Program.keeps_ofExcept _) fun duration => ?_)
      fun _ => Program.keeps_done ()
    exact Program.keeps_bind (sound_addBreakpoint entryAddr) fun bpId =>
      sound_traceHits bpId duration _

/-- So does every sequence of calls. -/
theorem sound_performAll (host : Host) (calls : List Call) :
    (performAll host calls).Keeps (busyMachine link) Sound := by
  induction calls with
  | nil => exact Program.keeps_done ()
  | cons call calls ih =>
    exact Program.keeps_bind (Program.keeps_attempt (sound_call host call)) fun _ => ih

end Tools

section Threads

variable {τ N L : Type} {link : Link τ N L}

/-- A turn of a watcher thread is among the things the background may do. -/
theorem background_watcher (host : Host) (thread : ℕ) {w v : World τ L} {r : Except PyError Unit}
    (h : (watcherIteration host thread).Reaches (sparingMachine link) w r v) :
    background link w v :=
  operating_of_reaches (uses_watcherIteration host thread (fun _ h => spares_of_calm (calm_of_mild h))
    (fun _ _ _ => trivial) fun _ => trivial) h

/-- So is a tick of the auto-connect worker. -/
theorem background_autoConnect {w v : World τ L} {r : Except PyError Unit}
    (h : autoConnectTick.Reaches (sparingMachine link) w r v) : background link w v :=
  operating_of_reaches uses_autoConnectTick h

end Threads

section Main

variable {τ N L : Type}

/-- In every state reached by a run whose steps meet the condition, with the
background threads running between any two accesses, every registered
breakpoint is armed. -/
theorem registered_are_armed (link : Link τ N L) (host : Host) (calls : List Call) (w : World τ L)
    (hw : RegisteredArmed w) (r : Except PyError Unit) (v : World τ L) (visited : List (World τ L))
    (h : (performAll host calls).Reaches (busyMachine link) (w, []) r (v, visited)) :
    RegisteredArmed v ∧ ∀ u ∈ visited, RegisteredArmed u :=
  Program.reaches_of_wp (sound_performAll host calls (w, []) ⟨hw, fun _ hu => by simp at hu⟩) h

/-- A breakpoint packet is carried out, acknowledged and answered. -/
def carriedOut (number : ℕ) : List (Choice Origin TokenNet) :=
  [{net := default, response := [.ack (.reply number), .frame okBody (.reply number)]},
    {net := default}, {net := default}]

/-- Three breakpoint packets. -/
def threeCarriedOut : List (Choice Origin TokenNet) :=
  carriedOut 0 ++ carriedOut 1 ++ carriedOut 2

/-- The world after a run of calls with three breakpoint packets. -/
def worldAfter (calls : List Call) : TokenWorld :=
  ((performAll plainHost calls).run (settingMachine (tokenLink Origin)) threeCarriedOut
    pausedWorld).2.1

/-- Two breakpoints at different addresses, one of them removed. -/
def apartCalls : List Call := [.addBreakpoint 0x80003100, .addBreakpoint 0x80003200, .remove 1]

/-- Two breakpoints at one address, one of them removed. -/
def doubledCalls : List Call := [.addBreakpoint 0x80003100, .addBreakpoint 0x80003100, .remove 1]

/-- Two breakpoints are added, and one of them removed. -/
theorem registered_are_armed_apart : ∃ v visited,
    (performAll plainHost apartCalls).Reaches (busyMachine (tokenLink Origin)) (pausedWorld, []) (.ok ())
      (v, visited) ∧ v.breakpoints ≠ [] ∧ RegisteredArmed v ∧ ∀ u ∈ visited, RegisteredArmed u := by
  have hfollows : (performAll plainHost apartCalls).Follows (sparingMachine (tokenLink Origin))
      threeCarriedOut pausedWorld := by decide +kernel
  have hrefl : ∀ w, background (tokenLink Origin) w w := fun _ => Relation.ReflTransGen.refl
  obtain ⟨visited, hreaches⟩ := reaches_interleaved hrefl (Program.reaches_run hfollows) []
  have hend : ((performAll plainHost apartCalls).run (sparingMachine (tokenLink Origin))
    threeCarriedOut pausedWorld).1 = .ok () := by decide +kernel
  have hleft : ((performAll plainHost apartCalls).run (sparingMachine (tokenLink Origin))
    threeCarriedOut pausedWorld).2.1.breakpoints ≠ [] := by decide +kernel
  rw [hend] at hreaches
  exact ⟨_, _, hreaches, hleft, registered_are_armed (tokenLink Origin) plainHost apartCalls pausedWorld
    (by simp [RegisteredArmed, pausedWorld, freshWorld]) _ _ _ hreaches⟩

/-- The stub carries out and accepts every packet, and the second breakpoint at
an address is not armed once the first is removed. -/
theorem doubled_breakpoint_is_disarmed :
    ∃ (calls : List Call) (script : List (Choice Origin TokenNet)) (w : TokenWorld),
      (performAll plainHost calls).Follows (settingMachine (tokenLink Origin)) script w ∧
      RegisteredArmed w ∧
      ¬RegisteredArmed ((performAll plainHost calls).run (settingMachine (tokenLink Origin))
        script w).2.1 := by
  refine ⟨doubledCalls, threeCarriedOut, pausedWorld, by decide +kernel,
    by simp [RegisteredArmed, pausedWorld, freshWorld], ?_⟩
  intro harmed
  change RegisteredArmed (worldAfter doubledCalls) at harmed
  have hleft : (worldAfter doubledCalls).breakpoints =
      [{bpId := 2, addr := 0x80003100, kind := .swBp, size := 4}] := by decide +kernel
  have hnone : (worldAfter doubledCalls).armed = [] := by decide +kernel
  have hpoint := harmed {bpId := 2, addr := 0x80003100, kind := .swBp, size := 4}
    (by rw [hleft]; exact List.mem_singleton_self _)
  rw [hnone] at hpoint
  exact absurd hpoint (List.not_mem_nil)

end Main

end DolphinRe.ArmedRegistry
