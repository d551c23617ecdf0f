import Mathlib.Data.List.Nodup
import DolphinRe.RunningTarget

/-!
# The capture log of a target that runs to its breakpoints

The stop watcher waits for the target, records a hit of a capturing breakpoint
with the registers it finds, and lets the target go on. Left to itself, it
records exactly the halts of the execution, each once and in order, under the
breakpoint that it attributes them to; it stops at the first halt that is no
capturing breakpoint's and hands that one over.
-/

namespace DolphinRe.CapturedHits

open PythonText GdbPackets GdbWire GdbTokens StopReplies EffectProgram SessionMachine GdbClient SessionTools
  LinkRefinement StubBehaviour DataReplies MemoryPackets SteppedTarget FirstVisits RunningTarget

section Captures

variable {σ τ N L : Type} {d : Debuggee σ} {link : Link τ N L} {start : Stage σ} {points : List Point} {s : σ}
  {H : World τ L → Prop}

/-- The general registers of a state, as captures hold them. -/
def generals (d : Debuggee σ) (s : σ) : List ℕ := ((d.frozen s).registers ()).map UInt32.toNat

/-- The floating-point registers that are reported in full. -/
def floats (d : Debuggee σ) (s : σ) : List ℕ → List (ℕ × List UInt8)
  | [] => []
  | i :: rest =>
    match d.register s (0x20 + i) with
    | some raw => if raw.length = 8 then (i, raw) :: floats d s rest else floats d s rest
    | none => floats d s rest

/-- The requested general registers of a state. -/
def withGprs (d : Debuggee σ) (spec : BreakpointSpec) (s : σ) (capture : Capture) : Capture :=
  if .gprs ∈ spec.captures then
    {capture with
      gprs := some (generals d s)
      args := some ((List.range 8).map fun i => (generals d s)[i + 3]?)}
  else capture

/-- The requested link register of a state. -/
def withLr (d : Debuggee σ) (spec : BreakpointSpec) (s : σ) (capture : Capture) : Capture :=
  if .lr ∈ spec.captures ∨ .stack ∈ spec.captures then {capture with lr := (d.value s LR).or capture.lr}
  else capture

/-- The requested floating-point registers of a state. -/
def withFprs (d : Debuggee σ) (spec : BreakpointSpec) (s : σ) (capture : Capture) : Capture :=
  if .fprs ∈ spec.captures then {capture with fprs := some (floats d s (List.range 32))} else capture

/-- What is captured of a hit. -/
def captured (d : Debuggee σ) (spec : BreakpointSpec) (s : σ) : Capture :=
  withFprs d spec s (withLr d spec s (withGprs d spec s (Capture.ofStop (parseStopReply (d.stopReply s)))))

/-- The general registers captured are the target's. -/
theorem observes_captureGprs (hH : Attends d start points s H) (spec : BreakpointSpec) (capture : Capture) :
    Observes (d.machine link start) H (captureGprs spec capture : Code τ Capture)
      (· = .ok (withGprs d spec s capture)) := by
  unfold captureGprs withGprs
  split_ifs
  · refine (observes_readRegisters hH).bind_value (observes_done ?_)
    have hblock : parseDolphinGprs (block ((d.frozen s).registers ())) = generals d s :=
      parseDolphinGprs_block List.length_ofFn
    rw [hblock]
  · exact observes_done rfl

/-- So is the link register. -/
theorem observes_captureLr (hH : Attends d start points s H) (spec : BreakpointSpec) (capture : Capture) :
    Observes (d.machine link start) H (captureLr spec capture : Code τ Capture)
      (· = .ok (withLr d spec s capture)) := by
  unfold captureLr withLr
  split_ifs
  · refine (observes_readRegister hH LR).bind_value ?_
    cases d.value s LR with
    | some lr => exact observes_done rfl
    | none => exact observes_done rfl
  · exact observes_done rfl

/-- The floating point registers are read in order. -/
theorem observes_readFprs (hH : Attends d start points s H) (regs : List ℕ) (fprs : List (ℕ × List UInt8)) :
    Observes (d.machine link start) H (readFprs regs fprs : Code τ (List (ℕ × List UInt8)))
      (· = .ok (fprs ++ floats d s regs)) := by
  induction regs generalizing fprs with
  | nil =>
    rw [floats, List.append_nil]
    exact observes_done rfl
  | cons i regs ih =>
    refine (observes_readRegisterBytes hH (0x20 + i)).bind_value ?_
    unfold floats
    cases d.register s (0x20 + i) with
    | none => exact ih fprs
    | some raw =>
      dsimp only
      split_ifs
      · have hrest := ih (fprs ++ [(i, raw)])
        rw [List.append_assoc, List.cons_append, List.nil_append] at hrest
        exact hrest
      · exact ih fprs

/-- Those captured are the target's. -/
theorem observes_captureFprs (hH : Attends d start points s H) (spec : BreakpointSpec) (capture : Capture) :
    Observes (d.machine link start) H (captureFprs spec capture : Code τ Capture)
      (· = .ok (withFprs d spec s capture)) := by
  unfold captureFprs withFprs
  split_ifs
  · exact (observes_readFprs hH (List.range 32) []).bind_value (observes_done rfl)
  · exact observes_done rfl

/-- A part of a capture that cannot fail is followed by the others. -/
theorem observes_collect_cons {M : Machine (signature τ) (Choice τ N) (World τ L)}
    {part : Capture → Code τ Capture} {parts : List (Capture → Code τ Capture)} {capture capture' : Capture}
    {good : Except PyError Capture → Prop} (hpart : Observes M H (part capture) (· = .ok capture'))
    (hparts : Observes M H (collect parts capture') good) : Observes M H (collect (part :: parts) capture) good := by
  unfold collect
  refine hpart.attempt_bind fun outcome houtcome => ?_
  rw [houtcome]
  exact hparts

/-- The state of a halted target is captured. -/
theorem observes_capturing (hH : Attends d start points s H) (spec : BreakpointSpec) :
    Observes (d.machine link start) H
      (collect [captureGprs spec, captureLr spec, captureFprs spec]
        (Capture.ofStop (parseStopReply (d.stopReply s))) : Code τ Capture) (· = .ok (captured d spec s)) := by
  refine observes_collect_cons (observes_captureGprs hH spec _) ?_
  refine observes_collect_cons (observes_captureLr hH spec _) ?_
  refine observes_collect_cons (observes_captureFprs hH spec _) ?_
  exact observes_done rfl

end Captures

section Registry

variable {σ : Type} {d : Debuggee σ} {host : Host} {bps : List BreakpointSpec} {spec : BreakpointSpec} {s : σ}

/-- The capturing breakpoint that a halt is attributed to. -/
def owner (d : Debuggee σ) (bps : List BreakpointSpec) (s : σ) : Option BreakpointSpec :=
  ((matchBp (parseStopReply (d.stopReply s)) bps).bind fun bpId => lookup bpId bps).filter
    BreakpointSpec.autoContinue

/-- A filter expression drops the hit. -/
def dropped (host : Host) (d : Debuggee σ) (spec : BreakpointSpec) (s : σ) : Bool :=
  spec.condition.any fun expr => expr ≠ [] ∧ host.evalCondition expr (captured d spec s) = false

/-- Whether a halt is recorded under a breakpoint. -/
def records (host : Host) (d : Debuggee σ) (bps : List BreakpointSpec) (spec : BreakpointSpec) (s : σ) : Bool :=
  owner d bps s = some spec && !dropped host d spec s

/-- A breakpoint with the captures of some halts. -/
def grown (host : Host) (d : Debuggee σ) (bps : List BreakpointSpec) (met : List σ) (spec : BreakpointSpec) :
    BreakpointSpec :=
  {spec with log := spec.log ++ (met.filter (records host d bps spec)).map (captured d spec)}

/-- The registry with the captures of some halts. -/
def logged (host : Host) (d : Debuggee σ) (bps : List BreakpointSpec) (met : List σ) : List BreakpointSpec :=
  bps.map (grown host d bps met)

section Renaming

variable {f : BreakpointSpec → BreakpointSpec}

/-- Attribution looks at ids, kinds and addresses only. -/
theorem matchBp_map (hid : ∀ spec, (f spec).bpId = spec.bpId) (haddr : ∀ spec, (f spec).addr = spec.addr)
    (hkind : ∀ spec, (f spec).kind = spec.kind) (parsed : StopReply) (bps : List BreakpointSpec) :
    matchBp parsed (bps.map f) = matchBp parsed bps := by
  have hfind : ∀ p : BreakpointSpec → Bool, (∀ spec, p (f spec) = p spec) →
      ((bps.map f).find? p).map BreakpointSpec.bpId = (bps.find? p).map BreakpointSpec.bpId := by
    intro p hp
    rw [List.find?_map, show p ∘ f = p from funext hp, Option.map_map]
    exact congrArg (fun g => (bps.find? p).map g) (funext hid)
  have hlone : matchLone (bps.map f) = matchLone bps := by
    unfold matchLone
    rw [List.filter_map, show (fun spec => BpKind.isWatchpoint spec.kind) ∘ f =
      fun spec => BpKind.isWatchpoint spec.kind from funext fun spec => congrArg _ (hkind spec)]
    generalize bps.filter (fun spec => BpKind.isWatchpoint spec.kind) = watchpoints
    cases watchpoints with
    | nil => rfl
    | cons first rest =>
      cases rest with
      | nil => exact congrArg some (hid first)
      | cons second rest => rfl
  have hwatch : matchWatch parsed (bps.map f) = matchWatch parsed bps := by
    unfold matchWatch
    cases parsed.watchAddr with
    | none => rfl
    | some addr => exact hfind _ fun spec => by rw [haddr, hkind]
  have hpc : matchPc parsed (bps.map f) = matchPc parsed bps := by
    unfold matchPc
    cases parsed.pc with
    | none => rfl
    | some pc => exact hfind _ fun spec => by rw [haddr, hkind]
  unfold matchBp
  rw [hwatch, hpc, hlone]

/-- Entries that keep their ids are found under them. -/
theorem lookup_map (hid : ∀ spec, (f spec).bpId = spec.bpId) (bpId : ℕ) (bps : List BreakpointSpec) :
    lookup bpId (bps.map f) = (lookup bpId bps).map f := by
  unfold lookup
  rw [List.find?_map]
  exact congrArg (fun p => (bps.find? p).map f) (funext fun spec => by simp only [Function.comp_apply, hid])

end Renaming

/-- What has been captured does not change whose a halt is. -/
theorem owner_logged (met : List σ) : owner d (logged host d bps met) s = (owner d bps s).map (grown host d bps met) := by
  unfold owner logged
  rw [matchBp_map (f := grown host d bps met) (fun _ => rfl) (fun _ => rfl) fun _ => rfl]
  cases matchBp (parseStopReply (d.stopReply s)) bps with
  | none => rfl
  | some bpId =>
    rw [Option.bind_some, Option.bind_some, lookup_map (f := grown host d bps met) fun _ => rfl, Option.filter_map]
    rfl

/-- The breakpoint that a halt belongs to is registered. -/
theorem mem_of_owner (h : owner d bps s = some spec) : spec ∈ bps := by
  unfold owner at h
  obtain ⟨hfound, -⟩ := Option.filter_eq_some_iff.mp h
  obtain ⟨bpId, -, hlookup⟩ := Option.bind_eq_some_iff.mp hfound
  exact List.mem_of_find?_eq_some hlookup

/-- No halt leaves no record. -/
theorem logged_nil : logged host d bps [] = bps := by
  unfold logged
  refine (List.map_congr_left fun spec _ => ?_).trans (List.map_id bps)
  simp [grown]

/-- One more entry under the owner of a halt. -/
theorem amend_logged (hdistinct : (bps.map BreakpointSpec.bpId).Nodup) (met : List σ)
    (howner : owner d bps s = some spec) (hkept : dropped host d spec s = false) :
    amend spec.bpId (fun old => {old with log := old.log ++ [captured d spec s]}) (logged host d bps met) =
      logged host d bps (met ++ [s]) := by
  unfold amend logged
  rw [List.map_map]
  refine List.map_congr_left fun old hold => ?_
  rw [Function.comp_apply]
  have hid : (grown host d bps met old).bpId = old.bpId := rfl
  rw [hid]
  by_cases hsame : old.bpId = spec.bpId
  · have heq : old = spec := List.inj_on_of_nodup_map hdistinct hold (mem_of_owner howner) hsame
    have hrecords : records host d bps spec s = true := by
      unfold records
      rw [howner, hkept]
      simp
    rw [if_pos hsame, heq]
    simp only [grown, List.filter_append, List.filter_cons, hrecords, if_true, List.filter_nil, List.map_append,
      List.map_cons, List.map_nil, List.append_assoc]
  · have hrecords : records host d bps old s = false := by
      unfold records
      rw [howner]
      have hne : ¬some spec = some old := fun heq => hsame (congrArg BreakpointSpec.bpId (Option.some.inj heq)).symm
      rw [decide_eq_false hne, Bool.false_and]
    rw [if_neg hsame]
    simp only [grown, List.filter_append, List.filter_cons, hrecords, Bool.false_eq_true, if_false,
      List.filter_nil, List.append_nil]

/-- A hit that its owner's filter drops leaves the registry as it is. -/
theorem logged_dropped (met : List σ) (howner : owner d bps s = some spec) (hdrops : dropped host d spec s = true) :
    logged host d bps (met ++ [s]) = logged host d bps met := by
  unfold logged
  refine List.map_congr_left fun old _ => ?_
  have hrecords : records host d bps old s = false := by
    unfold records
    rw [howner]
    by_cases heq : some spec = some old
    · rw [← Option.some.inj heq, hdrops, Bool.not_true, Bool.and_false]
    · rw [decide_eq_false heq, Bool.false_and]
  simp only [grown, List.filter_append, List.filter_cons, hrecords, Bool.false_eq_true, if_false,
    List.filter_nil, List.append_nil]

end Registry

section Turns

variable {σ τ N L : Type} {d : Debuggee σ} {link : Link τ N L} {start : Stage σ} {points : List Point} {s s' : σ}
  {w v u : World τ L} {host : Host} {bps : List BreakpointSpec} {met : List σ} {thread : ℕ}

/-- The session apart from the registry, whether the target runs, and what was sent. -/
def frame (w : World τ L) : World τ Unit :=
  {withoutQueries w with breakpoints := [], running := false, trace := []}

/-- Commands to go on. -/
def isResume : Obs τ → Bool
  | .sent (.packet .resume) _ => true
  | _ => false

/-- How often the target has been told to go on. -/
def resumes (w : World τ L) : ℕ := w.trace.countP isResume

/-- Queries are no commands to go on. -/
theorem resumes_eq (w : World τ L) : resumes w = (withoutQueries w).trace.countP isResume := by
  change w.trace.countP isResume = (w.trace.filter isAct).countP isResume
  rw [List.countP_filter]
  refine List.countP_congr fun event _ => ?_
  cases event with
  | sent message obeyed =>
    cases message with
    | packet command => cases command <;> simp [isResume, isAct, isQuery]
    | interrupt => simp [isResume]
  | _ => simp [isResume]

/-- Queries let nothing go. -/
theorem resumes_of_same (h : withoutQueries v = withoutQueries w) : resumes v = resumes w := by
  rw [resumes_eq, h, ← resumes_eq]

/-- They leave the rest of the session alone. -/
theorem frame_of_same (h : withoutQueries v = withoutQueries w) : frame v = frame w := by
  unfold frame
  rw [h]

/-- The same session, with the same captures. -/
structure Alike (w v : World τ L) : Prop where
  /-- The rest of the session is the same. -/
  frames : frame v = frame w
  /-- So are the entries, with their logs. -/
  registry : v.breakpoints = w.breakpoints
  /-- The target has been let go as often. -/
  resumed : resumes v = resumes w

/-- Being alike is transitive. -/
theorem Alike.trans (h : Alike w v) (h' : Alike v u) : Alike w u :=
  ⟨h'.frames.trans h.frames, h'.registry.trans h.registry, h'.resumed.trans h.resumed⟩

/-- What differs by queries alone is alike. -/
theorem alike_of_same (h : withoutQueries v = withoutQueries w) : Alike w v :=
  ⟨frame_of_same h, (congrArg World.breakpoints h :), resumes_of_same h⟩

/-- One more hit has been recorded. -/
structure Recorded (host : Host) (d : Debuggee σ) (bps : List BreakpointSpec) (met : List σ) (s : σ)
    (w v : World τ L) : Prop where
  /-- The rest of the session is the same. -/
  frames : frame v = frame w
  /-- The entries hold the captures of the halts met so far and of this one. -/
  registry : v.breakpoints = logged host d bps (met ++ [s])
  /-- The target has not been let go for it yet. -/
  resumed : resumes v = resumes w

/-- A halt is recorded under its owner, or is nobody's. -/
theorem wp_handleStop (hdistinct : (bps.map BreakpointSpec.bpId).Nodup)
    (hbps : w.breakpoints = logged host d bps met) (hw : d.At start ⟨points, .halted s⟩ w) {raw : Packet τ}
    (hraw : raw.text = d.stopReply s) :
    (handleStop host raw).wp (d.machine link start) (fun r v => d.At start ⟨points, .halted s⟩ v ∧
      ((owner d bps s).isSome = true ∧ r = .ok true ∧ Recorded host d bps met s w v ∨
        owner d bps s = none ∧ r = .ok false ∧ v = w)) w := by
  have howner : owner d (logged host d bps met) s = (owner d bps s).map (grown host d bps met) := owner_logged met
  unfold handleStop
  rw [Program.bind_eq, Program.wp_bind, wp_access]
  intro c _
  change Program.onValue _ _ _ (.ok (matchBp (parseStopReply raw.text) w.breakpoints)) w
  rw [Program.onValue_ok, hraw, hbps]
  unfold owner at howner
  cases hmatch : matchBp (parseStopReply (d.stopReply s)) (logged host d bps met) with
  | none =>
    rw [hmatch] at howner
    have hnone : owner d bps s = none := Option.map_eq_none_iff.mp howner.symm
    exact ⟨hw, Or.inr ⟨hnone, rfl, rfl⟩⟩
  | some bpId =>
    rw [hmatch, Option.bind_some] at howner
    dsimp only
    rw [Program.bind_eq, Program.wp_bind, wp_access]
    intro c' _
    change Program.onValue _ _ _ (.ok w.breakpoints) w
    rw [Program.onValue_ok, hbps]
    cases hlookup : lookup bpId (logged host d bps met) with
    | none =>
      rw [hlookup] at howner
      have hnone : owner d bps s = none := Option.map_eq_none_iff.mp howner.symm
      exact ⟨hw, Or.inr ⟨hnone, rfl, rfl⟩⟩
    | some found =>
      rw [hlookup, Option.filter_some] at howner
      dsimp only
      by_cases hauto : found.autoContinue = true
      · rw [if_pos hauto] at howner ⊢
        obtain ⟨spec, hspec, rfl⟩ := Option.map_eq_some_iff.mp howner.symm
        have hsome : (owner d bps s).isSome = true := by
          change owner d bps s = some spec at hspec
          rw [hspec]
          rfl
        rw [Program.bind_eq, Program.wp_bind]
        refine Program.wp_mono ?_ (observes_capturing attends_at (grown host d bps met spec) w hw)
        rintro r v ⟨rfl, hv, hsame⟩
        rw [Program.onValue_ok]
        have hregistry : v.breakpoints = logged host d bps met := by
          rw [← hbps]
          exact (congrArg World.breakpoints hsame :)
        change Program.wp _ (if dropped host d spec s = true then _ else _) _ v
        by_cases hdrops : dropped host d spec s = true
        · rw [if_pos hdrops]
          refine ⟨hv, Or.inl ⟨hsome, rfl, frame_of_same hsame, ?_, resumes_of_same hsame⟩⟩
          rw [hregistry, logged_dropped met hspec hdrops]
        · rw [if_neg hdrops]
          intro c'' _
          refine ⟨hv.event (.logged spec.bpId raw) hv.opened hv.settled rfl,
            Or.inl ⟨hsome, rfl, ?_, ?_, ?_⟩⟩
          · have hframe := frame_of_same hsame
            exact hframe
          · change amend spec.bpId (fun old => {old with log := old.log ++ [captured d spec s]}) v.breakpoints = _
            rw [hregistry]
            exact amend_logged hdistinct met hspec (Bool.eq_false_iff.mpr hdrops)
          · change (v.trace ++ [Obs.logged spec.bpId raw]).countP isResume = resumes w
            rw [List.countP_append, List.countP_singleton]
            exact resumes_of_same hsame
      · rw [if_neg hauto] at howner ⊢
        have hnone : owner d bps s = none := Option.map_eq_none_iff.mp howner.symm
        exact ⟨hw, Or.inr ⟨hnone, rfl, rfl⟩⟩

/-- A live watcher thread, and a target that runs. -/
structure Hunting (d : Debuggee σ) (start : Stage σ) (points : List Point) (s : σ) (thread : ℕ) (w : World τ L) :
    Prop extends d.At start ⟨points, .running s⟩ w where
  /-- The thread is alive, and nobody has asked it to stop. -/
  hunts : w.watchers[thread]? = some ⟨false, true⟩

/-- A watcher thread has handed a halt over and ended. -/
structure HandedOver (d : Debuggee σ) (start : Stage σ) (points : List Point) (s : σ) (thread : ℕ) (w : World τ L) :
    Prop where
  /-- The stop reply of the halt is all that is stashed. -/
  surfaced : ∃ raw, raw.text = d.stopReply s ∧ w.pendingReplies = [raw]
  /-- The target stands where it halted. -/
  current : d.after start w.trace = ⟨points, .halted s⟩
  /-- The session does not take the target to run. -/
  idle : w.state ≠ .connectedRunning
  /-- The thread has ended, without having been asked to. -/
  ended : w.watchers[thread]? = some ⟨false, false⟩

/-- The other threads are as they were, and a connected session is still connected. -/
structure Beside (thread : ℕ) (w v : World τ L) : Prop where
  /-- The entries of the other threads are the same. -/
  others : ∀ i, i ≠ thread → v.watchers[i]? = w.watchers[i]?
  /-- A connected session stays connected. -/
  connected : w.state.isConnected = true → v.state.isConnected = true

/-- A session stands beside itself. -/
theorem Beside.refl (thread : ℕ) (w : World τ L) : Beside thread w w := ⟨fun _ _ => rfl, id⟩

/-- Standing beside is transitive. -/
theorem Beside.trans (h : Beside thread w v) (h' : Beside thread v u) : Beside thread w u where
  others i hi := (h'.others i hi).trans (h.others i hi)
  connected hw := h'.connected (h.connected hw)

/-- The rest of the session includes the threads. -/
theorem watchers_of_frame (h : frame v = frame w) : v.watchers = w.watchers := (congrArg World.watchers h :)

/-- Where it stays, other threads have not been touched. -/
theorem beside_of_frame (h : frame v = frame w) : Beside thread w v where
  others i _ := by rw [watchers_of_frame h]
  connected hw := by
    have hstate : v.state = w.state := (congrArg World.state h :)
    rw [hstate]
    exact hw

/-- What a turn of the thread comes to. -/
def Turned (host : Host) (d : Debuggee σ) (start : Stage σ) (points : List Point) (bps : List BreakpointSpec)
    (met : List σ) (s : σ) (thread : ℕ) (w v : World τ L) : Prop :=
  (Hunting d start points s thread v ∧ Alike w v) ∨ ∃ s', d.HaltsFirst points s s' ∧
    ((owner d bps s').isSome = true ∧ Hunting d start points s' thread v ∧ frame v = frame w ∧
        v.breakpoints = logged host d bps (met ++ [s']) ∧ resumes v = resumes w + 1 ∨
      owner d bps s' = none ∧ HandedOver d start points s' thread v ∧ v.breakpoints = w.breakpoints ∧
        resumes v = resumes w)

/-- A halt has been put back for the foreground. -/
structure Surfaced (d : Debuggee σ) (start : Stage σ) (points : List Point) (s : σ) (w v : World τ L) : Prop where
  /-- The stop reply of the halt is all that is stashed. -/
  surfaced : ∃ raw, raw.text = d.stopReply s ∧ v.pendingReplies = [raw]
  /-- The target stands where it halted. -/
  current : d.after start v.trace = ⟨points, .halted s⟩
  /-- The session does not take the target to run. -/
  idle : v.state ≠ .connectedRunning
  /-- The session is marked as paused, if at all. -/
  state : v.state = w.state ∨ v.state = .connectedPaused
  /-- The threads are as they were. -/
  watchers : v.watchers = w.watchers
  /-- So are the entries, with their logs. -/
  registry : v.breakpoints = w.breakpoints
  /-- The target has not been let go for it. -/
  resumed : resumes v = resumes w

/-- What the part of a turn that holds the lock comes to. -/
def Handled (host : Host) (d : Debuggee σ) (start : Stage σ) (points : List Point) (bps : List BreakpointSpec)
    (met : List σ) (s : σ) (w : World τ L) (r : Except PyError Turn) (v : World τ L) : Prop :=
  (r = .ok .again ∧ d.At start ⟨points, .running s⟩ v ∧ Alike w v) ∨ ∃ s', d.HaltsFirst points s s' ∧
    ((owner d bps s').isSome = true ∧ r = .ok .again ∧ d.At start ⟨points, .running s'⟩ v ∧ frame v = frame w ∧
        v.breakpoints = logged host d bps (met ++ [s']) ∧ resumes v = resumes w + 1 ∨
      owner d bps s' = none ∧ r = .ok .leave ∧ Surfaced d start points s' w v)

/-- A handled halt is followed by one command to go on. -/
theorem wp_goOn (hw : d.At start ⟨points, .halted s⟩ w) : (continueAsync.attempt : Code τ (Except PyError Unit)).wp
    (d.machine link start) (fun r v => r = .ok (.ok ()) ∧ d.At start ⟨points, .running s⟩ v ∧
      frame v = frame w ∧ v.breakpoints = w.breakpoints ∧ resumes v = resumes w + 1) w := by
  rw [Program.wp_attempt]
  refine Program.wp_mono ?_ (wp_continueAsync hw)
  rintro r v ⟨rfl, hv, hsame⟩
  refine ⟨rfl, hv, ?_, (congrArg World.breakpoints hsame :), ?_⟩
  · unfold frame
    rw [hsame]
    rfl
  · rw [resumes_eq, hsame, resumes_eq]
    change ((withoutQueries w).trace ++ [Obs.sent (.packet .resume) true]).countP isResume = _
    rw [List.countP_append, List.countP_singleton]
    rfl

/-- A session that has put a stop back and marked itself paused. -/
def putBack (raw : Packet τ) (w : World τ L) : World τ L :=
  if w.state = .connectedRunning then
    {w with
      state := .connectedPaused
      pendingReplies := w.pendingReplies ++ [raw]
      trace := w.trace ++ [.surfaced raw]}
  else {w with pendingReplies := w.pendingReplies ++ [raw], trace := w.trace ++ [.surfaced raw]}

/-- A halt that is put back is surfaced. -/
theorem surfaced_putBack (hw : d.At start ⟨points, .halted s⟩ w) {raw : Packet τ} (hraw : raw.text = d.stopReply s) :
    Surfaced d start points s w (putBack raw w) := by
  have hpending : w.pendingReplies ++ [raw] = [raw] := by rw [hw.settled, List.nil_append]
  have hcurrent : d.after start (w.trace ++ [.surfaced raw]) = ⟨points, .halted s⟩ := by
    rw [after_concat, hw.current]
    rfl
  have hresumes : (w.trace ++ [Obs.surfaced raw]).countP isResume = w.trace.countP isResume := by
    rw [List.countP_append, List.countP_singleton]
    rfl
  unfold putBack
  by_cases hrunning : w.state = .connectedRunning
  · rw [if_pos hrunning]
    exact ⟨⟨raw, hraw, hpending⟩, hcurrent, SessionState.noConfusion, Or.inr rfl, rfl, rfl, hresumes⟩
  · rw [if_neg hrunning]
    exact ⟨⟨raw, hraw, hpending⟩, hcurrent, hrunning, Or.inl rfl, rfl, rfl, hresumes⟩

/-- The session is the same up to there. -/
theorem Surfaced.after (h : Surfaced d start points s v u) (halike : Alike w v) : Surfaced d start points s w u where
  surfaced := h.surfaced
  current := h.current
  idle := h.idle
  state := by
    have hstate : v.state = w.state := (congrArg World.state halike.frames :)
    rw [← hstate]
    exact h.state
  watchers := h.watchers.trans (watchers_of_frame halike.frames)
  registry := h.registry.trans halike.registry
  resumed := h.resumed.trans halike.resumed

/-- The part of a turn that holds the lock. -/
theorem wp_watcherLocked (hdistinct : (bps.map BreakpointSpec.bpId).Nodup)
    (hbps : w.breakpoints = logged host d bps met) (hw : Hunting d start points s thread w) :
    (watcherLocked host thread).wp (d.machine link start) (Handled host d start points bps met s w) w := by
  unfold watcherLocked
  rw [Program.bind_eq, Program.wp_bind, wp_access]
  intro c _
  change Program.onValue _ _ _ (.ok ((w.watchers[thread]?).any WatcherThread.stopRequested)) w
  rw [Program.onValue_ok, hw.hunts, Option.any_some, if_neg Bool.false_ne_true, Program.bind_eq, Program.wp_bind,
    Program.wp_attempt]
  refine Program.wp_mono ?_ (wp_waitForStop (some 200) hw.toAt)
  rintro r v (⟨e, htimeout, rfl, hv, hsame⟩ | ⟨raw, s', hrun, htext, rfl, hv, hsame⟩)
  · rw [Program.onValue_ok]
    dsimp only
    rw [if_pos htimeout]
    exact Or.inl ⟨rfl, hv, alike_of_same hsame⟩
  · have halike : Alike w v := by
      refine ⟨?_, (congrArg World.breakpoints hsame :), ?_⟩
      · unfold frame
        rw [hsame]
      · rw [resumes_eq, hsame, resumes_eq]
    have hhalts : d.HaltsFirst points s s' := (d.run_iff points s s').mp hrun
    rw [Program.onValue_ok]
    dsimp only
    rw [Program.bind_eq, Program.wp_bind]
    refine Program.wp_mono ?_ (wp_handleStop hdistinct (halike.registry.trans hbps) hv htext)
    rintro r₂ v₂ ⟨hv₂, ⟨howned, rfl, hrecorded⟩ | ⟨hnone, rfl, rfl⟩⟩
    · rw [Program.onValue_ok, if_pos rfl, Program.bind_eq, Program.wp_bind]
      refine Program.wp_mono ?_ (wp_goOn hv₂)
      rintro r₃ v₃ ⟨rfl, hv₃, hframe, hregistry, hresumes⟩
      rw [Program.onValue_ok]
      refine Or.inr ⟨s', hhalts, Or.inl ⟨howned, rfl, hv₃, ?_, hregistry.trans hrecorded.registry, ?_⟩⟩
      · exact hframe.trans (hrecorded.frames.trans halike.frames)
      · rw [hresumes, hrecorded.resumed, halike.resumed]
    · rw [Program.onValue_ok, if_neg Bool.false_ne_true]
      intro c₁ _ c₂ _
      have hput : ((d.machine link start).step .markPaused c₂
          ((d.machine link start).step (.pushPending raw) c₁ v₂).2).2 = putBack raw v₂ := by
        unfold putBack
        rfl
      rw [hput]
      exact Or.inr ⟨s', hhalts, Or.inr ⟨hnone, rfl, (surfaced_putBack hv₂ htext).after halike⟩⟩

/-- The thread that has put a halt back ends. -/
theorem Surfaced.ended (h : Surfaced d start points s w v) (hhunts : w.watchers[thread]? = some ⟨false, true⟩)
    (hu : u = v.onThread thread fun t => {t with alive := false}) :
    Beside thread w u ∧ HandedOver d start points s thread u := by
  rw [hu]
  have hothers : ∀ i, i ≠ thread →
      (v.watchers.modify thread fun t => {t with alive := false})[i]? = w.watchers[i]? := fun i hi => by
    rw [List.getElem?_modify_ne _ _ hi.symm, h.watchers]
  have hended : (v.watchers.modify thread fun t => {t with alive := false})[thread]? = some ⟨false, false⟩ := by
    rw [List.getElem?_modify_eq, h.watchers, hhunts]
    rfl
  have hconnected : w.state.isConnected = true → v.state.isConnected = true := fun hw => by
    rcases h.state with hsame | hpaused
    · rw [hsame]
      exact hw
    · rw [hpaused]
      rfl
  exact ⟨⟨hothers, hconnected⟩, ⟨h.surfaced, h.current, h.idle, hended⟩⟩

/-- A turn of the thread, with what it decides. -/
theorem wp_watcherIteration (hany : anyAutoContinue bps = true) (hdistinct : (bps.map BreakpointSpec.bpId).Nodup)
    (hbps : w.breakpoints = logged host d bps met) (hw : Hunting d start points s thread w) :
    (watcherIteration host thread : Code τ Unit).wp (d.machine link start)
      (fun _ v => Beside thread w v ∧ Turned host d start points bps met s thread w v) w := by
  have halive : w.threadAlive thread = true := by
    unfold World.threadAlive
    rw [hw.hunts]
    rfl
  have hcapturing : anyAutoContinue w.breakpoints = true := by
    rw [hbps, ← hany]
    unfold anyAutoContinue logged
    rw [List.any_map]
    rfl
  unfold watcherIteration
  rw [Program.bind_eq, Program.wp_bind, wp_access]
  intro c _
  change Program.onValue _ _ _ (.ok (w.threadAlive thread)) w
  rw [Program.onValue_ok, halive, if_pos rfl, Program.bind_eq, Program.wp_bind, Program.wp_attempt]
  unfold watcherTurn
  rw [Program.bind_eq, Program.wp_bind, wp_access]
  intro c₁ _
  change Program.onValue _ _ _ (.ok ((w.watchers[thread]?).any WatcherThread.stopRequested)) w
  rw [Program.onValue_ok, hw.hunts, Option.any_some, if_neg Bool.false_ne_true, Program.bind_eq, Program.wp_bind,
    wp_access]
  intro c₂ _
  change Program.onValue _ _ _ (.ok w.breakpoints) w
  rw [Program.onValue_ok, if_pos hcapturing]
  refine wp_locked rfl (Program.wp_mono ?_ (wp_watcherLocked hdistinct hbps hw))
  rintro r v (⟨rfl, hv, halike⟩ | ⟨s', hhalts, ⟨howned, rfl, hv, hframe, hregistry, hresumes⟩ |
    ⟨hnone, rfl, hsurfaced⟩⟩)
  · rw [Program.onValue_ok]
    have hhunts : v.watchers[thread]? = some ⟨false, true⟩ := by
      rw [watchers_of_frame halike.frames]
      exact hw.hunts
    exact ⟨beside_of_frame halike.frames, Or.inl ⟨⟨hv, hhunts⟩, halike⟩⟩
  · rw [Program.onValue_ok]
    have hhunts : v.watchers[thread]? = some ⟨false, true⟩ := by
      rw [watchers_of_frame hframe]
      exact hw.hunts
    exact ⟨beside_of_frame hframe, Or.inr ⟨s', hhalts, Or.inl ⟨howned, ⟨hv, hhunts⟩, hframe, hregistry, hresumes⟩⟩⟩
  · rw [Program.onValue_ok]
    intro c₃ _
    obtain ⟨hbeside, hended⟩ := hsurfaced.ended hw.hunts rfl
    exact ⟨hbeside, Or.inr ⟨s', hhalts, Or.inr ⟨hnone, hended, hsurfaced.registry, hsurfaced.resumed⟩⟩⟩

/-- A thread that has ended does nothing more. -/
theorem wp_ended {M : Machine (signature τ) (Choice τ N) (World τ L)} (hM : M.step = World.step link)
    (hdead : w.threadAlive thread = false) : (watcherIteration host thread : Code τ Unit).wp M (fun _ v => v = w) w := by
  unfold watcherIteration
  rw [Program.bind_eq, Program.wp_bind, wp_access]
  intro c _
  rw [hM]
  change Program.onValue _ _ _ (.ok (w.threadAlive thread)) w
  rw [Program.onValue_ok, hdead, if_neg Bool.false_ne_true]
  rfl

end Turns

section Runs

variable {σ τ N L : Type} {d : Debuggee σ} {link : Link τ N L} {start : Stage σ} {points : List Point} {s s' : σ}
  {w v u : World τ L} {host : Host} {bps : List BreakpointSpec} {met : List σ} {thread n : ℕ}

/-- A number of turns of one watcher thread. -/
def Turns (M : Machine (signature τ) (Choice τ N) (World τ L)) (host : Host) (thread : ℕ) :
    ℕ → World τ L → World τ L → Prop
  | 0, w, v => v = w
  | n + 1, w, v => ∃ u r, Turns M host thread n w u ∧ (watcherIteration host thread).Reaches M u r v

/-- The halts met since a start have been recorded, and the thread goes on from the last of them or
has handed the next one over. -/
structure Kept (host : Host) (d : Debuggee σ) (start : Stage σ) (points : List Point) (s : σ) (thread : ℕ)
    (w : World τ L) (met : List σ) (s' : σ) (v : World τ L) : Prop where
  /-- The target has been let go from one halt to the next. -/
  arrives : Arrives d.exec (d.halts points) s met s'
  /-- Each of the halts belongs to a capturing breakpoint. -/
  owned : ∀ x ∈ met, (owner d w.breakpoints x).isSome = true
  /-- Their captures are what has been added to the logs. -/
  registry : v.breakpoints = logged host d w.breakpoints met
  /-- The target has been let go once for each. -/
  resumed : resumes v = resumes w + met.length
  /-- Other threads have not been touched. -/
  beside : Beside thread w v
  /-- The thread hunts on, or has handed over a halt of no capturing breakpoint. -/
  stands : Hunting d start points s' thread v ∨ ∃ s'', d.HaltsFirst points s' s'' ∧
    owner d w.breakpoints s'' = none ∧ HandedOver d start points s'' thread v

/-- What a turn keeps. -/
theorem Kept.turn (hany : anyAutoContinue w.breakpoints = true)
    (hdistinct : (w.breakpoints.map BreakpointSpec.bpId).Nodup) (h : Kept host d start points s thread w met s' u)
    {r : Except PyError Unit} (hreach : (watcherIteration host thread).Reaches (d.machine link start) u r v) :
    ∃ met' s'', met'.length ≤ met.length + 1 ∧ Kept host d start points s thread w met' s'' v := by
  rcases h.stands with hhunting | ⟨s'', hhalts, hnone, hhanded⟩
  · obtain ⟨hbeside, hturned⟩ := Program.reaches_of_wp (wp_watcherIteration hany hdistinct h.registry hhunting) hreach
    have hbeside' : Beside thread w v := h.beside.trans hbeside
    rcases hturned with ⟨hv, halike⟩ | ⟨s'', hhalts, ⟨howned, hv, -, hregistry, hresumes⟩ |
      ⟨hnone, hhanded, hregistry, hresumes⟩⟩
    · refine ⟨met, s', Nat.le_succ _, h.arrives, h.owned, halike.registry.trans h.registry, ?_, hbeside', Or.inl hv⟩
      rw [halike.resumed, h.resumed]
    · refine ⟨met ++ [s''], s'', ?_, h.arrives.next hhalts, ?_, hregistry, ?_, hbeside', Or.inl hv⟩
      · rw [List.length_append, List.length_singleton]
      · intro x hx
        rcases List.mem_append.mp hx with hx | hx
        · exact h.owned x hx
        · rw [List.mem_singleton.mp hx]
          exact howned
      · rw [hresumes, h.resumed, List.length_append, List.length_singleton, Nat.add_assoc]
    · refine ⟨met, s', Nat.le_succ _, h.arrives, h.owned, hregistry.trans h.registry, ?_, hbeside',
        Or.inr ⟨s'', hhalts, hnone, hhanded⟩⟩
      rw [hresumes, h.resumed]
  · have hdead : u.threadAlive thread = false := by
      unfold World.threadAlive
      rw [hhanded.ended]
      rfl
    have hsame := Program.reaches_of_wp (wp_ended rfl hdead) hreach
    rw [hsame]
    exact ⟨met, s', Nat.le_succ _, h⟩

/-- Nothing has been met yet. -/
theorem kept_start (hw : Hunting d start points s thread w) : Kept host d start points s thread w [] s w where
  arrives := arrives_start s
  owned _ hx := absurd hx List.not_mem_nil
  registry := logged_nil.symm
  resumed := rfl
  beside := Beside.refl thread w
  stands := Or.inl hw

/-- Left to itself next to a target that runs to its breakpoints, a watcher thread records exactly the
halts of the execution, each once, in order, with the registers of its own state and under the
breakpoint it is attributed to (unless that breakpoint's filter drops it), and lets the target go on
once for each; it hands over the first halt that is no capturing breakpoint's, and ends. -/
theorem log_is_exactly_the_hits (hw : Hunting d start points s thread w)
    (hany : anyAutoContinue w.breakpoints = true) (hdistinct : (w.breakpoints.map BreakpointSpec.bpId).Nodup)
    (h : Turns (d.machine link start) host thread n w v) :
    ∃ met s', met.length ≤ n ∧ Kept host d start points s thread w met s' v := by
  induction n generalizing v with
  | zero =>
    have hsame : v = w := h
    rw [hsame]
    exact ⟨[], s, Nat.le_refl 0, kept_start hw⟩
  | succ n ih =>
    obtain ⟨u, r, hturns, hreach⟩ := h
    obtain ⟨met, s', hlength, hkept⟩ := ih hturns
    obtain ⟨met', s'', hlength', hkept'⟩ := hkept.turn hany hdistinct hreach
    exact ⟨met', s'', by omega, hkept'⟩

end Runs

section Samples

/-- The watched word. -/
def watchedPoint : Point := ⟨.writeWp, 0x80003104, 4⟩

/-- A capturing watchpoint on it. -/
def capturing : BreakpointSpec :=
  {bpId := 1, addr := 0x80003104, kind := .writeWp, size := 4, captures := [.lr], autoContinue := true}

/-- A machine that runs with the watchpoint armed. -/
def huntedStart : Stage Bool := ⟨[watchedPoint], .running false⟩

/-- A session whose watcher waits for it. -/
def huntedWorld : TokenWorld :=
  {pausedWorld with
    state := .connectedRunning
    breakpoints := [capturing]
    nextId := 2
    watcher := some 0
    running := true
    armed := [watchedPoint]
    watchers := [⟨false, true⟩]}

/-- The machine halts, the link register is read, and the machine goes on. -/
def hitOnce : List (Choice Origin TokenNet) :=
  [{net := default, acts := [⟨.frame stopBody (.stop 0 (.hit watchedPoint)), true⟩]}] ++
    replying (hexBody (bigEndian 0x80003104)) ++ [{net := default, response := [.ack (.reply 1)]}, {net := default}]

/-- The session after the hit. -/
def hitWorld : TokenWorld :=
  ((watcherIteration plainHost 0).run (spinningTarget.machine (tokenLink Origin) huntedStart) hitOnce huntedWorld).2.1

/-- Two turns next to the sample target record a hit. -/
theorem log_is_exactly_the_hits_spinning : ∃ v met s', Turns (spinningTarget.machine (tokenLink Origin) huntedStart)
      plainHost 0 2 huntedWorld v ∧ v.breakpoints.map (fun spec => spec.log.map Capture.lr) = [[some 0x80003104]] ∧
    met.length ≤ 2 ∧ Kept plainHost spinningTarget huntedStart [watchedPoint] false 0 huntedWorld met s' v := by
  have hhit : (watcherIteration plainHost 0).Follows (spinningTarget.machine (tokenLink Origin) huntedStart) hitOnce
      huntedWorld := by decide +kernel
  have hidle : (watcherIteration plainHost 0).Follows (spinningTarget.machine (tokenLink Origin) huntedStart) []
      hitWorld := by decide +kernel
  have hturns : Turns (spinningTarget.machine (tokenLink Origin) huntedStart) plainHost 0 2 huntedWorld
      ((watcherIteration plainHost 0).run (spinningTarget.machine (tokenLink Origin) huntedStart) [] hitWorld).2.1 :=
    ⟨hitWorld, _, ⟨huntedWorld, _, rfl, Program.reaches_run hhit⟩, Program.reaches_run hidle⟩
  obtain ⟨met, s', hlength, hkept⟩ := log_is_exactly_the_hits ⟨⟨rfl, rfl, rfl⟩, rfl⟩ (by decide) (by decide) hturns
  exact ⟨_, met, s', hturns, by decide +kernel, hlength, hkept⟩

end Samples

end DolphinRe.CapturedHits
