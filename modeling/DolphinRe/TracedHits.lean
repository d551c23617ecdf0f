import DolphinRe.CapturedHits
import DolphinRe.RegistryHistory
import DolphinRe.RunToStop

/-!
# Traces of a target that runs to its breakpoints

The tracing tools plant a point, start a watcher thread, sleep, and read the
capture log of the point. The watcher threads and the auto-connect worker come
in wherever the tool does not hold the lock. What the tool returns is the list
of the hits that the execution has had by then, whenever the threads have run.
-/

namespace DolphinRe.TracedHits

open PythonText GdbPackets GdbWire GdbTokens StopReplies EffectProgram SessionMachine GdbClient SessionTools
  BreakpointTools ExecutionTools StubBehaviour Footprints Interference ToolRuns TemporaryPoints NumberedRecords
  RegistryHistory SteppedTarget FirstVisits RunningTarget RunToStop CapturedHits

section Neighbours

variable {τ N L : Type} {link : Link τ N L} {M : Machine (signature τ) (Choice τ N) (World τ L)} {host : Host}
  {w v : World τ L}

/-- No watcher thread is running. -/
def Unwatched (w : World τ L) : Prop := ∀ thread, w.threadAlive thread = false

/-- In a connected session the worker does nothing. -/
theorem wp_tick_connected (hM : M.step = World.step link) (hconnected : w.state.isConnected = true) :
    (autoConnectTick : Code τ Unit).wp M (fun _ v => v = w) w := by
  unfold autoConnectTick
  intro c _
  rw [hM]
  change Program.wp _ (if w.state = .disconnected then _ else _) _ w
  rw [if_neg (fun hstate => by rw [hstate] at hconnected; cases hconnected)]
  rfl

/-- Without a watcher thread, nothing comes in while the session is connected. -/
theorem quiet_of_unwatched (hM : M.step = World.step link) (hw : Unwatched w) :
    Quiet (background M host) w := by
  intro u v hwatchers hconnected hsteps
  induction hsteps with
  | refl => rfl
  | tail _ hlast ih =>
    rw [ih] at hlast
    rcases hlast with ⟨thread, r, hreach⟩ | ⟨r, hreach⟩
    · have hdead : u.threadAlive thread = false := by
        have hnone := hw thread
        unfold World.threadAlive at hnone ⊢
        rw [hwatchers]
        exact hnone
      exact Program.reaches_of_wp (wp_ended hM hdead) hreach
    · exact Program.reaches_of_wp (wp_tick_connected hM hconnected) hreach

end Neighbours

section Tracking

variable {σ τ N L : Type} {d : Debuggee σ} {link : Link τ N L} {start : Stage σ} {points : List Point} {s : σ}
  {w : World τ L} {host : Host} {thread : ℕ}

/-- A watcher thread has recorded the hits of an execution so far. -/
def Tracking (host : Host) (d : Debuggee σ) (start : Stage σ) (points : List Point) (s : σ) (thread : ℕ)
    (w v : World τ L) : Prop :=
  ∃ met s', Kept host d start points s thread w met s' v

/-- It goes on doing so when it is the only one. -/
theorem stable_tracking (hany : anyAutoContinue w.breakpoints = true)
    (hdistinct : (w.breakpoints.map BreakpointSpec.bpId).Nodup)
    (hothers : ∀ i, i ≠ thread → w.threadAlive i = false) (hconnected : w.state.isConnected = true) :
    Stable (background (d.machine link start) host) (Tracking host d start points s thread w) := by
  intro v u hv hsteps
  induction hsteps with
  | refl => exact hv
  | tail _ hlast ih =>
    obtain ⟨met, s', hkept⟩ := ih
    rcases hlast with ⟨i, r, hreach⟩ | ⟨r, hreach⟩
    · by_cases hthread : i = thread
      · rw [hthread] at hreach
        obtain ⟨met', s'', -, hkept'⟩ := hkept.turn hany hdistinct hreach
        exact ⟨met', s'', hkept'⟩
      · have hdead := hothers i hthread
        unfold World.threadAlive at hdead
        rw [← hkept.beside.others i hthread] at hdead
        have hsame := Program.reaches_of_wp (wp_ended rfl hdead) hreach
        rw [hsame]
        exact ⟨met, s', hkept⟩
    · have hsame := Program.reaches_of_wp (wp_tick_connected rfl (hkept.beside.connected hconnected)) hreach
      rw [hsame]
      exact ⟨met, s', hkept⟩

/-- While it tracks the execution, the target does nothing at a pause of the client. -/
theorem Tracking.sleeps {v : World τ L} (h : Tracking host d start points s thread w v) {n : ℕ} {c : Choice τ N}
    (hc : (d.machine link start).admits (.sleep n) c v) : (World.step link (.sleep n) c v).2 = v := by
  obtain ⟨met, s', hkept⟩ := h
  have hallowed : d.allows link start (.sleep n) c v = true := hc.2
  unfold Debuggee.allows at hallowed
  have hacts : c.acts = [] := by
    rcases hkept.stands with hhunting | ⟨s'', -, -, hhanded⟩
    · rw [hhunting.current] at hallowed
      simp only [Debuggee.proceeds, Bool.and_eq_true, List.isEmpty_iff] at hallowed
      exact hallowed.2
    · rw [hhanded.current] at hallowed
      simp only [Bool.and_eq_true, List.isEmpty_iff] at hallowed
      exact hallowed.1.1
  exact absorb_of_nil hacts

end Tracking

section Capturing

variable {σ τ N L : Type} {d : Debuggee σ} {link : Link τ N L} {start : Stage σ} {points : List Point} {s : σ}
  {w v : World τ L} {others : World τ L → World τ L → Prop}

/-- The entry of a point that captures its hits. -/
def capturingEntry (bpId : ℕ) (point : Point) (keys : List CaptureKey) : BreakpointSpec :=
  {newEntry bpId point with captures := keys, autoContinue := true}

/-- A watcher thread has been started for a session that lets its target run. -/
structure Started (d : Debuggee σ) (start : Stage σ) (points : List Point) (s : σ) (bps : List BreakpointSpec)
    (w v : World τ L) : Prop extends Hunting d start points s w.watchers.length v where
  /-- The registry is the one from before, with the new entry. -/
  registry : v.breakpoints = bps
  /-- The session is marked as running. -/
  running : v.state = .connectedRunning
  /-- The thread is the newest one. -/
  threads : v.watchers = w.watchers ++ [⟨false, true⟩]

/-- The thread is started unless one is running. -/
theorem wp_ensureWatcherRunning (hquiet : Quiet others w) (hrunning : w.state = .connectedRunning)
    (hdead : Unwatched w) (hw : d.At start ⟨points, .running s⟩ w) :
    (ensureWatcherRunning : Code τ Unit).wp (sharing (d.machine link start) others)
      (fun r x => r = .ok () ∧ x.2 = false ∧ Started d start points s w.breakpoints w x.1) (w, false) := by
  have hconnected : w.state.isConnected = true := by
    rw [hrunning]
    rfl
  have hstarted : Started d start points s w.breakpoints w
      {w with watcher := some w.watchers.length, watchers := w.watchers ++ [⟨false, true⟩]} := by
    refine ⟨⟨hw.same rfl rfl rfl, ?_⟩, rfl, hrunning, rfl⟩
    exact List.getElem?_concat_length
  have hstart : (access .startWatcher : Code τ Unit).wp (sharing (d.machine link start) others)
      (fun r x => r = .ok () ∧ x.2 = false ∧ Started d start points s w.breakpoints w x.1) (w, false) := by
    rw [← Program.bind_done (access .startWatcher)]
    exact wp_alone_access hquiet hconnected ⟨rfl, rfl⟩ fun c _ => ⟨rfl, rfl, hstarted⟩
  unfold ensureWatcherRunning watcherAlive
  rw [Program.bind_eq, Program.bind_eq, Program.bind_assoc]
  refine wp_alone_access hquiet hconnected ⟨rfl, rfl⟩ fun c _ => ?_
  have hread : (d.machine link start).step .getWatcher c w = (w.watcher, w) := rfl
  rw [hread]
  cases hwatcher : w.watcher with
  | none => exact hstart
  | some thread =>
    refine wp_alone_access hquiet hconnected ⟨rfl, rfl⟩ fun c' _ => ?_
    have halive : (d.machine link start).step (.isAlive thread) c' w = (false, w) :=
      Prod.ext (hdead thread) rfl
    rw [halive]
    exact hstart

variable {before : List BreakpointSpec} {point : Point} {bpId : ℕ} {names : List String} {keys : List CaptureKey}

/-- The new point captures its hits, the target runs, and a watcher thread is started. -/
theorem wp_captureOnHit (hquiet : Quiet others w) (hw : Idle d start points s w) (hdead : Unwatched w)
    (hlisted : w.breakpoints = before ++ [newEntry bpId point]) (holder : ∀ spec ∈ before, spec.bpId < bpId)
    (hkeys : checkCaptures (some names) = .ok keys) :
    (captureOnHit bpId (some names) true : Code τ Unit).wp (sharing (d.machine link start) others)
      (fun r x => r = .ok () ∧ x.2 = false ∧
        Started d start points s (before ++ [capturingEntry bpId point keys]) w x.1) (w, false) := by
  have hconnected : w.state.isConnected = true := by
    rw [hw.paused]
    rfl
  unfold captureOnHit
  rw [Program.bind_eq]
  refine wp_alone_connected rfl hquiet hconnected ?_
  rw [Program.bind_eq]
  refine wp_alone_access hquiet hconnected ⟨rfl, rfl⟩ fun c _ => ?_
  have hread : (d.machine link start).step .getBreakpoints c w = (w.breakpoints, w) := rfl
  have hfound : lookup bpId w.breakpoints = some (newEntry bpId point) := hlisted ▸ lookup_newest holder rfl
  have hknown : ¬(some (newEntry bpId point)).isNone = true := Bool.false_ne_true
  rw [hread, hfound, if_neg hknown, hkeys, Program.bind_eq]
  change Program.wp _ (Program.bind (access (.setCaptures bpId keys)) _) _ (w, false)
  refine wp_alone_access hquiet hconnected ⟨rfl, rfl⟩ fun c₁ _ => ?_
  rw [Program.bind_eq]
  refine wp_alone_access (hquiet.moved rfl) hconnected ⟨rfl, rfl⟩ fun c₂ _ => ?_
  have hregistry : amend bpId (fun spec => {spec with autoContinue := true})
      (amend bpId (fun spec => {spec with captures := keys}) w.breakpoints) =
      before ++ [capturingEntry bpId point keys] := by
    rw [hlisted, amend_newest holder rfl, amend_newest holder rfl]
    rfl
  have hset : ((d.machine link start).step (.setAutoContinue bpId true) c₂
      ((d.machine link start).step (.setCaptures bpId keys) c₁ w).2).2 =
      {w with breakpoints := before ++ [capturingEntry bpId point keys]} :=
    congrArg (fun bps => {w with breakpoints := bps}) hregistry
  have hset' : d.At start ⟨points, .halted s⟩ {w with breakpoints := before ++ [capturingEntry bpId point keys]} :=
    hw.toAt.same rfl rfl rfl
  rw [hset, Program.bind_eq]
  refine wp_alone_access (hquiet.moved rfl) hconnected ⟨rfl, rfl⟩ fun c₃ _ => ?_
  have hpaused : ((d.machine link start).step .getState c₃
      {w with breakpoints := before ++ [capturingEntry bpId point keys]}).1 = .connectedPaused := hw.paused
  dsimp only
  rw [if_pos ⟨rfl, hpaused⟩, Program.bind_eq]
  refine wp_alone (hquiet.moved rfl) hconnected (fun _ hI => atomic_command hI (isCommand_sendPacket .resume)) ?_
  refine Program.wp_mono (fun r v hv => ⟨(), hv.1, ?_⟩) (wp_continueAsync hset')
  obtain ⟨-, hv, hsame⟩ := hv
  have hwatchers : v.watchers = w.watchers := (congrArg World.watchers hsame :)
  have hstate : v.state = .connectedPaused := (congrArg World.state hsame :).trans hw.paused
  have hbps : v.breakpoints = before ++ [capturingEntry bpId point keys] := (congrArg World.breakpoints hsame :)
  rw [Program.bind_eq]
  refine wp_alone_access (hquiet.moved hwatchers) (by rw [hstate]; rfl) ⟨rfl, rfl⟩ fun c₄ _ => ?_
  have hmark : ((d.machine link start).step .markRunning c₄ v).2 = {v with state := .connectedRunning} :=
    if_pos hstate
  rw [hmark]
  have hdead' : Unwatched ({v with state := .connectedRunning} : World τ L) := by
    intro thread
    have hnone := hdead thread
    unfold World.threadAlive at hnone ⊢
    rw [← hwatchers] at hnone
    exact hnone
  refine Program.wp_mono (fun r x hx => ?_)
    (wp_ensureWatcherRunning (hquiet.moved hwatchers) rfl hdead' (hv.same rfl rfl rfl))
  obtain ⟨hr, hfree, hstarted⟩ := hx
  have hthreads := hstarted.threads
  have hhunts := hstarted.hunts
  dsimp only at hthreads hhunts
  rw [hwatchers] at hthreads hhunts
  exact ⟨hr, hfree, ⟨⟨hstarted.toAt, hhunts⟩, hstarted.registry.trans hbps, hstarted.running, hthreads⟩⟩

end Capturing

section Tracing

variable {σ τ N L : Type} {d : Debuggee σ} {link : Link τ N L} {start : Stage σ} {points : List Point} {s : σ}
  {w v : World τ L} {host : Host} {before : List BreakpointSpec} {point : Point} {bpId n : ℕ} {names : List String}
  {keys : List CaptureKey}

/-- A handler that swallows everything. -/
theorem wp_swallowed {C W : Type} {M : Machine (signature τ) C W} {p : Code τ Unit} {x : W} :
    (p.handle fun _ => pure ()).wp M (fun r _ => r = .ok ()) x := by
  rw [Program.wp_handle]
  refine Program.wp_mono (fun r _ _ => ?_) (Program.wp_true p x)
  cases r <;> rfl

/-- A list of the hits of one entry of a registry along an execution, up to where the target has got to: it is
on its way from the last halt, or stands at the next one, which belongs to no capturing breakpoint. -/
def Lists (host : Host) (d : Debuggee σ) (start : Stage σ) (points : List Point) (s : σ) (bps : List BreakpointSpec)
    (spec : BreakpointSpec) (log : List Capture) (w : World τ L) : Prop :=
  ∃ met s', Arrives d.exec (d.halts points) s met s' ∧ (∀ x ∈ met, (owner d bps x).isSome = true) ∧
    log = (met.filter (records host d bps spec)).map (captured d spec) ∧
    (d.after start w.trace = ⟨points, .running s'⟩ ∨ ∃ s'', d.HaltsFirst points s' s'' ∧ owner d bps s'' = none ∧
      d.after start w.trace = ⟨points, .halted s''⟩)

/-- The log of the new entry. -/
theorem Tracking.lists {w₁ : World τ L} {thread : ℕ}
    (hbps : w₁.breakpoints = before ++ [capturingEntry bpId point keys]) (holder : ∀ spec ∈ before, spec.bpId < bpId)
    (h : Tracking host d start points s thread w₁ v) : ∃ spec, lookup bpId v.breakpoints = some spec ∧
      Lists host d start points s (before ++ [capturingEntry bpId point keys]) (capturingEntry bpId point keys)
        spec.log v := by
  obtain ⟨met, s', hkept⟩ := h
  have hfound : lookup bpId w₁.breakpoints = some (capturingEntry bpId point keys) := by
    rw [hbps]
    exact lookup_newest holder rfl
  have howned := hkept.owned
  have hregistry := hkept.registry
  have hstands : d.after start v.trace = ⟨points, .running s'⟩ ∨ ∃ s'', d.HaltsFirst points s' s'' ∧
      owner d w₁.breakpoints s'' = none ∧ d.after start v.trace = ⟨points, .halted s''⟩ :=
    hkept.stands.imp (fun h => h.current) fun ⟨s'', hfirst, hnone, hhanded⟩ => ⟨s'', hfirst, hnone, hhanded.current⟩
  unfold logged at hregistry
  rw [hbps] at howned hstands
  refine ⟨grown host d w₁.breakpoints met (capturingEntry bpId point keys), ?_, met, s', hkept.arrives, howned, ?_,
    hstands⟩
  · rw [hregistry, lookup_map (f := grown host d w₁.breakpoints met) fun _ => rfl, hfound]
    rfl
  · rw [hbps]
    rfl

/-- The started thread is the only one. -/
theorem Started.tracks (h : Started d start points s (before ++ [capturingEntry bpId point keys]) w v)
    (hdead : Unwatched w) (holder : ∀ spec ∈ before, spec.bpId < bpId)
    (hdistinct : (before.map BreakpointSpec.bpId).Nodup) :
    Stable (background (d.machine link start) host) (Tracking host d start points s w.watchers.length v) := by
  have hany : anyAutoContinue v.breakpoints = true := by
    rw [h.registry]
    simp [anyAutoContinue, capturingEntry]
  have hids : (v.breakpoints.map BreakpointSpec.bpId).Nodup := by
    rw [h.registry, List.map_append, List.nodup_append]
    refine ⟨hdistinct, List.nodup_singleton _, fun m hm k hk => ?_⟩
    obtain ⟨old, hold, rfl⟩ := List.mem_map.mp hm
    have hlt := holder old hold
    rw [List.mem_singleton.mp hk]
    exact Nat.ne_of_lt hlt
  have hothers : ∀ i, i ≠ w.watchers.length → v.threadAlive i = false := by
    intro i hi
    have hnone := hdead i
    unfold World.threadAlive at hnone ⊢
    rw [h.threads]
    rcases Nat.lt_or_ge i w.watchers.length with hlt | hge
    · rw [List.getElem?_append_left hlt]
      exact hnone
    · rw [List.getElem?_eq_none (by rw [List.length_append, List.length_singleton]; omega)]
      rfl
  have hconnected : v.state.isConnected = true := by
    rw [h.running]
    rfl
  exact stable_tracking hany hids hothers hconnected

/-- The hits of a while are captured and listed. -/
theorem wp_hits (hw : Idle d start points s w) (hdead : Unwatched w)
    (hlisted : w.breakpoints = before ++ [newEntry bpId point]) (holder : ∀ spec ∈ before, spec.bpId < bpId)
    (hdistinct : (before.map BreakpointSpec.bpId).Nodup) (hkeys : checkCaptures (some names) = .ok keys) :
    ((captureOnHit bpId (some names) true).bind fun _ => (access (.sleep n)).bind fun _ =>
        getCaptureLog bpId : Code τ (List Capture)).wp
      (sharing (d.machine link start) (background (d.machine link start) host))
      (fun r x => ∃ log, r = .ok log ∧ Lists host d start points s (before ++ [capturingEntry bpId point keys])
        (capturingEntry bpId point keys) log x.1)
      (w, false) := by
  rw [Program.wp_bind]
  refine Program.wp_mono (fun r x hx => ?_) (wp_captureOnHit (quiet_of_unwatched rfl hdead) hw hdead hlisted holder hkeys)
  obtain ⟨rfl, hfree, hstarted⟩ := hx
  have hx : (x.1, false) = x := Prod.ext rfl hfree.symm
  have hstable : Stable (background (d.machine link start) host)
    (Tracking host d start points s w.watchers.length x.1) := hstarted.tracks hdead holder hdistinct
  have hstart : Tracking host d start points s w.watchers.length x.1 x.1 := ⟨[], s, kept_start hstarted.toHunting⟩
  rw [Program.onValue_ok, ← hx]
  refine wp_beside (atomic_access hstable ⟨rfl, rfl⟩) hstart fun v hv c hc => ⟨(), rfl, ?_⟩
  rw [show ((d.machine link start).step (.sleep n) c v).2 = v from hv.sleeps hc]
  unfold getCaptureLog
  refine wp_beside (atomic_access hstable ⟨rfl, rfl⟩) hv fun u hu c' _ => ⟨u.breakpoints, rfl, ?_⟩
  obtain ⟨spec, hfound, hlists⟩ := hu.lists hstarted.registry holder
  rw [hfound]
  exact ⟨spec.log, rfl, hlists⟩

/-- The tools up to the moment at which they have read the log. -/
def readHits (bpId n : ℕ) (names : List String) : Code τ (List Capture) := do
  captureOnHit bpId (some names) true
  access (.sleep n)
  getCaptureLog bpId

/-- What has been read is returned, whatever happens when the tool cleans up. -/
theorem reaches_traceHits {C W : Type} {M : Machine (signature τ) C W} {x y : W} {r : Except PyError (List Capture)}
    (h : (traceHits bpId n names).Reaches M x r y) : ∃ u, (readHits bpId n names).Reaches M x r u := by
  obtain ⟨outcome, u, closing, hread, hclean, hr⟩ := (Program.reaches_ensuring _ _).mp h
  have hswallowed : closing = .ok () := by
    refine Program.reaches_of_wp (Q := fun r _ => r = .ok ()) ?_ hclean
    rw [Program.bind_eq, Program.wp_bind]
    refine Program.wp_mono (fun r₁ z hr₁ => ?_) wp_swallowed
    rw [hr₁, Program.onValue_ok]
    exact wp_swallowed
  rw [hswallowed] at hr
  exact ⟨u, hr ▸ hread⟩

end Tracing

section Tools

variable {σ τ N L : Type} {d : Debuggee σ} {link : Link τ N L} {start : Stage σ} {points : List Point} {s : σ}
  {w : World τ L} {host : Host} {n : ℕ} {duration : ℤ} {captures : Option (List String)} {keys : List CaptureKey}

/-- The tracing tools. -/
inductive Tracer where
  | writes (addr size : ℤ)
  | calls (entryAddr : ℤ)
  deriving DecidableEq, Repr

/-- The point that they plant. -/
def Tracer.point : Tracer → Point
  | .writes addr size => ⟨.writeWp, addr, size⟩
  | .calls entryAddr => breakPoint entryAddr

/-- How they plant it. -/
def Tracer.plant : Tracer → Code τ ℕ
  | .writes addr size => addWatchpoint addr size "write"
  | .calls entryAddr => addBreakpoint entryAddr

/-- Their code. -/
def Tracer.code (duration : ℤ) (captures : Option (List String)) : Tracer → Code τ (List Capture)
  | .writes addr size => traceWritesTo addr size duration captures
  | .calls entryAddr => traceCallsTo entryAddr duration captures

/-- The two tools are one but for the point. -/
theorem Tracer.code_eq (tracer : Tracer) : (tracer.code duration captures : Code τ (List Capture)) =
    (Program.ofExcept (checkDuration duration)).bind fun n => tracer.plant.bind fun bpId =>
      traceHits bpId n (traceCaptures captures) := by
  cases tracer <;> rfl

/-- The point of a trace is planted. -/
theorem wp_plant {tracer : Tracer} {others : World τ L → World τ L → Prop} (hfits : Fits tracer.point)
    (hquiet : Quiet others w) (hw : Idle d start points s w) (hnumbered : ∀ spec ∈ w.breakpoints, spec.bpId < w.nextId) :
    (tracer.plant : Code τ ℕ).wp (sharing (d.machine link start) others) (fun r x => r = .ok w.nextId ∧
      x.2 = false ∧ Idle d start (arm tracer.point points) s x.1 ∧
        withoutQueries x.1 = planted tracer.point (withoutQueries w)) (w, false) := by
  cases tracer with
  | writes addr size =>
    have hkind : watchKind "write" = .ok .writeWp := by decide +kernel
    exact wp_addWatchpoint_beside hkind hfits hquiet hw hnumbered
  | calls entryAddr => exact wp_addBreakpoint_beside hfits hquiet hw hnumbered

/-- The entry of a trace. -/
def Tracer.entry (tracer : Tracer) (w : World τ L) (keys : List CaptureKey) : BreakpointSpec :=
  capturingEntry w.nextId tracer.point keys

end Tools

section Samples

/-- The machine that goes back and forth, halted. -/
abbrev spinning : Machine (signature Origin) (Choice Origin TokenNet) TokenWorld :=
  spinningTarget.machine (tokenLink Origin) spinningStart

/-- A trace of the writes to the watched word. -/
def spinningTracer : Tracer := .writes 0x80003104 4

/-- The stub acknowledges the command to go on. -/
def goingOn : List (Choice Origin TokenNet) := [{net := default, response := [.ack (.reply 0)]}, {net := default}]

/-- The point is planted. -/
def plantedWorld : TokenWorld := ((spinningTracer.plant : Code Origin ℕ).run spinning accepting pausedWorld).2.1

/-- The target runs, and a watcher thread waits for it. -/
def tracingWorld : TokenWorld := ((captureOnHit 1 (some ["lr"]) true).run spinning goingOn plantedWorld).2.1

/-- A hit has been recorded. -/
def tracedWorld : TokenWorld := ((watcherIteration plainHost 0).run spinning hitOnce tracingWorld).2.1

/-- It has been read. -/
def readWorld : TokenWorld := ((getCaptureLog 1 : Code Origin (List Capture)).run spinning [] tracedWorld).2.1

/-- What the tool does at its end. -/
def cleaningUp : Code Origin Unit := do
  Program.handle (do let _ ← stopCapturing (some 1)) fun _ => pure ()
  Program.handle (do let _ ← remove 1) fun _ => pure ()

/-- Its result. -/
def tracedLog : List Capture := [⟨none, none, some 5, none, none, none, some 0x80003104, none⟩]

/-- Background threads next to the tool. -/
abbrev tracing : Machine (signature Origin) (Choice Origin TokenNet × TokenWorld) (TokenWorld × Bool) :=
  sharing spinning (background spinning plainHost)

/-- A run of a piece that gives the lock back. -/
theorem reaches_beside {α : Type} {p : Code Origin α} {script : List (Choice Origin TokenNet)} {w : TokenWorld}
    {r : Except PyError α} {Q : Except PyError α → TokenWorld × Bool → Prop} (hfollows : p.Follows spinning script w)
    (hr : (p.run spinning script w).1 = r) (hp : p.wp tracing Q (w, false)) (hfree : ∀ r x, Q r x → x.2 = false) :
    p.Reaches tracing (w, false) r ((p.run spinning script w).2.1, false) := by
  have hreach : ∃ held, p.Reaches tracing (w, false) r ((p.run spinning script w).2.1, held) :=
    reaches_shared (Program.reaches_along hfollows hr) false
  obtain ⟨held, hreach⟩ := hreach
  have hheld : held = false := hfree _ _ (Program.reaches_of_wp hp hreach)
  rw [hheld] at hreach
  exact hreach

/-- The sample trace fits. -/
theorem fits_spinningTracer : Fits spinningTracer.point := ⟨by decide, by decide, by decide⟩

/-- The sample registry is in order. -/
theorem inOrder_pausedWorld : InOrder layout (registry pausedWorld) :=
  ⟨fun _ hspec => absurd hspec List.not_mem_nil, List.Pairwise.nil⟩

/-- No watcher disturbs the sample session. -/
theorem quiet_pausedWorld : Quiet (background spinning plainHost) pausedWorld :=
  quiet_of_unwatched rfl fun _ => rfl

/-- The sample point is planted. -/
theorem wp_spinningPlant : (spinningTracer.plant : Code Origin ℕ).wp tracing (fun r x => r = .ok 1 ∧ x.2 = false ∧
    Idle spinningTarget spinningStart (arm spinningTracer.point []) false x.1 ∧
      withoutQueries x.1 = planted spinningTracer.point (withoutQueries pausedWorld)) (pausedWorld, false) :=
  wp_plant fits_spinningTracer quiet_pausedWorld idle_spinning inOrder_pausedWorld.below

/-- It can be. -/
theorem reaches_spinningPlant : (spinningTracer.plant : Code Origin ℕ).Reaches tracing (pausedWorld, false) (.ok 1)
    (plantedWorld, false) := by
  have hfollows : (spinningTracer.plant : Code Origin ℕ).Follows spinning accepting pausedWorld := by decide +kernel
  exact reaches_beside hfollows (by decide +kernel) wp_spinningPlant fun _ _ hx => hx.2.1

/-- Captures can be started. -/
theorem reaches_spinningCapture : (captureOnHit 1 (some ["lr"]) true : Code Origin Unit).Reaches tracing
    (plantedWorld, false) (.ok ()) (tracingWorld, false) := by
  have hidle := (Program.reaches_of_wp wp_spinningPlant reaches_spinningPlant).2.2.1
  have hthreads : plantedWorld.watchers = [] := by decide +kernel
  have hdead : Unwatched plantedWorld := fun thread => by
    unfold World.threadAlive
    rw [hthreads]
    rfl
  have hquiet : Quiet (background spinning plainHost) plantedWorld := quiet_of_unwatched rfl hdead
  have hlisted : plantedWorld.breakpoints = [] ++ [newEntry 1 spinningTracer.point] := by decide +kernel
  have hkeys : checkCaptures (some ["lr"]) = .ok [.lr] := by decide +kernel
  have hfollows : (captureOnHit 1 (some ["lr"]) true : Code Origin Unit).Follows spinning goingOn plantedWorld := by
    decide +kernel
  have hcapture : (captureOnHit 1 (some ["lr"]) true : Code Origin Unit).wp tracing (fun _ x => x.2 = false)
      (plantedWorld, false) := by
    refine Program.wp_mono (fun _ _ hx => ?_)
      (wp_captureOnHit hquiet hidle hdead hlisted (fun spec hspec => absurd hspec List.not_mem_nil) hkeys)
    exact hx.2.1
  exact reaches_beside hfollows (by decide +kernel) hcapture fun _ _ hx => hx

/-- The watcher thread comes in while the tool sleeps. -/
theorem background_hit : background spinning plainHost tracingWorld tracedWorld := by
  have hfollows : (watcherIteration plainHost 0).Follows spinning hitOnce tracingWorld := by decide +kernel
  exact Relation.ReflTransGen.single (Or.inl ⟨0, _, Program.reaches_run hfollows⟩)

/-- The trace can return the hit. -/
theorem reaches_spinningTrace : ∃ x, (spinningTracer.code 1000 (some ["lr"]) : Code Origin (List Capture)).Reaches
    tracing (pausedWorld, false) (.ok tracedLog) x := by
  have hread : (getCaptureLog 1 : Code Origin (List Capture)).Follows spinning [] tracedWorld := by decide +kernel
  have hresult : ((getCaptureLog 1 : Code Origin (List Capture)).run spinning [] tracedWorld).1 = .ok tracedLog := by
    decide +kernel
  have hlog : ∃ held, (getCaptureLog 1 : Code Origin (List Capture)).Reaches tracing (tracedWorld, false)
      (.ok tracedLog) (readWorld, held) :=
    reaches_shared (Program.reaches_along hread hresult) false
  obtain ⟨held, hlog⟩ := hlog
  have hclean : cleaningUp.Follows spinning [] readWorld := by decide +kernel
  have hswallowed : (cleaningUp.run spinning [] readWorld).1 = .ok () := by decide +kernel
  have hcleaned : ∃ held', cleaningUp.Reaches tracing (readWorld, held) (.ok ())
      ((cleaningUp.run spinning [] readWorld).2.1, held') :=
    reaches_shared (Program.reaches_along hclean hswallowed) held
  obtain ⟨held', hcleaned⟩ := hcleaned
  refine ⟨((cleaningUp.run spinning [] readWorld).2.1, held'), ?_⟩
  rw [spinningTracer.code_eq]
  refine (Program.reaches_bind _ _).mpr (Or.inl ⟨1000, _, ⟨rfl, rfl⟩, ?_⟩)
  refine (Program.reaches_bind _ _).mpr (Or.inl ⟨1, _, reaches_spinningPlant, ?_⟩)
  refine (Program.reaches_ensuring _ _).mpr ⟨.ok tracedLog, (readWorld, held), .ok (), ?_, hcleaned, rfl⟩
  refine (Program.reaches_bind _ _).mpr (Or.inl ⟨(), _, reaches_spinningCapture, ?_⟩)
  refine (Program.reaches_bind _ _).mpr (Or.inl ⟨(), (tracedWorld, false), ?_, hlog⟩)
  exact ⟨({net := default}, tracedWorld), ⟨Or.inr ⟨rfl, rfl, background_hit⟩, trivial, by decide +kernel⟩, rfl, rfl⟩

end Samples

end DolphinRe.TracedHits
