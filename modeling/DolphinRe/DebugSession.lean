import DolphinRe.IdealDebugger

/-!
# The session is the debugger it appears to be

Next to a target that executes instruction by instruction, whatever a client
asks for, in whatever order, is answered as the ideal debugger answers it: the
packets, the waits and the bookkeeping of the session cannot be told from it.
-/

namespace DolphinRe.DebugSession

open PythonText GdbPackets GdbWire GdbTokens StopReplies EffectProgram SessionMachine GdbClient SessionTools StubBehaviour
  BreakpointTools ExecutionTools LinkRefinement Interference ToolRuns SteppedTarget StepFallbacks FirstVisits RunningTarget
  RunToStop CapturedHits StateReports IdealDebugger
open PpcDisassembly (DisasmInstruction)

section Standing

variable {σ τ N L : Type} {d : Debuggee σ} {link : Link τ N L} {start : Stage σ} {points : List Point}
  {bench : Bench σ} {s : σ} {w v : World τ L}

/-- The session's books are those of a bench. -/
structure Books (bench : Bench σ) (w : World τ L) : Prop where
  /-- The registry is the client's list of points. -/
  registry : w.breakpoints = bench.registry
  /-- The next id is the one to be handed out next. -/
  nextId : w.nextId = bench.nextId
  /-- The stub's points are those armed in the target. -/
  armed : w.armed = bench.points
  /-- Every listed id has been handed out. -/
  numbered : ∀ spec ∈ bench.registry, spec.bpId < bench.nextId

/-- A session without a watcher that knows that its target runs. -/
structure Going (d : Debuggee σ) (start : Stage σ) (points : List Point) (s : σ) (w : World τ L) : Prop
    extends d.At start ⟨points, .running s⟩ w where
  /-- The session is marked as running. -/
  running : w.state = .connectedRunning
  /-- No watcher thread is alive. -/
  unwatched : w.watcher.all (fun thread => !w.threadAlive thread) = true

/-- The session is where the bench says. -/
def Stands (d : Debuggee σ) (start : Stage σ) (bench : Bench σ) (w : World τ L) : Prop :=
  match bench.situation with
  | .halted s => Idle d start bench.points s w ∧ Books bench w
  | .running s => Going d start bench.points s w ∧ Books bench w
  | .lost => True

/-- Queries keep no books. -/
theorem Books.of_same (h : Books bench w) (hsame : withoutQueries v = withoutQueries w) : Books bench v := by
  have hregistry : v.breakpoints = w.breakpoints := (congrArg World.breakpoints hsame :)
  have hnext : v.nextId = w.nextId := (congrArg World.nextId hsame :)
  have harmed : v.armed = w.armed := (congrArg World.armed hsame :)
  exact ⟨hregistry.trans h.registry, hnext.trans h.nextId, harmed.trans h.armed, h.numbered⟩

/-- The books do not say where the target is. -/
theorem Books.moved (h : Books bench w) (situation : Situation σ) : Books (bench.moved situation) w :=
  ⟨h.registry, h.nextId, h.armed, h.numbered⟩

/-- Every registered id has been handed out. -/
theorem Books.listed (h : Books bench w) : ∀ spec ∈ w.breakpoints, spec.bpId < w.nextId := by
  rw [h.registry, h.nextId]
  exact h.numbered

/-- A session stands where its target has halted. -/
theorem stands_halted (hsituation : bench.situation = .halted s) (hw : Idle d start bench.points s w)
    (hbooks : Books bench w) : Stands d start bench w := by
  unfold Stands
  rw [hsituation]
  exact ⟨hw, hbooks⟩

/-- It stands where its target runs. -/
theorem stands_running (hsituation : bench.situation = .running s) (hw : Going d start bench.points s w)
    (hbooks : Books bench w) : Stands d start bench w := by
  unfold Stands
  rw [hsituation]
  exact ⟨hw, hbooks⟩

/-- Of a lost target nothing is said. -/
theorem stands_lost : Stands d start (bench.moved .lost) w := trivial

/-- What differs by queries alone goes on alike. -/
theorem Going.of_same (h : Going d start points s w) (hat : d.At start ⟨points, .running s⟩ v)
    (hsame : withoutQueries v = withoutQueries w) : Going d start points s v := by
  have hstate : v.state = w.state := (congrArg World.state hsame :)
  have hwatcher : v.watcher = w.watcher := (congrArg World.watcher hsame :)
  have hwatchers : v.watchers = w.watchers := (congrArg World.watchers hsame :)
  have hidle := h.unwatched
  unfold World.threadAlive at hidle
  rw [← hwatcher, ← hwatchers] at hidle
  exact ⟨hat, hstate.trans h.running, hidle⟩

end Standing

section Moving

variable {σ τ N L : Type} {d : Debuggee σ} {link : Link τ N L} {start : Stage σ} {points : List Point}
  {s : σ} {w v : World τ L} {host : Host}

/-- One instruction is executed, and the state behind it is reported. -/
theorem wp_stepInstruction (timeout : Option ℕ) (hw : d.At start ⟨points, .halted s⟩ w) :
    (stepInstruction timeout : Code τ (Packet τ)).wp (d.machine link start) (fun r v =>
      (∃ raw, r = .ok raw ∧ raw.text = d.stopReply (d.exec s)) ∧ d.At start ⟨points, .halted (d.exec s)⟩ v ∧
        withoutQueries v = obeyed .step (withoutQueries w)) w := by
  unfold stepInstruction sendPacket
  rw [Program.bind_eq, Program.bind_eq, Program.wp_bind, Program.wp_bind]
  refine Program.wp_mono (fun r₁ v₁ h₁ => ?_) (wp_sendall_halted .step hw)
  obtain ⟨rfl, hv₁, hlast₁, hsame₁⟩ := h₁
  have hat : d.At start ⟨points, .halted (d.exec s)⟩ v₁ := hv₁
  rw [Program.onValue_ok]
  refine Program.wp_mono (fun r₂ v₂ h₂ => ?_) (wp_consumeAck_halted hlast₁ hat)
  obtain ⟨rfl, hv₂, hlast₂, hsame₂⟩ := h₂
  rw [Program.onValue_ok]
  refine wp_readPacket_settled rfl hv₂.settled ?_
  refine Program.wp_mono (fun r₃ v₃ h₃ => ?_) (wp_readPacketFromWire_halted timeout rfl hlast₂ hv₂)
  obtain ⟨⟨raw, rfl, hanswer⟩, hv₃, hsame₃⟩ := h₃
  exact ⟨⟨raw, rfl, of_decide_eq_true hanswer⟩, hv₃, hsame₃.trans (hsame₂.trans hsame₁)⟩

/-- A step executes one instruction. -/
theorem wp_stepOnce (hw : Idle d start points s w) : (step host : Code τ (StepReport τ)).wp (d.machine link start)
    (fun r v => (∃ raw, raw.text = d.stopReply (d.exec s) ∧ r = .ok (haltReport host d raw (d.exec s))) ∧
      Idle d start points (d.exec s) v ∧ withoutQueries v = obeyed .step (withoutQueries w)) w := by
  unfold step
  rw [Program.bind_eq, Program.bind_eq, Program.bind_eq]
  refine observes_ensureConnected.wp_bind hw fun v₁ hv₁ hsame₁ => ?_
  refine (observes_refuseIfWatcherRunning "step").wp_bind hv₁ fun v₂ hv₂ hsame₂ => ?_
  rw [Program.wp_bind]
  refine wp_locked rfl ?_
  unfold stepLocked
  rw [Program.bind_eq, Program.wp_bind]
  refine Program.wp_mono (fun r₃ v₃ h₃ => ?_) (wp_stepInstruction (some 5000) hv₂.toAt)
  obtain ⟨⟨raw, rfl, htext⟩, hv₃, hsame₃⟩ := h₃
  have hkept : v₃.state = v₂.state := (congrArg World.state hsame₃ :)
  have hstate : v₃.state = .connectedPaused := hkept.trans hv₂.paused
  have hidle : Idle d start points (d.exec s) v₃ :=
    hv₂.moved hv₃ hstate (congrArg World.watcher hsame₃ :) (congrArg World.watchers hsame₃ :)
  rw [Program.onValue_ok]
  intro c _
  change Program.onValue _ _ _ (.ok raw) (if v₃.state = .connectedRunning then _ else v₃)
  rw [if_neg (by rw [hstate]; exact SessionState.noConfusion), Program.onValue_ok]
  refine Program.wp_mono (fun r₄ v₄ h₄ => ?_) (observes_stepReport htext v₃ hidle)
  obtain ⟨rfl, hv₄, hsame₄⟩ := h₄
  rw [hsame₂.trans hsame₁] at hsame₃
  exact ⟨⟨raw, htext, rfl⟩, hv₄, hsame₄.trans hsame₃⟩

/-- A step over what is no call. -/
theorem wp_stepOver_plain {insn : DisasmInstruction} (hfound : currentInstruction host (d.frozen s) () = some insn)
    (hcall : isBl insn = false) {Q : Except PyError (StepReport τ) → World τ L → Prop} (hw : Idle d start points s w)
    (h : ∀ v, Idle d start points s v → withoutQueries v = withoutQueries w →
      (step host : Code τ (StepReport τ)).wp (d.machine link start) Q v) :
    (stepOver host : Code τ (StepReport τ)).wp (d.machine link start) Q w := by
  unfold stepOver
  rw [Program.bind_eq, Program.bind_eq, Program.bind_eq]
  refine observes_ensureConnected.wp_bind hw fun v₁ hv₁ hsame₁ => ?_
  refine (observes_refuseIfWatcherRunning "step_over").wp_bind hv₁ fun v₂ hv₂ hsame₂ => ?_
  refine observes_getPc.wp_bind hv₂ fun v₃ hv₃ hsame₃ => ?_
  rw [Program.bind_eq]
  refine (observes_disasmOneAt _).wp_bind hv₃ fun v₄ hv₄ hsame₄ => ?_
  rw [show instructionAt host (d.frozen s) () (d.pc s).toNat = some insn from hfound]
  dsimp only
  rw [if_neg (by rw [hcall]; exact Bool.false_ne_true)]
  exact h v₄ hv₄ (hsame₄.trans (hsame₃.trans (hsame₂.trans hsame₁)))

/-- Where there is no instruction, nothing is stepped over. -/
theorem observes_stepOver_none (hfound : currentInstruction host (d.frozen s) () = none) :
    Observes (d.machine link start) (Idle d start points s) (stepOver host : Code τ (StepReport τ))
      (· = .error noInstruction) := by
  refine observes_ensureConnected.bind_value ((observes_refuseIfWatcherRunning "step_over").bind_value ?_)
  refine observes_getPc.bind_value ((observes_disasmOneAt _).bind_value ?_)
  rw [show instructionAt host (d.frozen s) () (d.pc s).toNat = none from hfound]
  exact fun w hw => ⟨rfl, hw, rfl⟩

/-- Without a return address, nothing is stepped out of. -/
theorem observes_stepOut_none (hvalue : d.value s LR = none) :
    Observes (d.machine link start) (Idle d start points s) (stepOut host : Code τ (StepReport τ))
      (· = .error (.runtimeError "stub returned no value for LR")) := by
  refine observes_ensureConnected.bind_value ((observes_refuseIfWatcherRunning "step_out").bind_value ?_)
  refine (observes_getRegister "get_lr" 0x43 "LR").bind (fun addr haddr => ?_) fun e he => ?_
  · rw [show d.value s 0x43 = none from hvalue] at haddr
    cases haddr
  · have hmessage : "stub returned no value for " ++ "LR" = "stub returned no value for LR" := by decide +kernel
    rw [show d.value s 0x43 = none from hvalue] at he
    have heq : e = .runtimeError ("stub returned no value for " ++ "LR") := Except.error.inj he
    rw [heq, hmessage]

end Moving

section Waiting

variable {σ τ N L : Type} {d : Debuggee σ} {link : Link τ N L} {start : Stage σ} {points : List Point}
  {s : σ} {w v : World τ L}

/-- A wait in a paused session raises. -/
theorem observes_idleWait (timeout : ℕ) : Observes (d.machine link start) (Idle d start points s)
    (waitForHit timeout : Code τ (Hit τ))
    (· = .error (.wrongState "wait_for_hit needs CONNECTED_RUNNING; current state is connected_paused")) := by
  refine observes_ensureConnected.bind_value ((observes_watcherAlive fun _ hw => hw.unwatched).bind_value ?_)
  refine observes_getState.bind_value ?_
  have hmessage : "wait_for_hit needs CONNECTED_RUNNING; current state is " ++ SessionState.value .connectedPaused =
      "wait_for_hit needs CONNECTED_RUNNING; current state is connected_paused" := by decide +kernel
  have hidle : SessionState.connectedPaused ≠ .connectedRunning := SessionState.noConfusion
  rw [if_pos hidle, hmessage]
  exact fun w hw => ⟨rfl, hw, rfl⟩

/-- A running session is connected. -/
theorem observes_going_connected : Observes (d.machine link start) (Going d start points s)
    (ensureConnected : Code τ Unit) (· = .ok ()) := by
  refine observes_connected fun w hw => ?_
  rw [hw.running]
  rfl

/-- It is marked as running. -/
theorem observes_going_state : Observes (d.machine link start) (Going d start points s)
    (access .getState : Code τ SessionState) (· = .ok .connectedRunning) := by
  intro w hw c _
  exact ⟨congrArg Except.ok hw.running, hw, rfl⟩

/-- It has no live watcher. -/
theorem observes_going_unwatched : Observes (d.machine link start) (Going d start points s)
    (watcherAlive : Code τ Bool) (· = .ok false) :=
  observes_watcherAlive fun _ hw => hw.unwatched

/-- `is_paused` says that it is not. -/
theorem observes_going_paused : Observes (d.machine link start) (Going d start points s) (isPaused : Code τ Bool)
    (· = .ok false) :=
  observes_going_state.bind_value (observes_done rfl)

/-- A target that runs is not told so again. -/
theorem observes_going_resume : Observes (d.machine link start) (Going d start points s) (resume : Code τ Unit)
    (· = .ok ()) := by
  have hrefuse : Observes (d.machine link start) (Going d start points s)
      (refuseIfWatcherRunning "resume" : Code τ Unit) (· = .ok ()) :=
    observes_going_unwatched.bind_value (observes_done rfl)
  refine observes_going_connected.bind_value (hrefuse.bind_value (observes_going_state.bind_value ?_))
  rw [if_pos rfl]
  exact observes_done rfl

/-- A wait for a hit: it is too short, or reports the first halt under the entry it is attributed to. -/
theorem wp_waitForHit (timeout : ℕ) (hw : Going d start points s w) :
    (waitForHit timeout : Code τ (Hit τ)).wp (d.machine link start) (fun r v =>
      (∃ e, isTimeout e = true ∧ r = .error e ∧ Going d start points s v ∧ withoutQueries v = withoutQueries w) ∨
        ∃ raw s', d.HaltsFirst points s s' ∧ raw.text = d.stopReply s' ∧
          r = .ok ⟨raw, parseStopReply (d.stopReply s'), matchBp (parseStopReply (d.stopReply s')) w.breakpoints⟩ ∧
          Idle d start points s' v ∧
          withoutQueries v = {withoutQueries w with state := .connectedPaused, running := false}) w := by
  unfold waitForHit
  rw [Program.bind_eq, Program.bind_eq]
  refine observes_going_connected.wp_bind hw fun v₁ hv₁ hsame₁ => ?_
  refine observes_going_unwatched.wp_bind hv₁ fun v₂ hv₂ hsame₂ => ?_
  rw [if_neg Bool.false_ne_true, Program.bind_eq]
  refine observes_going_state.wp_bind hv₂ fun v₃ hv₃ hsame₃ => ?_
  have hsame := hsame₃.trans (hsame₂.trans hsame₁)
  rw [if_neg (not_not_intro rfl), Program.bind_eq, Program.wp_bind]
  refine wp_locked rfl ?_
  unfold awaitLocked
  rw [Program.bind_eq, Program.wp_bind]
  refine Program.wp_mono (fun r u hu => ?_) (wp_waitForStop (some timeout) hv₃.toAt)
  rcases hu with ⟨e, htimeout, rfl, hat, hsame₄⟩ | ⟨raw, s', hrun, htext, rfl, hat, hsame₄⟩
  · exact Or.inl ⟨e, htimeout, rfl, hv₃.of_same hat hsame₄, hsame₄.trans hsame⟩
  · rw [hsame] at hsame₄
    have hstate : u.state = w.state := (congrArg World.state hsame₄ :)
    have hwatcher : u.watcher = w.watcher := (congrArg World.watcher hsame₄ :)
    have hwatchers : u.watchers = w.watchers := (congrArg World.watchers hsame₄ :)
    have hlisted : u.breakpoints = w.breakpoints := (congrArg World.breakpoints hsame₄ :)
    have hunwatched := hw.unwatched
    unfold World.threadAlive at hunwatched
    rw [← hwatcher, ← hwatchers] at hunwatched
    rw [Program.onValue_ok]
    intro c _
    change Program.onValue _ _ _ (.ok raw) (if u.state = .connectedRunning then {u with state := .connectedPaused} else u)
    rw [if_pos (hstate.trans hw.running), Program.onValue_ok]
    intro c' _
    change _ ∨ _
    refine Or.inr ⟨raw, s', (d.run_iff points s s').mp hrun, htext, ?_, ⟨hat.same rfl rfl rfl, rfl, hunwatched⟩, ?_⟩
    · change Except.ok (⟨raw, parseStopReply raw.text, matchBp (parseStopReply raw.text) u.breakpoints⟩ : Hit τ) = _
      rw [htext, hlisted]
    · exact congrArg (fun x : World τ Unit => {x with state := SessionState.connectedPaused}) hsame₄

end Waiting

section Changing

variable {σ τ N L : Type} {d : Debuggee σ} {link : Link τ N L} {start : Stage σ} {points : List Point}
  {bench : Bench σ} {s : σ} {w v : World τ L}

/-- No other thread comes in where there is none. -/
theorem quiet_alone : Quiet (fun u v : World τ L => v = u) w := fun _ _ _ _ hothers => hothers

/-- The books after a point has been added. -/
theorem Books.plant {point : Point} (h : Books bench w) (hsame : withoutQueries v = planted point (withoutQueries w)) :
    Books (bench.plant point) v := by
  have hregistry : v.breakpoints = w.breakpoints ++ [newEntry w.nextId point] := (congrArg World.breakpoints hsame :)
  have hnext : v.nextId = w.nextId + 1 := (congrArg World.nextId hsame :)
  have harmed : v.armed = arm point w.armed := (congrArg World.armed hsame :)
  rw [h.registry, h.nextId] at hregistry
  rw [h.nextId] at hnext
  rw [h.armed] at harmed
  refine ⟨hregistry, hnext, harmed, fun spec hspec => ?_⟩
  have hbound : bench.nextId < (bench.plant point).nextId := Nat.lt_succ_self bench.nextId
  rcases List.mem_append.mp hspec with hold | hnew
  · exact (h.numbered spec hold).trans hbound
  · rw [List.mem_singleton.mp hnew]
    exact hbound

/-- The books after an entry has been removed. -/
theorem Books.clear {spec : BreakpointSpec} (h : Books bench w)
    (hregistry : v.breakpoints = unregister spec.bpId w.breakpoints) (hnext : v.nextId = w.nextId)
    (harmed : v.armed = disarm (cleared spec) w.armed) : Books (bench.clear spec) v := by
  rw [h.registry] at hregistry
  rw [h.armed] at harmed
  exact ⟨hregistry, hnext.trans h.nextId, harmed, fun old hold => h.numbered old (List.mem_of_mem_filter hold)⟩

/-- The books after a run with a temporary breakpoint. -/
theorem Books.ranTo {addr : ℕ} {s' : σ} (h : Books bench w)
    (hsame : withoutQueries v = RunToStop.ranTo addr (withoutQueries w)) : Books (bench.ranTo addr s') v := by
  have hregistry : v.breakpoints = w.breakpoints := (congrArg World.breakpoints hsame :)
  have hnext : v.nextId = w.nextId + 1 := (congrArg World.nextId hsame :)
  have harmed : v.armed = disarm (breakPoint addr) w.armed := (congrArg World.armed hsame :)
  rw [h.nextId] at hnext
  rw [h.armed] at harmed
  exact ⟨hregistry.trans h.registry, hnext, harmed, fun spec hspec => Nat.lt_succ_of_lt (h.numbered spec hspec)⟩

/-- A watchpoint of an unknown kind is refused before anything is sent. -/
theorem observes_addWatchpoint_error {addr size : ℤ} {on : String} {e : PyError} (hkind : watchKind on = .error e) :
    Observes (d.machine link start) (Idle d start points s) (addWatchpoint addr size on : Code τ ℕ) (· = .error e) := by
  refine observes_ensureConnected.bind_value fun w hw => ?_
  rw [Program.bind_eq, Program.wp_bind]
  refine wp_safeToModify_paused rfl hw.paused ?_
  unfold insertWatchpoint
  rw [hkind]
  exact ⟨rfl, hw, rfl⟩

/-- An id that is not registered is not removed. -/
theorem wp_remove_none {bpId : ℕ} (hw : Idle d start points s w) (hnone : lookup bpId w.breakpoints = none) :
    (remove bpId : Code τ Bool).wp (d.machine link start) (fun r v => r = .ok false ∧ Idle d start points s v ∧
      withoutQueries v = withoutQueries w) w := by
  have hkept : unregister bpId w.breakpoints = w.breakpoints := by
    refine List.filter_eq_self.mpr fun spec hspec => ?_
    have hne := List.find?_eq_none.mp hnone spec hspec
    simpa using hne
  unfold remove
  rw [Program.bind_eq]
  refine observes_ensureConnected.wp_bind hw fun v hv hsame => ?_
  have hlisted : v.breakpoints = w.breakpoints := (congrArg World.breakpoints hsame :)
  rw [Program.bind_eq, Program.wp_bind, wp_access]
  intro c _
  change Program.onValue _ _ _ (.ok (lookup bpId v.breakpoints))
    {v with breakpoints := unregister bpId v.breakpoints}
  have hsame' : {v with breakpoints := unregister bpId v.breakpoints} = v := by
    rw [hlisted, hkept, ← hlisted]
  rw [Program.onValue_ok, hsame', hlisted, hnone]
  exact ⟨rfl, hv, hsame⟩

end Changing

section Simulation

variable {σ τ N L : Type} {host : Host} {d : Debuggee σ} {link : Link τ N L} {start : Stage σ}
  {bench : Bench σ} {s : σ} {w v : World τ L}

/-- A look at a halted target. -/
theorem wp_looked {α : Type} {p : Code τ α} {good : Except PyError α → Prop}
    (hp : Observes (d.machine link start) (Idle d start bench.points s) p good)
    (hsituation : bench.situation = .halted s) (hw : Idle d start bench.points s w) (hbooks : Books bench w) :
    p.wp (d.machine link start) (fun r v => ∃ after, (good r ∧ after = bench) ∧ Stands d start after v) w := by
  refine Program.wp_mono (fun r v hv => ?_) (hp w hw)
  exact ⟨bench, ⟨hv.1, rfl⟩, stands_halted hsituation hv.2.1 (hbooks.of_same hv.2.2)⟩

/-- A step of a halted target. -/
theorem wp_stepped (hw : Idle d start bench.points s w) (hbooks : Books bench w) :
    (step host : Code τ (StepReport τ)).wp (d.machine link start)
      (fun r v => ∃ after, Steps host d bench s r after ∧ Stands d start after v) w := by
  refine Program.wp_mono (fun r v hv => ?_) (wp_stepOnce hw)
  obtain ⟨⟨raw, htext, hr⟩, hidle, hsame⟩ := hv
  have hregistry : v.breakpoints = w.breakpoints := (congrArg World.breakpoints hsame :)
  have hnext : v.nextId = w.nextId := (congrArg World.nextId hsame :)
  have harmed : v.armed = w.armed := (congrArg World.armed hsame :)
  have hafter : Books (bench.moved (.halted (d.exec s))) v :=
    ⟨hregistry.trans hbooks.registry, hnext.trans hbooks.nextId, harmed.trans hbooks.armed, hbooks.numbered⟩
  exact ⟨bench.moved (.halted (d.exec s)), ⟨raw, htext, hr, rfl⟩, stands_halted rfl hidle hafter⟩

/-- A run to a temporary breakpoint. -/
theorem runsTo_of_ends {α : Type} {addr : ℕ} {missed : Except PyError α → Prop} {report : Packet τ → σ → α}
    (hbooks : Books bench w) {r : Except PyError α}
    (h : Ends d start (disarm (breakPoint addr) bench.points) missed (fun r s' => ∃ raw,
      d.HaltsFirst (arm (breakPoint addr) bench.points) s s' ∧ raw.text = d.stopReply s' ∧ r = .ok (report raw s'))
      (RunToStop.ranTo addr (withoutQueries w)) r v) :
    ∃ after, RunsTo d bench s addr missed report r after ∧ Stands d start after v := by
  rcases h with hmissed | hends
  · exact ⟨bench.moved .lost, Or.inl ⟨hmissed, rfl⟩, stands_lost⟩
  · obtain ⟨s', ⟨raw, hhalts, htext, hr⟩, hidle, hsame⟩ := hends
    exact ⟨bench.ranTo addr s', Or.inr ⟨raw, s', hhalts, htext, hr, rfl⟩, stands_halted rfl hidle (hbooks.ranTo hsame)⟩

/-- A point is added to a halted target. -/
theorem wp_planted {p : Code τ ℕ} {point : Point} (hsituation : bench.situation = .halted s) (hbooks : Books bench w)
    (hp : Fits point → p.wp (sharing (d.machine link start) fun u v => v = u) (fun r x => r = .ok w.nextId ∧
      x.2 = false ∧ Idle d start (arm point bench.points) s x.1 ∧
        withoutQueries x.1 = planted point (withoutQueries w)) (w, false)) :
    p.wp (d.machine link start) (fun r v => ∃ after, Plants bench point r after ∧ Stands d start after v) w := by
  by_cases hfits : Fits point
  · have halone : p.wp (d.machine link start) (fun r v => r = .ok w.nextId ∧
        Idle d start (arm point bench.points) s v ∧ withoutQueries v = planted point (withoutQueries w)) w :=
      wp_of_shared (Program.wp_mono (fun r x hx => ⟨hx.1, hx.2.2⟩) (hp hfits))
    refine Program.wp_mono (fun r v hv => ?_) halone
    obtain ⟨hr, hidle, hsame⟩ := hv
    rw [hbooks.nextId] at hr
    exact ⟨bench.plant point, Or.inl ⟨hfits, hr, rfl⟩, stands_halted hsituation hidle (hbooks.plant hsame)⟩
  · refine Program.wp_mono (fun r v _ => ?_) (Program.wp_true _ _)
    exact ⟨bench.moved .lost, Or.inr ⟨hfits, rfl⟩, stands_lost⟩

/-- A target that has been let go is running. -/
theorem going_of_released (hw : Idle d start bench.points s w) (hv : Released d start bench.points s w v) :
    Going d start bench.points s v := by
  have hsame := hv.released
  have hstate : v.state = .connectedRunning := (congrArg World.state hsame :)
  have hwatcher : v.watcher = w.watcher := (congrArg World.watcher hsame :)
  have hwatchers : v.watchers = w.watchers := (congrArg World.watchers hsame :)
  have hidle := hw.unwatched
  unfold World.threadAlive at hidle
  rw [← hwatcher, ← hwatchers] at hidle
  exact ⟨hv.toAt, hstate, hidle⟩

/-- The books of a target that has been let go. -/
theorem Books.released (h : Books bench w) (hv : Released d start bench.points s w v) :
    Books (bench.moved (.running s)) v := by
  have hsame := hv.released
  have hregistry : v.breakpoints = w.breakpoints := (congrArg World.breakpoints hsame :)
  have hnext : v.nextId = w.nextId := (congrArg World.nextId hsame :)
  have harmed : v.armed = w.armed := (congrArg World.armed hsame :)
  exact ⟨hregistry.trans h.registry, hnext.trans h.nextId, harmed.trans h.armed, h.numbered⟩

/-- A request to a halted target. -/
theorem wp_atHalt (request : Request) (hsituation : bench.situation = .halted s) (hw : Idle d start bench.points s w)
    (hbooks : Books bench w) : (request.code host).wp (d.machine link start)
      (fun r v => ∃ after, AtHalt host d bench s request r after ∧ Stands d start after v) w := by
  cases request with
  | isPaused => exact wp_looked observes_isPaused hsituation hw hbooks
  | pause => exact wp_looked observes_pause hsituation hw hbooks
  | getPc => exact wp_looked observes_getPc hsituation hw hbooks
  | getLr => exact wp_looked (observes_getRegister "get_lr" 0x43 "LR") hsituation hw hbooks
  | getCtr => exact wp_looked (observes_getRegister "get_ctr" 0x44 "CTR") hsituation hw hbooks
  | getGprs => exact wp_looked observes_getGprs hsituation hw hbooks
  | getSprs => exact wp_looked observes_getSprs hsituation hw hbooks
  | getFprs => exact wp_looked observes_getFprs hsituation hw hbooks
  | getStack depth => exact wp_looked (observes_getStack depth) hsituation hw hbooks
  | read addr size => exact wp_looked (observes_readMemory addr size) hsituation hw hbooks
  | step => exact wp_stepped hw hbooks
  | stepOver =>
    unfold AtHalt
    dsimp only
    cases hfound : currentInstruction host (d.frozen s) () with
    | none => exact wp_looked (observes_stepOver_none hfound) hsituation hw hbooks
    | some insn =>
      dsimp only
      split_ifs with hcall
      · have hlanding : Runner.past.landing host d s = some ((d.pc s).toNat + 4) := by
          unfold Runner.landing
          dsimp only
          rw [hfound, Option.bind_some, if_pos hcall]
        exact Program.wp_mono (fun r v hv => runsTo_of_ends hbooks hv) (wp_runner hlanding hw hbooks.listed)
      · refine wp_stepOver_plain hfound (Bool.eq_false_iff.mpr hcall) hw fun v hv hsame => ?_
        exact wp_stepped hv (hbooks.of_same hsame)
  | stepOut =>
    unfold AtHalt
    dsimp only
    cases hvalue : d.value s LR with
    | none => exact wp_looked (observes_stepOut_none hvalue) hsituation hw hbooks
    | some addr =>
      have hlanding : Runner.outward.landing host d s = some addr := hvalue
      exact Program.wp_mono (fun r v hv => runsTo_of_ends hbooks hv) (wp_runner hlanding hw hbooks.listed)
  | runUntil addr timeout =>
    exact Program.wp_mono (fun r v hv => runsTo_of_ends hbooks hv) (wp_runUntil addr timeout hw hbooks.listed)
  | resume =>
    refine Program.wp_mono (fun r v hv => ?_) (wp_resume hw)
    exact ⟨bench.moved (.running s), ⟨hv.1, rfl⟩, stands_running rfl (going_of_released hw hv.2)
      (hbooks.released hv.2)⟩
  | waitForHit timeout => exact wp_looked (observes_idleWait timeout) hsituation hw hbooks
  | addBreakpoint addr =>
    exact wp_planted hsituation hbooks fun hfits => wp_addBreakpoint_beside hfits quiet_alone hw hbooks.listed
  | addWatchpoint addr size on =>
    unfold AtHalt
    dsimp only
    cases hkind : watchKind on with
    | error e => exact wp_looked (observes_addWatchpoint_error hkind) hsituation hw hbooks
    | ok kind =>
      exact wp_planted hsituation hbooks fun hfits =>
        wp_addWatchpoint_beside hkind hfits quiet_alone hw hbooks.listed
  | remove bpId =>
    unfold AtHalt
    dsimp only
    have hregistry := hbooks.registry
    cases hfound : lookup bpId bench.registry with
    | none =>
      rw [← hregistry] at hfound
      refine Program.wp_mono (fun r v hv => ?_) (wp_remove_none hw hfound)
      exact ⟨bench, ⟨hv.1, rfl⟩, stands_halted hsituation hv.2.1 (hbooks.of_same hv.2.2)⟩
    | some spec =>
      have hid : spec.bpId = bpId := by
        have hfinds : bench.registry.find? (fun entry => decide (entry.bpId = bpId)) = some spec := hfound
        simpa using List.find?_some hfinds
      rw [← hregistry] at hfound
      dsimp only
      by_cases hfits : Fits (cleared spec)
      · refine Program.wp_mono (fun r v hv => ?_) (wp_removing hw hfound hfits)
        obtain ⟨hr, hidle, hsame⟩ := hv
        rw [← hid] at hsame
        have hcleared : Books (bench.clear spec) v := hbooks.clear (congrArg World.breakpoints hsame :)
          (congrArg World.nextId hsame :) (congrArg World.armed hsame :)
        exact ⟨bench.clear spec, Or.inl ⟨hfits, hr, rfl⟩, stands_halted hsituation hidle hcleared⟩
      · refine Program.wp_mono (fun r v _ => ?_) (Program.wp_true _ _)
        exact ⟨bench.moved .lost, Or.inr ⟨hfits, rfl⟩, stands_lost⟩

/-- A request next to a target that runs. -/
theorem wp_onTheRun (request : Request) (hsituation : bench.situation = .running s)
    (hw : Going d start bench.points s w) (hbooks : Books bench w) : (request.code host).wp (d.machine link start)
      (fun r v => ∃ after, OnTheRun d bench s request r after ∧ Stands d start after v) w := by
  have hlost : ∀ {α : Type} (p : Code τ α), p.wp (d.machine link start)
      (fun _ v => ∃ after, after = bench.moved .lost ∧ Stands d start after v) w := fun p =>
    Program.wp_mono (fun r v _ => ⟨bench.moved .lost, rfl, stands_lost⟩) (Program.wp_true _ _)
  have hlooked : ∀ {α : Type} {p : Code τ α} {good : Except PyError α → Prop},
      Observes (d.machine link start) (Going d start bench.points s) p good →
      p.wp (d.machine link start) (fun r v => ∃ after, (good r ∧ after = bench) ∧ Stands d start after v) w := by
    intro α p good hp
    refine Program.wp_mono (fun r v hv => ?_) (hp w hw)
    exact ⟨bench, ⟨hv.1, rfl⟩, stands_running hsituation hv.2.1 (hbooks.of_same hv.2.2)⟩
  cases request with
  | isPaused => exact hlooked observes_going_paused
  | resume => exact hlooked observes_going_resume
  | waitForHit timeout =>
    refine Program.wp_mono (fun r v hv => ?_) (wp_waitForHit timeout hw)
    rcases hv with ⟨e, htimeout, hr, hgoing, hsame⟩ | ⟨raw, s', hhalts, htext, hr, hidle, hsame⟩
    · exact ⟨bench, Or.inl ⟨e, htimeout, hr, rfl⟩, stands_running hsituation hgoing (hbooks.of_same hsame)⟩
    · rw [hbooks.registry] at hr
      have hregistry : v.breakpoints = w.breakpoints := (congrArg World.breakpoints hsame :)
      have hnext : v.nextId = w.nextId := (congrArg World.nextId hsame :)
      have harmed : v.armed = w.armed := (congrArg World.armed hsame :)
      have hafter : Books (bench.moved (.halted s')) v :=
        ⟨hregistry.trans hbooks.registry, hnext.trans hbooks.nextId, harmed.trans hbooks.armed, hbooks.numbered⟩
      exact ⟨bench.moved (.halted s'), Or.inr ⟨raw, s', hhalts, htext, hr, rfl⟩, stands_halted rfl hidle hafter⟩
  | _ => exact hlost _

/-- Every request is performed as the ideal debugger does. -/
theorem wp_request (request : Request) (hw : Stands d start bench w) :
    (request.code host).wp (d.machine link start)
      (fun r v => ∃ after, Performs host d bench request r after ∧ Stands d start after v) w := by
  unfold Performs
  unfold Stands at hw
  cases hsituation : bench.situation with
  | halted s =>
    rw [hsituation] at hw
    exact wp_atHalt request hsituation hw.1 hw.2
  | running s =>
    rw [hsituation] at hw
    exact wp_onTheRun request hsituation hw.1 hw.2
  | lost =>
    refine Program.wp_mono (fun r v _ => ⟨bench, rfl, ?_⟩) (Program.wp_true _ _)
    unfold Stands
    rw [hsituation]
    trivial

end Simulation

section Conversations

variable {σ τ N L : Type} {host : Host} {d : Debuggee σ} {link : Link τ N L} {start : Stage σ} {bench : Bench σ}

/-- One request after the other, each answered by its tool. -/
inductive Conversation (host : Host) (M : Machine (signature τ) (Choice τ N) (World τ L)) :
    World τ L → List (Exchange τ) → World τ L → Prop
  | nil (w : World τ L) : Conversation host M w [] w
  | cons {request : Request} {r : Except PyError (request.Answer τ)} {exchanges : List (Exchange τ)} {w u v : World τ L}
      (first : (request.code host).Reaches M w r u) (others : Conversation host M u exchanges v) :
      Conversation host M w (⟨request, r⟩ :: exchanges) v

variable {w v : World τ L}

/-- So is every sequence of requests. -/
theorem performed_of_conversation {exchanges : List (Exchange τ)} (hw : Stands d start bench w)
    (h : Conversation host (d.machine link start) w exchanges v) :
    ∃ log : List (Exchange τ × Bench σ), log.map Prod.fst = exchanges ∧ Performed host d bench log ∧
      Stands d start (final bench log) v := by
  induction h generalizing bench with
  | nil w => exact ⟨[], rfl, trivial, hw⟩
  | @cons request r exchanges w u v first others ih =>
    obtain ⟨after, hperforms, hu⟩ := Program.reaches_of_wp (wp_request request hw) first
    obtain ⟨log, hlog, hperformed, hv⟩ := ih hu
    refine ⟨(⟨request, r⟩, after) :: log, ?_, ⟨hperforms, hperformed⟩, ?_⟩
    · rw [List.map_cons, hlog]
    · rw [final_cons]
      exact hv

/-- Whatever a client asks for, in whatever order, next to a target that runs to its breakpoints, the session
answers as the ideal debugger does, and its books and its target are where the debugger's are. -/
theorem session_is_the_debugger {exchanges : List (Exchange τ)} (hw : Stands d start bench w)
    (h : Conversation host (d.machine link start) w exchanges v) :
    ∃ log : List (Exchange τ × Bench σ), log.map Prod.fst = exchanges ∧ Performed host d bench log ∧
      Stands d start (final bench log) v :=
  performed_of_conversation hw h

/-- As long as the target is not lost, the client is told of every state of the execution in which a point that
stays armed fires, whether it waits, steps or runs, and of none that the target has not been in. -/
theorem kept_points_never_fire_unnoticed {exchanges : List (Exchange τ)} {s : σ} (hw : Stands d start bench w)
    (hplace : bench.situation.place = some s) (h : Conversation host (d.machine link start) w exchanges v) :
    ∃ log : List (Exchange τ × Bench σ), log.map Prod.fst = exchanges ∧ Performed host d bench log ∧
      Stands d start (final bench log) v ∧ ∀ kept s', (∀ b ∈ bench :: log.map Prod.snd, kept ⊆ b.points) →
        (final bench log).situation.place = some s' → Told d kept s s' (stopsTold exchanges) := by
  obtain ⟨log, hlog, hperformed, hv⟩ := performed_of_conversation hw h
  refine ⟨log, hlog, hperformed, hv, fun kept s' hkept hfinal => ?_⟩
  rw [← hlog]
  exact told_performed hkept hplace hperformed hfinal

end Conversations

section Samples

/-- The breakpoint that stays armed. -/
def keptPoint : Point := breakPoint 0x80003104

/-- The target is halted, and the breakpoint is armed. -/
def pointedStart : Stage Bool := ⟨[keptPoint], .halted false⟩

/-- The same to the client. -/
def pointedBench : Bench Bool := ⟨.halted false, [keptPoint], [newEntry 1 keptPoint], 2⟩

/-- A session that is there. -/
def pointedWorld : TokenWorld :=
  {pausedWorld with breakpoints := [newEntry 1 keptPoint], nextId := 2, armed := [keptPoint]}

/-- The sample session stands at a halt, with a breakpoint. -/
theorem stands_pointed : Stands spinningTarget pointedStart pointedBench pointedWorld :=
  stands_halted rfl ⟨⟨rfl, rfl, rfl⟩, rfl, rfl⟩ ⟨rfl, rfl, rfl, by decide⟩

/-- The session next to the machine that goes back and forth. -/
abbrev pointedMachine : Machine (signature Origin) (Choice Origin TokenNet) TokenWorld :=
  spinningTarget.machine (tokenLink Origin) pointedStart

/-- Another breakpoint is added, the target runs to the first, and executes one more instruction. -/
def sampleExchanges : List (Exchange Origin) :=
  [⟨.addBreakpoint 0x80003100, .ok (2 : ℕ)⟩, ⟨.resume, .ok ()⟩,
    ⟨.waitForHit 1000, .ok (⟨⟨"T05".toList, landed⟩, parseStopReply "T05".toList, none⟩ : Hit Origin)⟩,
    ⟨.step, .ok (⟨⟨"T05".toList, .reply 0⟩, 0x80003100, none, none⟩ : StepReport Origin)⟩]

/-- The session after a request. -/
def asked (request : Request) (script : List (Choice Origin TokenNet)) (w : TokenWorld) : TokenWorld :=
  ((request.code plainHost).run pointedMachine script w).2.1

/-- The breakpoint has been added. -/
def armedWorld : TokenWorld := asked (.addBreakpoint 0x80003100) accepting pointedWorld

/-- The target has been let go. -/
def goingWorld : TokenWorld := asked .resume (haltingOnce.take 2) armedWorld

/-- It has halted. -/
def haltedWorld : TokenWorld := asked (.waitForHit 1000) (haltingOnce.drop 2) goingWorld

/-- What the stub sends for a step. -/
def stepping : List (Choice Origin TokenNet) :=
  replying stopBody ++ replying (hexBody (bigEndian 0x80003100)) ++ replying (hexBody [0, 0, 0, 0])

/-- It has executed one more instruction. -/
def steppedWorld : TokenWorld := asked .step stepping haltedWorld

/-- It is asked and stepped. -/
theorem conversation_pointed : Conversation plainHost pointedMachine pointedWorld sampleExchanges steppedWorld := by
  have hplants : (addBreakpoint 0x80003100).Follows pointedMachine accepting pointedWorld ∧
      ((addBreakpoint 0x80003100).run pointedMachine accepting pointedWorld).1 = .ok 2 := by decide +kernel
  have hresumes : resume.Follows pointedMachine (haltingOnce.take 2) armedWorld ∧
      (resume.run pointedMachine (haltingOnce.take 2) armedWorld).1 = .ok () := by decide +kernel
  have hwaits : (waitForHit 1000).Follows pointedMachine (haltingOnce.drop 2) goingWorld ∧
      ((waitForHit 1000).run pointedMachine (haltingOnce.drop 2) goingWorld).1 =
        .ok ⟨⟨"T05".toList, landed⟩, parseStopReply "T05".toList, none⟩ := by decide +kernel
  have hsteps : (step plainHost).Follows pointedMachine stepping haltedWorld ∧
      ((step plainHost).run pointedMachine stepping haltedWorld).1 =
        .ok ⟨⟨"T05".toList, .reply 0⟩, 0x80003100, none, none⟩ := by decide +kernel
  exact .cons (Program.reaches_along hplants.1 hplants.2) (.cons (Program.reaches_along hresumes.1 hresumes.2)
    (.cons (Program.reaches_along hwaits.1 hwaits.2) (.cons (Program.reaches_along hsteps.1 hsteps.2) (.nil _))))

/-- Its answers are those of the ideal debugger. -/
theorem session_is_the_debugger_pointed : ∃ log : List (Exchange Origin × Bench Bool),
    log.map Prod.fst = sampleExchanges ∧ Performed plainHost spinningTarget pointedBench log ∧
      Stands spinningTarget pointedStart (final pointedBench log) steppedWorld :=
  session_is_the_debugger stands_pointed conversation_pointed

/-- The two stops that the client is told of. -/
theorem kept_points_never_fire_unnoticed_pointed :
    Told spinningTarget [keptPoint] false false ["T05".toList, "T05".toList] := by
  obtain ⟨log, hlog, hperformed, -, htold⟩ :=
    kept_points_never_fire_unnoticed stands_pointed rfl conversation_pointed
  unfold sampleExchanges at hlog
  obtain ⟨⟨_, first⟩, log₁, rfl, rfl, hlog₁⟩ := List.map_eq_cons_iff.mp hlog
  obtain ⟨⟨_, second⟩, log₂, rfl, rfl, hlog₂⟩ := List.map_eq_cons_iff.mp hlog₁
  obtain ⟨⟨_, third⟩, log₃, rfl, rfl, hlog₃⟩ := List.map_eq_cons_iff.mp hlog₂
  obtain ⟨⟨_, fourth⟩, log₄, rfl, rfl, hlog₄⟩ := List.map_eq_cons_iff.mp hlog₃
  obtain rfl := List.map_eq_nil_iff.mp hlog₄
  obtain ⟨hplants, hresumes, hwaits, hsteps, -⟩ := hperformed
  have hfirst : first = pointedBench.plant (breakPoint 0x80003100) := by
    rcases hplants with hfits | hlost
    · exact hfits.2.2
    · exact absurd (fits_breakPoint 0x80003100) hlost.1
  rw [hfirst] at hresumes
  have hsecond : second = (pointedBench.plant (breakPoint 0x80003100)).moved (.running false) := hresumes.2
  rw [hsecond] at hwaits
  have hthird : third = (pointedBench.plant (breakPoint 0x80003100)).moved (.halted true) := by
    rcases hwaits with ⟨e, -, hr, -⟩ | ⟨raw, s', hhalts, -, -, hbench⟩
    · cases hr
    · have hrun := (spinningTarget.run_iff _ _ _).mpr hhalts
      have hfound : some true = some s' := hrun
      rw [hbench, ← Option.some.inj hfound]
      rfl
  rw [hthird] at hsteps
  obtain ⟨raw, -, -, hfourth⟩ := hsteps
  have hkept : [keptPoint] ⊆ (pointedBench.plant (breakPoint 0x80003100)).points := by decide +kernel
  refine htold [keptPoint] false (fun b hb => ?_) ?_
  · simp only [List.map_cons, List.map_nil, List.mem_cons, List.not_mem_nil, or_false] at hb
    rcases hb with hb | hb | hb | hb | hb
    · rw [hb]
      exact List.Subset.refl [keptPoint]
    · rw [hb, hfirst]
      exact hkept
    · rw [hb, hsecond]
      exact hkept
    · rw [hb, hthird]
      exact hkept
    · rw [hb, hfourth]
      exact hkept
  · rw [hfourth]
    rfl

end Samples

end DolphinRe.DebugSession
