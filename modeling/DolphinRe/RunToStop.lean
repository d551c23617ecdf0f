import DolphinRe.RunningTarget
import DolphinRe.StepFallbacks
import DolphinRe.TemporaryPoints

/-!
# Running to a temporary breakpoint

`run_until`, `step_out` and `step_over` on a call plant a breakpoint, let the
target run and report where it halts. Next to a target that runs to its
breakpoints the report is on the first state in which the planted breakpoint or
another armed point fires, and nothing of the breakpoint is left behind.
-/

namespace DolphinRe.RunToStop

open PythonText GdbPackets GdbWire GdbTokens StopReplies EffectProgram SessionMachine GdbClient SessionTools
  BreakpointTools ExecutionTools LinkRefinement StubBehaviour DataReplies ExactReads HostedMemory MemoryPackets MemoryWindows
  Footprints Interference ToolRuns WatcherSurvival SteppedTarget StepFallbacks FirstVisits RunningTarget
open PpcDisassembly (DisasmInstruction)

section Sessions

variable {σ τ N L α : Type} {d : Debuggee σ} {link : Link τ N L} {start stage stage' : Stage σ}
  {points : List Point} {s : σ} {w v : World τ L} {host : Host}

/-- A paused session without a watcher, connected to a target in a stage. -/
structure Paused (d : Debuggee σ) (start stage : Stage σ) (w : World τ L) : Prop extends d.At start stage w where
  /-- The session is marked as paused. -/
  paused : w.state = .connectedPaused
  /-- No watcher thread is alive. -/
  unwatched : w.watcher.all (fun thread => !w.threadAlive thread) = true

/-- The session is paused in another stage where it is the same itself. -/
theorem Paused.moved (h : Paused d start stage w) (hat : d.At start stage' v)
    (hstate : v.state = .connectedPaused) (hwatcher : v.watcher = w.watcher)
    (hwatchers : v.watchers = w.watchers) : Paused d start stage' v where
  toAt := hat
  paused := hstate
  unwatched := by
    have hidle := h.unwatched
    unfold World.threadAlive at hidle ⊢
    rw [hwatcher, hwatchers]
    exact hidle

/-- What differs by queries alone is paused alike. -/
theorem Paused.of_same (h : Paused d start stage w) (hat : d.At start stage' v)
    (hsame : withoutQueries v = withoutQueries w) : Paused d start stage' v := by
  have hstate : v.state = w.state := (congrArg World.state hsame :)
  exact h.moved hat (hstate.trans h.paused) (congrArg World.watcher hsame :) (congrArg World.watchers hsame :)

/-- The condition under which the target is observed. -/
abbrev Idle (d : Debuggee σ) (start : Stage σ) (points : List Point) (s : σ) (w : World τ L) : Prop :=
  Paused d start ⟨points, .halted s⟩ w

/-- A connected session connects no more. -/
theorem observes_connected {H : World τ L → Prop} (hH : ∀ w, H w → w.state.isConnected = true) :
    Observes (d.machine link start) H (ensureConnected : Code τ Unit) (· = .ok ()) :=
  fun w hw => wp_ensureConnected_connected rfl (hH w hw) ⟨rfl, hw, rfl⟩

/-- Without a live watcher none is found. -/
theorem observes_watcherAlive {H : World τ L → Prop}
    (hH : ∀ w, H w → w.watcher.all (fun thread => !w.threadAlive thread) = true) :
    Observes (d.machine link start) H (watcherAlive : Code τ Bool) (· = .ok false) := by
  intro w hw
  have hidle := hH w hw
  unfold watcherAlive
  rw [Program.bind_eq, Program.wp_bind]
  intro c _
  change Program.onValue _ _ _ (.ok w.watcher) w
  rw [Program.onValue_ok]
  cases hwatcher : w.watcher with
  | none => exact ⟨rfl, hw, rfl⟩
  | some thread =>
    rw [hwatcher] at hidle
    have hdead : w.threadAlive thread = false := by simpa using hidle
    exact fun c' _ => ⟨congrArg Except.ok hdead, hw, rfl⟩

/-- An idle session is connected. -/
theorem observes_ensureConnected : Observes (d.machine link start) (Idle d start points s)
    (ensureConnected : Code τ Unit) (· = .ok ()) := by
  refine observes_connected fun w hw => ?_
  rw [hw.paused]
  rfl

/-- It refuses nothing. -/
theorem observes_refuseIfWatcherRunning (op : String) :
    Observes (d.machine link start) (Idle d start points s)
      (refuseIfWatcherRunning op : Code τ Unit) (· = .ok ()) :=
  (observes_watcherAlive fun _ hw => hw.unwatched).bind_value (observes_done rfl)

/-- Being idle is kept by queries. -/
theorem attends_idle : Attends d start points s (Idle d start points s : World τ L → Prop) where
  stands _ hw := hw.toAt
  keeps _ _ hw hat hsame := hw.of_same hat hsame

/-- What a tool that reads one register makes of its value. -/
def reported (label : String) : Option ℕ → Except PyError ℕ
  | some value => .ok value
  | none => .error (.runtimeError ("stub returned no value for " ++ label))

/-- The register tools report the target's registers. -/
theorem observes_getRegister (op : String) (regnum : ℕ) (label : String) :
    Observes (d.machine link start) (Idle d start points s) (getRegister op regnum label : Code τ ℕ)
      (· = reported label (d.value s regnum)) := by
  refine observes_ensureConnected.bind_value ((observes_refuseIfWatcherRunning op).bind_value ?_)
  refine ((observes_readRegister attends_idle regnum).locked rfl).bind_value ?_
  cases d.value s regnum with
  | some value => exact observes_done rfl
  | none => exact fun w hw => ⟨rfl, hw, rfl⟩

/-- `get_pc` reports the program counter. -/
theorem observes_getPc : Observes (d.machine link start) (Idle d start points s) (getPc : Code τ ℕ)
    (· = .ok (d.pc s).toNat) := by
  have hread : Observes (d.machine link start) (Idle d start points s) (getRegister "get_pc" 0x40 "PC" : Code τ ℕ)
    (· = reported "PC" (d.value s 0x40)) := observes_getRegister "get_pc" 0x40 "PC"
  rw [show d.value s 0x40 = some (d.pc s).toNat from value_pc d s] at hread
  exact hread

/-- Memory through the stub. -/
theorem observes_readMem {addr size : ℤ} (hsize : 0 < size) :
    Observes (d.machine link start) (Idle d start points s) (readMem addr size : Code τ (List UInt8))
      (Yields (valuesAt (d.memory s) addr size.toNat)) := by
  refine observes_cmd_bind attends_idle rfl fun packet hanswer => ?_
  unfold Debuggee.answers Target.answers Debuggee.frozen at hanswer
  dsimp only at hanswer
  cases hbytes : valuesAt (d.memory s) addr size.toNat with
  | some blob =>
    rw [hbytes] at hanswer
    have htext : packet.text = toHex blob := of_decide_eq_true hanswer
    have hfull : blob ≠ [] := by
      intro hempty
      have hlength := length_of_valuesAt hbytes
      rw [hempty, List.length_nil] at hlength
      omega
    rw [htext, raiseIfError_toHex hfull, fromHexOrRaise_toHex]
    exact observes_done rfl
  | none =>
    rw [hbytes] at hanswer
    dsimp only at hanswer
    have hraised : ∃ e, raiseIfError packet.text (Command.readMem addr size).payload = .error e := by
      cases hcheck : raiseIfError packet.text (Command.readMem addr size).payload with
      | error e => exact ⟨e, rfl⟩
      | ok u =>
        rw [(raiseIfError_context packet.text _).mp hcheck] at hanswer
        exact absurd hanswer Bool.false_ne_true
    obtain ⟨e, he⟩ := hraised
    rw [he]
    exact fun w hw => ⟨⟨e, rfl⟩, hw, rfl⟩

/-- Memory of the attached process. -/
theorem observes_hostRead (addr : ℤ) (size : ℕ) : Observes (d.machine link start) (Idle d start points s)
    (.perform (.hostRead addr size) .ofExcept : Code τ (List UInt8))
    (Yields (valuesAt (d.memory s) addr size)) := by
  intro w hw c hadmitted
  obtain ⟨hacts, -, hserved⟩ := serves_of_admits hw.toAt hadmitted
  change (d.frozen s).copies (.ok ()) addr size (World.hostRead addr size c) = true at hserved
  change Program.wp _ (Program.ofExcept (World.hostRead addr size c)) _ (w.absorb link c.acts)
  rw [Program.wp_ofExcept, absorb_of_nil hacts]
  refine ⟨?_, hw, rfl⟩
  cases hread : World.hostRead addr size c with
  | ok blob =>
    rw [hread] at hserved
    have hblob : valuesAt (d.memory s) addr size = some blob := of_decide_eq_true hserved
    rw [hblob]
    rfl
  | error e =>
    rw [hread] at hserved
    have hnone : valuesAt (d.memory s) addr size = none := Option.isNone_iff_eq_none.mp hserved
    rw [hnone]
    exact ⟨e, rfl⟩

/-- Memory through whichever backend. -/
theorem observes_memRead (addr size : ℤ) : Observes (d.machine link start) (Idle d start points s)
    (memRead addr size : Code τ (List UInt8)) (Yields ((d.frozen s).fetched () addr size)) := by
  have hrouted : ∀ p : Code τ (List UInt8), (∀ routed, route addr size = .ok routed →
      Observes (d.machine link start) (Idle d start points s) p (Yields (valuesAt (d.memory s) addr size.toNat))) →
      Observes (d.machine link start) (Idle d start points s)
        ((Program.ofExcept (route addr size)).bind fun _ => p) (Yields ((d.frozen s).fetched () addr size)) := by
    intro p hp
    refine (observes_ofExcept _).bind (fun routed hroute => ?_) fun e he => ?_
    · unfold Target.fetched
      rw [← hroute]
      exact hp routed hroute.symm
    · unfold Target.fetched
      rw [← he]
      exact ⟨e, rfl⟩
  intro w hw c _
  change Program.wp _ (if w.attached = true then _ else _) _ w
  by_cases hattached : w.attached = true
  · rw [if_pos hattached]
    exact hrouted _ (fun _ _ => observes_hostRead addr size.toNat) w hw
  · rw [if_neg hattached]
    exact hrouted _ (fun _ hroute => observes_readMem (MemoryBackends.spans_of_route hroute).1.positive) w hw

/-- Disassembly shows the instruction in memory. -/
theorem observes_disasmOneAt (addr : ℤ) : Observes (d.machine link start) (Idle d start points s)
    (disasmOneAt host addr : Code τ (Option DisasmInstruction)) (· = .ok (instructionAt host (d.frozen s) () addr)) := by
  have hbody : Observes (d.machine link start) (Idle d start points s)
      ((ensureConnected : Code τ Unit).bind fun _ => (memRead addr 4).bind fun blob =>
        (Program.ofExcept (host.disasmBytes addr blob)).bind fun insns => .done insns.head?)
      (fun r => match r with
        | .ok found => instructionAt host (d.frozen s) () addr = found
        | .error _ => instructionAt host (d.frozen s) () addr = none) := by
    refine observes_ensureConnected.bind_value ((observes_memRead addr 4).bind (fun blob hblob => ?_) fun e he => ?_)
    · refine (observes_ofExcept _).bind (fun insns hinsns => ?_) fun e he => ?_
      · refine observes_done ?_
        simp only [instructionAt, yields_ok.mp hblob, ← hinsns]
      · simp only [instructionAt, yields_ok.mp hblob, ← he]
    · simp only [instructionAt, yields_error.mp he]
  unfold disasmOneAt Program.handle
  refine hbody.attempt_bind fun outcome hfound => ?_
  cases outcome with
  | ok insn => exact observes_done (congrArg Except.ok hfound.symm)
  | error e => exact observes_done (congrArg Except.ok hfound.symm)

/-- The program counter of a stop, reported or read. -/
theorem observes_pcOf {raw : Packet τ} (hraw : raw.text = d.stopReply s) :
    Observes (d.machine link start) (Idle d start points s) (pcOf (parseStopReply raw.text) : Code τ ℤ)
      (· = .ok (d.pc s).toNat) := by
  rw [hraw]
  unfold pcOf
  cases hpc : (parseStopReply (d.stopReply s)).pc with
  | some pc =>
    rw [d.stopReply_pc s pc hpc]
    exact observes_done rfl
  | none => exact observes_getPc.bind_value (observes_done rfl)

/-- A report on a halt tells the target's program counter and instruction. -/
theorem observes_stepReport {raw : Packet τ} (hraw : raw.text = d.stopReply s) :
    Observes (d.machine link start) (Idle d start points s) (stepReport host raw : Code τ (StepReport τ))
      (· = .ok ⟨raw, (d.pc s).toNat, (parseStopReply (d.stopReply s)).sp,
        currentInstruction host (d.frozen s) ()⟩) := by
  refine (observes_pcOf hraw).bind_value ((observes_disasmOneAt _).bind_value (observes_done ?_))
  rw [hraw]
  rfl

end Sessions

section Running

variable {σ τ N L α : Type} {d : Debuggee σ} {link : Link τ N L} {start stage : Stage σ}
  {points : List Point} {s : σ} {w v : World τ L} {host : Host}

/-- The session has let the target run. -/
def resumed (w : World τ Unit) : World τ Unit :=
  {obeyed .resume w with state := .connectedRunning}

/-- The session has let the target run, and it has halted again. -/
def ran (w : World τ Unit) : World τ Unit :=
  {w with state := .connectedPaused, running := false, trace := w.trace ++ [.sent (.packet .resume) true]}

/-- A target that runs for a session that knows it. -/
structure Released (d : Debuggee σ) (start : Stage σ) (points : List Point) (s : σ) (w v : World τ L) : Prop
    extends d.At start ⟨points, .running s⟩ v where
  /-- But for queries, the session is the earlier one, resumed. -/
  released : withoutQueries v = resumed (withoutQueries w)

/-- A wait is over, or has found the target halted. -/
def Ended (d : Debuggee σ) (start : Stage σ) (points : List Point) (s : σ) (w : World τ L)
    (r : Except PyError (Packet τ)) (v : World τ L) : Prop :=
  (∃ e, isTimeout e = true ∧ r = .error e) ∨
    ∃ raw s', d.run points s = some s' ∧ raw.text = d.stopReply s' ∧ r = .ok raw ∧
      Paused d start ⟨points, .halted s'⟩ v ∧ withoutQueries v = ran (withoutQueries w)

/-- `resume` lets the target go. -/
theorem wp_resume (hw : Idle d start points s w) : (resume : Code τ Unit).wp (d.machine link start)
    (fun r v => r = .ok () ∧ Released d start points s w v) w := by
  unfold resume
  rw [Program.bind_eq, Program.bind_eq, Program.bind_eq]
  refine observes_ensureConnected.wp_bind hw fun v₁ hv₁ hsame₁ => ?_
  refine (observes_refuseIfWatcherRunning "resume").wp_bind hv₁ fun v₂ hv₂ hsame₂ => ?_
  have hsame := hsame₂.trans hsame₁
  intro c _
  change Program.wp _ (if v₂.state = .connectedRunning then _ else _) _ v₂
  have hpaused := hv₂.paused
  rw [if_neg (by rw [hpaused]; exact SessionState.noConfusion)]
  refine wp_locked rfl ?_
  unfold resumeLocked
  rw [Program.bind_eq, Program.wp_bind]
  refine Program.wp_mono ?_ (wp_continueAsync hv₂.toAt)
  rintro r v₃ ⟨rfl, hv₃, hsame₃⟩
  rw [Program.onValue_ok]
  have hstate : v₃.state = .connectedPaused := by
    have hkept : v₃.state = v₂.state := (congrArg World.state hsame₃ :)
    rw [hkept, hpaused]
  intro c' _
  change _ ∧ Released d start points s w
    (if v₃.state = .connectedPaused then {v₃ with state := .connectedRunning} else v₃)
  rw [if_pos hstate]
  refine ⟨rfl, hv₃.same rfl rfl rfl, ?_⟩
  rw [hsame] at hsame₃
  exact congrArg (fun u : World τ Unit => {u with state := SessionState.connectedRunning}) hsame₃

/-- The session is marked paused where the target has been found halted. -/
theorem paused_of_stop {s' : σ} (hw : Idle d start points s w) (hv : Released d start points s w v) {u : World τ L}
    (hu : d.At start ⟨points, .halted s'⟩ u)
    (hstopped : withoutQueries u = {withoutQueries v with running := false}) :
    Paused d start ⟨points, .halted s'⟩
        (if u.state = .connectedRunning then {u with state := .connectedPaused} else u) ∧
      withoutQueries (if u.state = .connectedRunning then {u with state := .connectedPaused} else u) =
        ran (withoutQueries w) := by
  rw [hv.released] at hstopped
  have hrunning : u.state = .connectedRunning := (congrArg World.state hstopped :)
  rw [if_pos hrunning]
  refine ⟨hw.moved (hu.same rfl rfl rfl) rfl (congrArg World.watcher hstopped :)
    (congrArg World.watchers hstopped :), ?_⟩
  exact congrArg (fun x : World τ Unit => {x with state := SessionState.connectedPaused}) hstopped

/-- A wait ends with the first halt, or in time. -/
theorem wp_awaitStop (timeout : ℕ) (hw : Idle d start points s w) (hv : Released d start points s w v) :
    (awaitStop timeout : Code τ (Packet τ)).wp (d.machine link start) (Ended d start points s w) v := by
  refine wp_locked rfl ?_
  unfold awaitLocked
  rw [Program.bind_eq, Program.wp_bind]
  refine Program.wp_mono ?_ (wp_waitForStop (some timeout) hv.toAt)
  rintro r u (⟨e, htimeout, rfl, -, -⟩ | ⟨raw, s', hrun, htext, rfl, hu, hstopped⟩)
  · exact Or.inl ⟨e, htimeout, rfl⟩
  · obtain ⟨hpaused, hran⟩ := paused_of_stop hw hv hu hstopped
    exact fun c _ => Or.inr ⟨raw, s', hrun, htext, rfl, hpaused, hran⟩

end Running

section Quiet

variable {τ N L α β : Type} {link : Link τ N L} {M : Machine (signature τ) (Choice τ N) (World τ L)}
  {others : World τ L → World τ L → Prop} {w v : World τ L}

/-- As long as the session is connected and has the watcher threads it has, no other thread comes in. -/
def Quiet (others : World τ L → World τ L → Prop) (w : World τ L) : Prop :=
  ∀ u v, u.watchers = w.watchers → u.state.isConnected = true → others u v → v = u

/-- Whether the others are quiet depends on the threads alone. -/
theorem Quiet.moved (h : Quiet others w) (hwatchers : v.watchers = w.watchers) : Quiet others v :=
  fun u x hu hconnected hothers => h u x (hu.trans hwatchers) hconnected hothers

/-- Quiet threads leave a connected session as it is. -/
theorem Quiet.stable (h : Quiet others w) (hconnected : w.state.isConnected = true) :
    Stable others (· = w) := by
  intro u v hu hothers
  rw [hu] at hothers
  exact h w v rfl hconnected hothers

/-- A piece of code next to other threads, which keep a condition. -/
theorem wp_beside {I : World τ L → Prop} {p : Code τ α} {f : α → Code τ β}
    {Q : Except PyError β → World τ L × Bool → Prop} (hatomic : Atomic M (threads τ) others I p) (hw : I w)
    (h : ∀ v, I v → p.wp M (fun r u => ∃ a, r = .ok a ∧ (f a).wp (sharing M others) Q (u, false)) v) :
    (p.bind f).wp (sharing M others) Q (w, false) := by
  rw [Program.wp_bind]
  refine Program.wp_mono (fun r x hx => ?_) (hatomic _ w hw h)
  obtain ⟨hfree, a, rfl, hf⟩ := hx
  have hx : (x.1, false) = x := Prod.ext rfl hfree.symm
  rw [Program.onValue_ok, ← hx]
  exact hf

/-- A piece of code in a quiet session does what it does on its own. -/
theorem wp_alone {p : Code τ α} {f : α → Code τ β} {Q : Except PyError β → World τ L × Bool → Prop}
    (hquiet : Quiet others w) (hconnected : w.state.isConnected = true)
    (hatomic : ∀ I, Stable others I → Atomic M (threads τ) others I p)
    (h : p.wp M (fun r v => ∃ a, r = .ok a ∧ (f a).wp (sharing M others) Q (v, false)) w) :
    (p.bind f).wp (sharing M others) Q (w, false) :=
  wp_beside (hatomic (· = w) (hquiet.stable hconnected)) rfl fun _ hv => hv.symm ▸ h

/-- A single access. -/
theorem wp_alone_access {o : Op τ} {f : o.Answer → Code τ β} {Q : Except PyError β → World τ L × Bool → Prop}
    (hquiet : Quiet others w) (hconnected : w.state.isConnected = true) (ho : (threads τ).plain o)
    (h : ∀ c, M.admits o c w → (f (M.step o c w).1).wp (sharing M others) Q ((M.step o c w).2, false)) :
    ((access o).bind f).wp (sharing M others) Q (w, false) :=
  wp_alone hquiet hconnected (fun _ hI => atomic_access hI ho) fun c hc => ⟨_, rfl, h c hc⟩

/-- Next to them a connected session connects no more. -/
theorem wp_alone_connected (hM : M.step = World.step link) {f : Unit → Code τ β}
    {Q : Except PyError β → World τ L × Bool → Prop} (hquiet : Quiet others w) (hconnected : w.state.isConnected = true)
    (h : (f ()).wp (sharing M others) Q (w, false)) : (ensureConnected.bind f).wp (sharing M others) Q (w, false) := by
  unfold ensureConnected
  rw [Program.bind_eq, Program.bind_assoc]
  refine wp_alone_access hquiet hconnected ⟨rfl, rfl⟩ fun c _ => ?_
  rw [hM]
  change Program.wp _ (Program.bind (if w.state.isConnected = true then _ else _) f) Q (w, false)
  rw [if_pos hconnected]
  exact h

end Quiet

section Temporaries

variable {σ τ N L α : Type} {d : Debuggee σ} {link : Link τ N L} {start stage : Stage σ}
  {points : List Point} {s : σ} {w v : World τ L} {host : Host}

/-- The packets for a point say what they are meant to say. -/
def Fits (point : Point) : Prop := 0 ≤ point.addr ∧ 0 ≤ point.size ∧ point.size < 10

/-- The packet that inserts or deletes a point. -/
abbrev pointCommand (insert : Bool) (point : Point) : Command := .setBreak insert point.kind point.addr point.size

/-- The armed points once a point has been inserted or deleted. -/
def changed (insert : Bool) (point : Point) (armed : List Point) : List Point :=
  if insert then arm point armed else disarm point armed

/-- A packet that fits arms or disarms its point. -/
theorem armedAfter_pointCommand (insert : Bool) {point : Point} (hfits : Fits point) (armed : List Point) :
    armedAfter (.packet (pointCommand insert point)) armed = changed insert point armed := by
  have hread := (PacketNumerals.readPoint_payload_iff insert point.kind point.addr point.size).mpr hfits
  change setPoint _ armed = _
  unfold setPoint
  rw [hread]
  cases insert <;> rfl

/-- A point that is inserted and deleted is not armed. -/
theorem disarm_arm (point : Point) (armed : List Point) : disarm point (arm point armed) = disarm point armed := by
  unfold arm
  split_ifs
  · rfl
  · unfold disarm
    rw [List.filter_append, List.filter_cons_of_neg (by simp), List.filter_nil, List.append_nil]

/-- The point of a breakpoint on an instruction. -/
def breakPoint (addr : ℤ) : Point := ⟨.swBp, addr, 4⟩

/-- Breakpoints at natural addresses fit. -/
theorem fits_breakPoint (addr : ℕ) : Fits (breakPoint addr) :=
  ⟨Int.natCast_nonneg addr, (by decide : (0 : ℤ) ≤ 4), (by decide : (4 : ℤ) < 10)⟩

/-- The entry of a new point. -/
def newEntry (bpId : ℕ) (point : Point) : BreakpointSpec :=
  {bpId := bpId, addr := point.addr, kind := point.kind, size := point.size}

/-- A point has been added. -/
def planted (point : Point) (w : World τ Unit) : World τ Unit :=
  {w with
    nextId := w.nextId + 1
    breakpoints := w.breakpoints ++ [newEntry w.nextId point]
    armed := arm point w.armed
    trace := w.trace ++ [.sent (.packet (pointCommand true point)) true]}

/-- A breakpoint has been added, the target has run to a halt, and the breakpoint has been removed. -/
def ranTo (addr : ℕ) (w : World τ Unit) : World τ Unit :=
  {w with
    state := .connectedPaused
    nextId := w.nextId + 1
    running := false
    armed := disarm (breakPoint addr) w.armed
    trace := w.trace ++ [.sent (.packet (pointCommand true (breakPoint addr))) true, .sent (.packet .resume) true,
      .sent (.packet (pointCommand false (breakPoint addr))) true]}

/-- A paused session changes its points at once. -/
theorem wp_safeToModify_paused {M : Machine (signature τ) (Choice τ N) (World τ L)} (hM : M.step = World.step link)
    {body : Code τ α} {Q : Except PyError α → World τ L → Prop} (hpaused : w.state = .connectedPaused)
    (h : body.wp M Q w) : (safeToModify body).wp M Q w := by
  refine wp_locked hM ?_
  unfold modifyLocked
  intro c _
  rw [hM]
  change Program.wp _ (if w.state = .connectedRunning then _ else _) _ w
  rw [if_neg (by rw [hpaused]; exact SessionState.noConfusion)]
  exact h

/-- The stub accepts a change of its points. -/
theorem wp_setBreak (insert : Bool) {point : Point} (hfits : Fits point) (hw : Idle d start points s w) :
    (setBreak insert point.kind point.addr point.size : Code τ (Packet τ)).wp (d.machine link start) (fun r v =>
      (∃ reply, r = .ok reply) ∧ Idle d start (changed insert point points) s v ∧
        withoutQueries v = {withoutQueries w with
          armed := changed insert point (withoutQueries w).armed
          trace := (withoutQueries w).trace ++ [.sent (.packet (pointCommand insert point)) true]}) w := by
  unfold setBreak
  rw [Program.bind_eq, Program.wp_bind]
  refine Program.wp_mono ?_ (wp_cmd (pointCommand insert point) rfl hw.toAt)
  rintro r v ⟨⟨packet, rfl, hanswer⟩, hat, hsame⟩
  have htext : packet.text = "OK".toList := of_decide_eq_true hanswer
  have hplain : ¬startsWith "E".toList "OK".toList = true := by decide
  rw [Program.onValue_ok, htext, if_neg (by decide), if_neg hplain]
  unfold staying at hat
  rw [armedAfter_pointCommand insert hfits] at hat
  have hobeyed : withoutQueries v = {withoutQueries w with
      armed := changed insert point (withoutQueries w).armed
      trace := (withoutQueries w).trace ++ [.sent (.packet (pointCommand insert point)) true]} := by
    rw [hsame, ← armedAfter_pointCommand insert hfits]
    rfl
  have hstate : v.state = w.state := (congrArg World.state hobeyed :)
  refine ⟨⟨packet, rfl⟩, ?_, hobeyed⟩
  exact hw.moved hat (hstate.trans hw.paused) (congrArg World.watcher hobeyed :) (congrArg World.watchers hobeyed :)

/-- A point is added by a body that inserts it and its registration, while no other thread comes in. -/
theorem wp_planting {β : Type} {point : Point} {body : Code τ β} {f : β → Code τ ℕ}
    {others : World τ L → World τ L → Prop} (hplain : body.Uses (restrained true true false fun _ => True))
    (hbody : ∀ v, Idle d start points s v → body.wp (d.machine link start) (fun r u =>
      (∃ b, r = .ok b ∧ f b = registerNew point.addr point.kind point.size) ∧
        Idle d start (arm point points) s u ∧ withoutQueries u = {withoutQueries v with
          armed := arm point (withoutQueries v).armed
          trace := (withoutQueries v).trace ++ [.sent (.packet (pointCommand true point)) true]}) v)
    (hquiet : Quiet others w) (hw : Idle d start points s w)
    (hnumbered : ∀ spec ∈ w.breakpoints, spec.bpId < w.nextId) :
    ((ensureConnected : Code τ Unit).bind fun _ => (safeToModify body).bind f).wp
      (sharing (d.machine link start) others) (fun r x => r = .ok w.nextId ∧ x.2 = false ∧
        Idle d start (arm point points) s x.1 ∧ withoutQueries x.1 = planted point (withoutQueries w))
      (w, false) := by
  have hconnected : w.state.isConnected = true := by
    rw [hw.paused]
    rfl
  refine wp_alone_connected rfl hquiet hconnected ?_
  refine wp_alone hquiet hconnected
    (fun _ hI => atomic_lockedBody hI (uses_modifyLocked trivial trivial trivial hplain)) ?_
  refine wp_safeToModify_paused rfl hw.paused (Program.wp_mono (fun r v hv => ?_) (hbody w hw))
  obtain ⟨⟨b, hb, hregisters⟩, hv, hsame⟩ := hv
  refine ⟨b, hb, ?_⟩
  have hconnected' : v.state.isConnected = true := by
    rw [hv.paused]
    rfl
  have hwatchers : v.watchers = w.watchers := (congrArg World.watchers hsame :)
  have hnext : v.nextId = w.nextId := (congrArg World.nextId hsame :)
  have hlisted : v.breakpoints = w.breakpoints := (congrArg World.breakpoints hsame :)
  rw [hregisters]
  unfold registerNew
  rw [Program.bind_eq]
  refine wp_alone_access (hquiet.moved hwatchers) hconnected' ⟨rfl, rfl⟩ fun c _ => ?_
  refine wp_alone_access (hquiet.moved hwatchers) hconnected' ⟨rfl, rfl⟩ fun c' _ => ?_
  change Except.ok v.nextId = .ok w.nextId ∧ false = false ∧ Idle d start (arm point points) s
    {v with nextId := v.nextId + 1, breakpoints := register (newEntry v.nextId point) v.breakpoints} ∧
    withoutQueries {v with nextId := v.nextId + 1
                           breakpoints := register (newEntry v.nextId point) v.breakpoints} = _
  rw [hnext, hlisted, TemporaryPoints.register_newest hnumbered]
  refine ⟨rfl, rfl, hv.moved (hv.toAt.same rfl rfl rfl) hv.paused rfl rfl, ?_⟩
  exact congrArg (fun u : World τ Unit => {u with
    nextId := w.nextId + 1, breakpoints := w.breakpoints ++ [newEntry w.nextId point]}) hsame

/-- Adding a breakpoint next to quiet threads plants it. -/
theorem wp_addBreakpoint_beside {others : World τ L → World τ L → Prop} {addr : ℤ} (hfits : Fits (breakPoint addr))
    (hquiet : Quiet others w) (hw : Idle d start points s w) (hnumbered : ∀ spec ∈ w.breakpoints, spec.bpId < w.nextId) :
    (addBreakpoint addr : Code τ ℕ).wp (sharing (d.machine link start) others) (fun r x => r = .ok w.nextId ∧
      x.2 = false ∧ Idle d start (arm (breakPoint addr) points) s x.1 ∧
        withoutQueries x.1 = planted (breakPoint addr) (withoutQueries w)) (w, false) := by
  refine wp_planting (uses_setBreak trivial) (fun v hv => ?_) hquiet hw hnumbered
  refine Program.wp_mono (fun r u hu => ?_) (wp_setBreak true hfits hv)
  obtain ⟨⟨reply, rfl⟩, hu, hsame⟩ := hu
  exact ⟨⟨reply, rfl, rfl⟩, hu, hsame⟩

/-- So does adding a watchpoint. -/
theorem wp_addWatchpoint_beside {others : World τ L → World τ L → Prop} {addr size : ℤ} {on : String} {kind : BpKind}
    (hkind : watchKind on = .ok kind) (hfits : Fits ⟨kind, addr, size⟩) (hquiet : Quiet others w)
    (hw : Idle d start points s w) (hnumbered : ∀ spec ∈ w.breakpoints, spec.bpId < w.nextId) :
    (addWatchpoint addr size on : Code τ ℕ).wp (sharing (d.machine link start) others) (fun r x => r = .ok w.nextId ∧
      x.2 = false ∧ Idle d start (arm ⟨kind, addr, size⟩ points) s x.1 ∧
        withoutQueries x.1 = planted ⟨kind, addr, size⟩ (withoutQueries w)) (w, false) := by
  have hplain : (insertWatchpoint addr size on : Code τ BpKind).Uses (restrained true true false fun _ => True) :=
    Program.uses_bind (Program.uses_ofExcept (S := signature τ) _ _) fun kind =>
      Program.uses_bind (uses_setBreak trivial) fun _ => trivial
  refine wp_planting hplain (fun v hv => ?_) hquiet hw hnumbered
  unfold insertWatchpoint
  rw [hkind]
  change Program.wp _ (Program.bind (setBreak true kind addr size) _) _ v
  rw [Program.wp_bind]
  refine Program.wp_mono (fun r u hu => ?_) (wp_setBreak true hfits hv)
  obtain ⟨⟨reply, rfl⟩, hu, hsame⟩ := hu
  exact ⟨⟨kind, rfl, rfl⟩, hu, hsame⟩

/-- `add_breakpoint` plants it. -/
theorem wp_addBreakpoint (addr : ℕ) (hw : Idle d start points s w)
    (hnumbered : ∀ spec ∈ w.breakpoints, spec.bpId < w.nextId) :
    (addBreakpoint addr : Code τ ℕ).wp (d.machine link start) (fun r v =>
      r = .ok w.nextId ∧ Idle d start (arm (breakPoint addr) points) s v ∧
        withoutQueries v = planted (breakPoint addr) (withoutQueries w)) w := by
  have hquiet : Quiet (fun u v => v = u) w := fun u v _ _ hothers => hothers
  exact wp_of_shared (Program.wp_mono (fun r x hx => ⟨hx.1, hx.2.2⟩)
    (wp_addBreakpoint_beside (fits_breakPoint addr) hquiet hw hnumbered))

/-- The newest entry is found under its id. -/
theorem lookup_newest {bpId : ℕ} {before : List BreakpointSpec} (holder : ∀ spec ∈ before, spec.bpId < bpId)
    {spec : BreakpointSpec} (hspec : spec.bpId = bpId) : lookup bpId (before ++ [spec]) = some spec := by
  have hnone : before.find? (fun spec => decide (spec.bpId = bpId)) = none := by
    refine List.find?_eq_none.mpr fun old hold => ?_
    have hlt := holder old hold
    simp only [decide_eq_true_eq]
    omega
  unfold lookup
  rw [List.find?_append, hnone]
  simp [hspec]

/-- The point that is deleted for an entry: breakpoints always cover four bytes. -/
def cleared (spec : BreakpointSpec) : Point :=
  ⟨spec.kind, spec.addr, if BpKind.isBreakpoint spec.kind then 4 else spec.size⟩

/-- A deletion sends the packet of the entry's point. -/
theorem deletePoint_eq (spec : BreakpointSpec) :
    (deletePoint spec : Code τ (Packet τ)) = setBreak false (cleared spec).kind (cleared spec).addr (cleared spec).size := by
  unfold deletePoint cleared
  cases spec.kind <;> rfl

/-- A registered point is removed. -/
theorem wp_removing {bpId : ℕ} {spec : BreakpointSpec} (hw : Idle d start points s w)
    (hfound : lookup bpId w.breakpoints = some spec) (hfits : Fits (cleared spec)) :
    (remove bpId : Code τ Bool).wp (d.machine link start) (fun r v =>
      r = .ok true ∧ Idle d start (disarm (cleared spec) points) s v ∧
        withoutQueries v = {withoutQueries w with
          breakpoints := unregister bpId w.breakpoints
          armed := disarm (cleared spec) w.armed
          trace := (withoutQueries w).trace ++ [.sent (.packet (pointCommand false (cleared spec))) true]}) w := by
  unfold remove
  rw [Program.bind_eq]
  refine observes_ensureConnected.wp_bind hw fun v₁ hv₁ hsame₁ => ?_
  have hlisted₁ : v₁.breakpoints = w.breakpoints := (congrArg World.breakpoints hsame₁ :)
  rw [Program.bind_eq, Program.wp_bind, wp_access]
  intro c _
  change Program.onValue _ _ _ (.ok (lookup bpId v₁.breakpoints))
    {v₁ with breakpoints := unregister bpId v₁.breakpoints}
  rw [Program.onValue_ok, hlisted₁, hfound]
  have hv₂ : Idle d start points s {v₁ with breakpoints := unregister bpId w.breakpoints} :=
    hv₁.moved (hv₁.toAt.same rfl rfl rfl) hv₁.paused rfl rfl
  have hsame₂ : withoutQueries {v₁ with breakpoints := unregister bpId w.breakpoints} =
      {withoutQueries w with breakpoints := unregister bpId w.breakpoints} :=
    congrArg (fun u : World τ Unit => {u with breakpoints := unregister bpId w.breakpoints}) hsame₁
  dsimp only
  unfold deleteFromStub
  rw [deletePoint_eq, Program.bind_eq, Program.wp_bind, Program.wp_handle, Program.bind_eq, Program.wp_bind]
  refine Program.wp_mono ?_ (wp_safeToModify_paused rfl hv₂.paused (wp_setBreak false hfits hv₂))
  rintro r v ⟨⟨reply, rfl⟩, hv, hsame⟩
  rw [Program.onValue_ok]
  refine ⟨rfl, hv, ?_⟩
  rw [hsame, hsame₂]
  rfl

/-- The newest breakpoint is removed. -/
theorem wp_remove {bpId addr : ℕ} {before : List BreakpointSpec} (hw : Idle d start points s w)
    (hlisted : w.breakpoints = before ++ [newEntry bpId (breakPoint addr)])
    (holder : ∀ spec ∈ before, spec.bpId < bpId) :
    (remove bpId : Code τ Bool).wp (d.machine link start) (fun r v =>
      r = .ok true ∧ Idle d start (disarm (breakPoint addr) points) s v ∧
        withoutQueries v = {withoutQueries w with
          breakpoints := before
          armed := disarm (breakPoint addr) w.armed
          trace := (withoutQueries w).trace ++ [.sent (.packet (pointCommand false (breakPoint addr))) true]}) w := by
  have hfound : lookup bpId w.breakpoints = some (newEntry bpId (breakPoint addr)) := by
    rw [hlisted]
    exact lookup_newest holder rfl
  have hremoved : (remove bpId : Code τ Bool).wp (d.machine link start) _ w :=
    wp_removing hw hfound (fits_breakPoint addr)
  rw [hlisted, TemporaryPoints.unregister_newest holder rfl] at hremoved
  exact hremoved

/-- The outcome of a run: it is lost, or good for the state in which the target has halted. -/
def Ends (d : Debuggee σ) (start : Stage σ) (points : List Point) (lost : Except PyError α → Prop)
    (good : Except PyError α → σ → Prop) (after : World τ Unit) (r : Except PyError α) (v : World τ L) : Prop :=
  lost r ∨ ∃ s', good r s' ∧ Idle d start points s' v ∧ withoutQueries v = after

/-- What a body that runs the target does around a temporary breakpoint. -/
theorem wp_withTemporary {addr : ℕ} {body : Code τ α} {lost : Except PyError α → Prop}
    {good : Except PyError α → σ → Prop} (hw : Idle d start points s w)
    (hnumbered : ∀ spec ∈ w.breakpoints, spec.bpId < w.nextId)
    (hbody : ∀ v, Idle d start (arm (breakPoint addr) points) s v →
      body.wp (d.machine link start)
        (Ends d start (arm (breakPoint addr) points) lost good (ran (withoutQueries v))) v) :
    (withTemporary addr body).wp (d.machine link start)
      (Ends d start (disarm (breakPoint addr) points) lost good (ranTo addr (withoutQueries w))) w := by
  unfold withTemporary
  rw [Program.bind_eq, Program.wp_bind]
  refine Program.wp_mono ?_ (wp_addBreakpoint addr hw hnumbered)
  rintro r₁ v₁ ⟨rfl, hv₁, hsame₁⟩
  rw [Program.onValue_ok, Program.wp_ensuring]
  refine Program.wp_mono ?_ (hbody v₁ hv₁)
  rintro r₂ v₂ (hlost | ⟨s', hgood, hv₂, hsame₂⟩)
  · rw [Program.wp_handle, Program.bind_eq, Program.wp_bind]
    refine Program.wp_mono ?_ (Program.wp_true _ _)
    intro r₃ v₃ _
    cases r₃ with
    | ok u => exact Or.inl hlost
    | error e => exact Or.inl hlost
  · rw [hsame₁] at hsame₂
    have hlisted : v₂.breakpoints = w.breakpoints ++ [newEntry w.nextId (breakPoint addr)] :=
      (congrArg World.breakpoints hsame₂ :)
    have harmed : v₂.armed = arm (breakPoint addr) w.armed := (congrArg World.armed hsame₂ :)
    rw [Program.wp_handle, Program.bind_eq, Program.wp_bind]
    refine Program.wp_mono ?_ (wp_remove hv₂ hlisted hnumbered)
    rintro r₃ v₃ ⟨rfl, hv₃, hsame₃⟩
    rw [disarm_arm] at hv₃
    rw [hsame₂, harmed, disarm_arm] at hsame₃
    refine Or.inr ⟨s', hgood, hv₃, hsame₃.trans ?_⟩
    simp only [ran, planted, ranTo, List.append_assoc, List.cons_append, List.nil_append]
    rfl

end Temporaries

section Tools

variable {σ τ N L : Type} {d : Debuggee σ} {link : Link τ N L} {start : Stage σ} {points : List Point}
  {s : σ} {w v : World τ L} {host : Host}

/-- What `run_until` reports of a halt. -/
def hitReport (d : Debuggee σ) (addr : ℕ) (raw : Packet τ) (s' : σ) : RunReport τ :=
  .hit raw (d.pc s').toNat (parseStopReply (d.stopReply s')).sp (decide ((d.pc s').toNat = addr))

/-- What the step tools report of a halt. -/
def haltReport (host : Host) (d : Debuggee σ) (raw : Packet τ) (s' : σ) : StepReport τ :=
  ⟨raw, (d.pc s').toNat, (parseStopReply (d.stopReply s')).sp, currentInstruction host (d.frozen s') ()⟩

/-- The wait of `run_until`: a timeout is a result. -/
theorem wp_awaitTarget (timeout : ℕ) (hw : Idle d start points s w) (hv : Released d start points s w v) :
    (locked (awaitTarget timeout) : Code τ (Option (Packet τ))).wp (d.machine link start) (fun r u =>
      r = .ok none ∨ ∃ raw s', d.HaltsFirst points s s' ∧ raw.text = d.stopReply s' ∧ r = .ok (some raw) ∧
        Idle d start points s' u ∧ withoutQueries u = ran (withoutQueries w)) v := by
  refine wp_locked rfl ?_
  unfold awaitTarget
  rw [Program.bind_eq, Program.wp_bind, Program.wp_attempt]
  refine Program.wp_mono ?_ (wp_waitForStop (some timeout) hv.toAt)
  rintro r u (⟨e, htimeout, rfl, -, -⟩ | ⟨raw, s', hrun, htext, rfl, hu, hstopped⟩)
  · rw [Program.onValue_ok]
    dsimp only
    rw [if_pos htimeout]
    exact Or.inl rfl
  · obtain ⟨hpaused, hran⟩ := paused_of_stop hw hv hu hstopped
    rw [Program.onValue_ok]
    exact fun c _ => Or.inr ⟨raw, s', (d.run_iff points s s').mp hrun, htext, rfl, hpaused, hran⟩

/-- Running within a time limit reports the first halt, or that there was none. -/
theorem wp_runUntilBody (addr timeout : ℕ) (hw : Idle d start points s w) :
    (runUntilBody addr timeout : Code τ (RunReport τ)).wp (d.machine link start)
      (Ends d start points (· = .ok .timedOut)
        (fun r s' => ∃ raw, d.HaltsFirst points s s' ∧ raw.text = d.stopReply s' ∧ r = .ok (hitReport d addr raw s'))
        (ran (withoutQueries w))) w := by
  unfold runUntilBody
  rw [Program.bind_eq, Program.bind_eq, Program.wp_bind]
  refine Program.wp_mono ?_ (wp_resume hw)
  rintro r₁ v₁ ⟨rfl, hv₁⟩
  rw [Program.onValue_ok, Program.wp_bind]
  refine Program.wp_mono ?_ (wp_awaitTarget timeout hw hv₁)
  rintro r₂ v₂ (rfl | ⟨raw, s', hhalts, htext, rfl, hv₂, hran⟩)
  · exact Or.inl rfl
  · rw [Program.onValue_ok]
    refine (observes_pcOf htext).wp_bind hv₂ fun v₃ hv₃ hsame₃ => ?_
    refine Or.inr ⟨s', ⟨raw, hhalts, htext, ?_⟩, hv₃, hsame₃.trans hran⟩
    unfold hitReport
    rw [← htext]
    simp only [Int.natCast_inj]

/-- Running to a stop reports the first halt, or times out. -/
theorem wp_runToStop (timeout : ℕ) (hw : Idle d start points s w) :
    (runToStop host timeout : Code τ (StepReport τ)).wp (d.machine link start)
      (Ends d start points (fun r => ∃ e, isTimeout e = true ∧ r = .error e)
        (fun r s' => ∃ raw, d.HaltsFirst points s s' ∧ raw.text = d.stopReply s' ∧ r = .ok (haltReport host d raw s'))
        (ran (withoutQueries w))) w := by
  unfold runToStop
  rw [Program.bind_eq, Program.bind_eq, Program.wp_bind]
  refine Program.wp_mono ?_ (wp_resume hw)
  rintro r₁ v₁ ⟨rfl, hv₁⟩
  rw [Program.onValue_ok, Program.wp_bind]
  refine Program.wp_mono ?_ (wp_awaitStop timeout hw hv₁)
  rintro r₂ v₂ (⟨e, htimeout, rfl⟩ | ⟨raw, s', hrun, htext, rfl, hv₂, hran⟩)
  · exact Or.inl ⟨e, htimeout, rfl⟩
  · rw [Program.onValue_ok]
    refine Program.wp_mono ?_ (observes_stepReport htext v₂ hv₂)
    rintro r₃ v₃ ⟨rfl, hv₃, hsame₃⟩
    exact Or.inr ⟨s', ⟨raw, (d.run_iff points s s').mp hrun, htext, rfl⟩, hv₃, hsame₃.trans hran⟩

/-- `run_until` does so with its breakpoint planted, and clears it. -/
theorem wp_runUntil (addr timeout : ℕ) (hw : Idle d start points s w)
    (hnumbered : ∀ spec ∈ w.breakpoints, spec.bpId < w.nextId) :
    (runUntil addr timeout).wp (d.machine link start) (Ends d start (disarm (breakPoint addr) points)
      (· = .ok .timedOut) (fun r s' => ∃ raw, d.HaltsFirst (arm (breakPoint addr) points) s s' ∧
        raw.text = d.stopReply s' ∧ r = .ok (hitReport d addr raw s')) (ranTo addr (withoutQueries w))) w := by
  unfold runUntil
  rw [Program.bind_eq, Program.bind_eq]
  refine observes_ensureConnected.wp_bind hw fun v₁ hv₁ hsame₁ => ?_
  refine (observes_refuseIfWatcherRunning "run_until").wp_bind hv₁ fun v₂ hv₂ hsame₂ => ?_
  have hsame := hsame₂.trans hsame₁
  have hlisted : v₂.breakpoints = w.breakpoints := (congrArg World.breakpoints hsame :)
  have hnext : v₂.nextId = w.nextId := (congrArg World.nextId hsame :)
  rw [← hlisted, ← hnext] at hnumbered
  rw [← hsame]
  exact wp_withTemporary hv₂ hnumbered fun v hv => wp_runUntilBody addr timeout hv

/-- Next to a target that runs to its breakpoints, `run_until` times out, or reports the first
state in which its own breakpoint or another armed point fires; it says that the target address is
reached exactly when the target is there, and leaves nothing of its breakpoint behind. -/
theorem runUntil_reports_first_halt {addr timeout : ℕ} (hw : Idle d start points s w)
    (hnumbered : ∀ spec ∈ w.breakpoints, spec.bpId < w.nextId) {r : Except PyError (RunReport τ)}
    (hreach : (runUntil addr timeout).Reaches (d.machine link start) w r v) :
    r = .ok .timedOut ∨ ∃ raw s', d.HaltsFirst (arm (breakPoint addr) points) s s' ∧
      raw.text = d.stopReply s' ∧ r = .ok (hitReport d addr raw s') ∧
      Idle d start (disarm (breakPoint addr) points) s' v ∧
      withoutQueries v = ranTo addr (withoutQueries w) := by
  rcases Program.reaches_of_wp (wp_runUntil addr timeout hw hnumbered) hreach with
    hlost | ⟨s', ⟨raw, hhalts, htext, hr⟩, hidle, hafter⟩
  · exact Or.inl hlost
  · exact Or.inr ⟨raw, s', hhalts, htext, hr, hidle, hafter⟩

/-- The step tools that run the target to a temporary breakpoint. -/
inductive Runner where
  | outward
  | past
  deriving DecidableEq, Repr

/-- Their code. -/
def Runner.code (host : Host) : Runner → Code τ (StepReport τ)
  | .outward => stepOut host
  | .past => stepOver host

/-- Where the temporary breakpoint is set: at the return address of the routine, or behind a call. -/
def Runner.landing (host : Host) (d : Debuggee σ) (s : σ) : Runner → Option ℕ
  | .outward => d.value s LR
  | .past => (currentInstruction host (d.frozen s) ()).bind fun insn =>
      if isBl insn then some ((d.pc s).toNat + 4) else none

/-- How long they wait, in milliseconds. -/
def Runner.patience : Runner → ℕ
  | .outward => 30000
  | .past => 10000

/-- They run to a temporary breakpoint at their landing place. -/
theorem wp_landing {runner : Runner} {addr : ℕ} {Q : Except PyError (StepReport τ) → World τ L → Prop}
    (hlanding : runner.landing host d s = some addr) (hw : Idle d start points s w)
    (h : ∀ v, Idle d start points s v → withoutQueries v = withoutQueries w →
      (withTemporary addr (runToStop host runner.patience)).wp (d.machine link start) Q v) :
    (runner.code host).wp (d.machine link start) Q w := by
  cases runner with
  | outward =>
    have hread : Observes (d.machine link start) (Idle d start points s) (getRegister "get_lr" 0x43 "LR" : Code τ ℕ)
      (· = reported "LR" (d.value s 0x43)) := observes_getRegister "get_lr" 0x43 "LR"
    rw [show d.value s 0x43 = some addr from hlanding] at hread
    unfold Runner.code stepOut
    rw [Program.bind_eq, Program.bind_eq, Program.bind_eq]
    refine observes_ensureConnected.wp_bind hw fun v₁ hv₁ hsame₁ => ?_
    refine (observes_refuseIfWatcherRunning "step_out").wp_bind hv₁ fun v₂ hv₂ hsame₂ => ?_
    refine Observes.wp_bind (a := addr) hread hv₂ fun v₃ hv₃ hsame₃ => ?_
    exact h v₃ hv₃ (hsame₃.trans (hsame₂.trans hsame₁))
  | past =>
    unfold Runner.landing at hlanding
    dsimp only at hlanding
    cases hfound : currentInstruction host (d.frozen s) () with
    | none =>
      rw [hfound] at hlanding
      cases hlanding
    | some insn =>
      rw [hfound, Option.bind_some] at hlanding
      split_ifs at hlanding with hcall
      have haddr : (addr : ℤ) = (d.pc s).toNat + 4 := by
        rw [← Option.some.inj hlanding]
        rfl
      unfold Runner.code stepOver
      rw [Program.bind_eq, Program.bind_eq, Program.bind_eq]
      refine observes_ensureConnected.wp_bind hw fun v₁ hv₁ hsame₁ => ?_
      refine (observes_refuseIfWatcherRunning "step_over").wp_bind hv₁ fun v₂ hv₂ hsame₂ => ?_
      refine observes_getPc.wp_bind hv₂ fun v₃ hv₃ hsame₃ => ?_
      rw [Program.bind_eq]
      refine (observes_disasmOneAt _).wp_bind hv₃ fun v₄ hv₄ hsame₄ => ?_
      rw [show instructionAt host (d.frozen s) () (d.pc s).toNat = some insn from hfound]
      dsimp only
      rw [if_pos hcall, ← haddr]
      exact h v₄ hv₄ (hsame₄.trans (hsame₃.trans (hsame₂.trans hsame₁)))

/-- So do the step tools. -/
theorem wp_runner {runner : Runner} {addr : ℕ} (hlanding : runner.landing host d s = some addr)
    (hw : Idle d start points s w) (hnumbered : ∀ spec ∈ w.breakpoints, spec.bpId < w.nextId) :
    (runner.code host).wp (d.machine link start) (Ends d start (disarm (breakPoint addr) points)
      (fun r => ∃ e, isTimeout e = true ∧ r = .error e)
      (fun r s' => ∃ raw, d.HaltsFirst (arm (breakPoint addr) points) s s' ∧ raw.text = d.stopReply s' ∧
        r = .ok (haltReport host d raw s')) (ranTo addr (withoutQueries w))) w := by
  refine wp_landing hlanding hw fun v hv hsame => ?_
  have hlisted : v.breakpoints = w.breakpoints := (congrArg World.breakpoints hsame :)
  have hnext : v.nextId = w.nextId := (congrArg World.nextId hsame :)
  rw [← hlisted, ← hnext] at hnumbered
  rw [← hsame]
  exact wp_withTemporary hv hnumbered fun u hu => wp_runToStop _ hu

/-- Next to a target that runs to its breakpoints, `step_out`, and `step_over` on a call, raise a
timeout, or report the first state in which their own breakpoint, at the return address or behind
the call, or another armed point fires, and leave nothing of the breakpoint behind. -/
theorem runners_report_first_halt {runner : Runner} {addr : ℕ} (hlanding : runner.landing host d s = some addr)
    (hw : Idle d start points s w) (hnumbered : ∀ spec ∈ w.breakpoints, spec.bpId < w.nextId)
    {r : Except PyError (StepReport τ)} (hreach : (runner.code host).Reaches (d.machine link start) w r v) :
    (∃ e, isTimeout e = true ∧ r = .error e) ∨ ∃ raw s',
      d.HaltsFirst (arm (breakPoint addr) points) s s' ∧ raw.text = d.stopReply s' ∧
      r = .ok (haltReport host d raw s') ∧ Idle d start (disarm (breakPoint addr) points) s' v ∧
      withoutQueries v = ranTo addr (withoutQueries w) := by
  rcases Program.reaches_of_wp (wp_runner hlanding hw hnumbered) hreach with
    hlost | ⟨s', ⟨raw, hhalts, htext, hr⟩, hidle, hafter⟩
  · exact Or.inl hlost
  · exact Or.inr ⟨raw, s', hhalts, htext, hr, hidle, hafter⟩

end Tools

section Samples

/-- It is halted, and nothing is armed. -/
def spinningStart : Stage Bool := ⟨[], .halted false⟩

/-- The stub accepts a change of its points. -/
def accepting : List (Choice Origin TokenNet) := replying okBody

/-- The tag of the stop. -/
def landed : Origin := .stop 0 (.hit (breakPoint 0x80003104))

/-- The target runs and halts at once. -/
def haltingOnce : List (Choice Origin TokenNet) :=
  [{net := default, response := [.ack (.reply 0)]}, {net := default},
    {net := default, acts := [⟨.frame stopBody landed, true⟩]}]

/-- The sample session is idle. -/
theorem idle_spinning : Idle spinningTarget spinningStart [] false pausedWorld :=
  ⟨⟨rfl, rfl, rfl⟩, rfl, rfl⟩

/-- The sample target reaches the address at once. -/
theorem runUntil_reports_first_halt_spinning : ∃ v, (runUntil (0x80003104 : ℕ) 1000).Reaches
      (spinningTarget.machine (tokenLink Origin) spinningStart) pausedWorld
      (.ok (.hit ⟨"T05".toList, landed⟩ 0x80003104 none true)) v ∧
    withoutQueries v = ranTo 0x80003104 (withoutQueries pausedWorld) := by
  have hfollows : (runUntil (0x80003104 : ℕ) 1000).Follows
      (spinningTarget.machine (tokenLink Origin) spinningStart)
      (accepting ++ haltingOnce ++ replying (hexBody (bigEndian 0x80003104)) ++ accepting) pausedWorld := by
    decide +kernel
  have hreach := Program.reaches_along hfollows
    (r := .ok (.hit ⟨"T05".toList, landed⟩ 0x80003104 none true)) (by decide +kernel)
  refine ⟨_, hreach, ?_⟩
  rcases runUntil_reports_first_halt idle_spinning (fun spec hspec => absurd hspec List.not_mem_nil) hreach with
    hlost | ⟨raw, s', -, -, -, -, hafter⟩
  · cases hlost
  · exact hafter

/-- It returns to the caller at once. -/
theorem runners_report_first_halt_spinning : ∃ v, (Runner.outward.code plainHost).Reaches
      (spinningTarget.machine (tokenLink Origin) spinningStart) pausedWorld
      (.ok ⟨⟨"T05".toList, landed⟩, 0x80003104, none, none⟩) v ∧
    withoutQueries v = ranTo 0x80003104 (withoutQueries pausedWorld) := by
  have hfollows : (Runner.outward.code plainHost).Follows (spinningTarget.machine (tokenLink Origin) spinningStart)
      (replying (hexBody (bigEndian 0x80003104)) ++ accepting ++ haltingOnce ++
        replying (hexBody (bigEndian 0x80003104)) ++ replying (hexBody [0, 0, 0, 0]) ++ accepting) pausedWorld := by
    decide +kernel
  have hreach := Program.reaches_along hfollows
    (r := .ok ⟨⟨"T05".toList, landed⟩, 0x80003104, none, none⟩) (by decide +kernel)
  have hlanding : Runner.outward.landing plainHost spinningTarget false = some 0x80003104 := by decide +kernel
  refine ⟨_, hreach, ?_⟩
  rcases runners_report_first_halt hlanding idle_spinning (fun spec hspec => absurd hspec List.not_mem_nil) hreach with
    ⟨e, -, hlost⟩ | ⟨raw, s', -, -, -, -, hafter⟩
  · cases hlost
  · exact hafter

end Samples

end DolphinRe.RunToStop
