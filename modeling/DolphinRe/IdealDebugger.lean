import DolphinRe.StateReports

/-!
# A debugger as its client sees it

A target is halted in a state or runs on from one, some points are armed, and
the client asks for looks, changes and runs. This is what each request answers
and what it leaves behind, with nothing of packets, threads or locks. A request
that disturbs a target that runs, or ends a run too early, loses track of it.
-/

namespace DolphinRe.IdealDebugger

open PythonText GdbPackets GdbWire GdbTokens StopReplies EffectProgram SessionMachine GdbClient SessionTools
  BreakpointTools ExecutionTools SteppedTarget StepFallbacks FirstVisits RunningTarget RunToStop CapturedHits
  StateReports

section Requests

/-- What a client may ask for. -/
inductive Request where
  | isPaused
  | pause
  | getPc
  | getLr
  | getCtr
  | getGprs
  | getSprs
  | getFprs
  | getStack (depth : ℤ)
  | read (addr size : ℤ)
  | step
  | stepOver
  | stepOut
  | runUntil (addr timeout : ℕ)
  | resume
  | waitForHit (timeout : ℕ)
  | addBreakpoint (addr : ℤ)
  | addWatchpoint (addr size : ℤ) (on : String)
  | remove (bpId : ℕ)

/-- The type of an answer. -/
def Request.Answer (τ : Type) : Request → Type
  | .isPaused => Bool
  | .pause => PauseReport τ
  | .getPc => ℕ
  | .getLr => ℕ
  | .getCtr => ℕ
  | .getGprs => List ℕ
  | .getSprs => List (String × ℕ)
  | .getFprs => List (ℕ × List UInt8)
  | .getStack _ => List (ℕ × ℕ)
  | .read _ _ => List UInt8
  | .step => StepReport τ
  | .stepOver => StepReport τ
  | .stepOut => StepReport τ
  | .runUntil _ _ => RunReport τ
  | .resume => Unit
  | .waitForHit _ => Hit τ
  | .addBreakpoint _ => ℕ
  | .addWatchpoint _ _ _ => ℕ
  | .remove _ => Bool

/-- The tool that serves a request. -/
def Request.code {τ : Type} (host : Host) : (request : Request) → Code τ (request.Answer τ)
  | .isPaused => ExecutionTools.isPaused
  | .pause => ExecutionTools.pause
  | .getPc => ExecutionTools.getPc
  | .getLr => ExecutionTools.getLr
  | .getCtr => ExecutionTools.getCtr
  | .getGprs => ExecutionTools.getGprs
  | .getSprs => ExecutionTools.getSprs
  | .getFprs => ExecutionTools.getFprs
  | .getStack depth => ExecutionTools.getStack depth
  | .read addr size => readMemory addr size
  | .step => ExecutionTools.step host
  | .stepOver => ExecutionTools.stepOver host
  | .stepOut => ExecutionTools.stepOut host
  | .runUntil addr timeout => ExecutionTools.runUntil addr timeout
  | .resume => ExecutionTools.resume
  | .waitForHit timeout => BreakpointTools.waitForHit timeout
  | .addBreakpoint addr => BreakpointTools.addBreakpoint addr
  | .addWatchpoint addr size on => BreakpointTools.addWatchpoint addr size on
  | .remove bpId => BreakpointTools.remove bpId

/-- A request and its outcome. -/
structure Exchange (τ : Type) where
  /-- What the client asks for. -/
  request : Request
  /-- The answer, or the error that is raised. -/
  result : Except PyError (request.Answer τ)

/-- The stop that a client is told of. -/
def stopTold {τ : Type} : (request : Request) → Except PyError (request.Answer τ) → List Str
  | .step, .ok (report : StepReport τ) => [report.raw.text]
  | .stepOver, .ok (report : StepReport τ) => [report.raw.text]
  | .stepOut, .ok (report : StepReport τ) => [report.raw.text]
  | .runUntil _ _, .ok (.hit raw _ _ _ : RunReport τ) => [raw.text]
  | .waitForHit _, .ok (hit : Hit τ) => [hit.raw.text]
  | _, _ => []

/-- The stops that a client is told of by one request after the other. -/
def stopsTold {τ : Type} (exchanges : List (Exchange τ)) : List Str :=
  exchanges.flatMap fun exchange => stopTold exchange.request exchange.result

end Requests

section Benches

variable {σ τ : Type}

/-- What is known of the target. -/
inductive Situation (σ : Type) where
  | halted (s : σ)
  /-- It runs on from a state. -/
  | running (s : σ)
  | lost

/-- The last state in which the target is known to have been. -/
def Situation.place : Situation σ → Option σ
  | .halted s => some s
  | .running s => some s
  | .lost => none

/-- A target with the points armed in it, and the client's list of points. -/
structure Bench (σ : Type) where
  /-- What the debugger knows of the target. -/
  situation : Situation σ
  /-- The points armed in the target. -/
  points : List Point
  /-- The client's list of points. -/
  registry : List BreakpointSpec
  /-- The id that is handed out next. -/
  nextId : ℕ

namespace Bench

variable (bench : Bench σ)

/-- The target is elsewhere. -/
def moved (situation : Situation σ) : Bench σ := {bench with situation := situation}

/-- A point has been added. -/
def plant (point : Point) : Bench σ :=
  {bench with
    points := arm point bench.points
    registry := bench.registry ++ [newEntry bench.nextId point]
    nextId := bench.nextId + 1}

/-- An entry has been removed. -/
def clear (spec : BreakpointSpec) : Bench σ :=
  {bench with
    points := disarm (cleared spec) bench.points
    registry := unregister spec.bpId bench.registry}

/-- The target has run to a halt with a temporary breakpoint. -/
def ranTo (addr : ℕ) (s : σ) : Bench σ :=
  {bench with
    situation := .halted s
    points := disarm (breakPoint addr) bench.points
    nextId := bench.nextId + 1}

end Bench

variable (host : Host) (d : Debuggee σ)

/-- One instruction is executed. -/
def Steps (bench : Bench σ) (s : σ) (r : Except PyError (StepReport τ)) (after : Bench σ) : Prop :=
  ∃ raw, raw.text = d.stopReply (d.exec s) ∧ r = .ok (haltReport host d raw (d.exec s)) ∧
    after = bench.moved (.halted (d.exec s))

/-- The target runs to the first halt with a temporary breakpoint, or is lost on the way. -/
def RunsTo {α : Type} (bench : Bench σ) (s : σ) (addr : ℕ) (missed : Except PyError α → Prop)
    (report : Packet τ → σ → α) (r : Except PyError α) (after : Bench σ) : Prop :=
  (missed r ∧ after = bench.moved .lost) ∨
    ∃ raw s', d.HaltsFirst (arm (breakPoint addr) bench.points) s s' ∧ raw.text = d.stopReply s' ∧
      r = .ok (report raw s') ∧ after = bench.ranTo addr s'

/-- A point is added where its packet says what it is meant to. -/
def Plants (bench : Bench σ) (point : Point) (r : Except PyError ℕ) (after : Bench σ) : Prop :=
  (Fits point ∧ r = .ok bench.nextId ∧ after = bench.plant point) ∨ (¬Fits point ∧ after = bench.moved .lost)

/-- What a request to a halted target answers and leaves behind. -/
def AtHalt (bench : Bench σ) (s : σ) : (request : Request) → Except PyError (request.Answer τ) → Bench σ → Prop
  | .isPaused, r, after => r = .ok true ∧ after = bench
  | .pause, r, after => r = .ok (.alreadyPaused (d.pc s).toNat) ∧ after = bench
  | .getPc, r, after => r = .ok (d.pc s).toNat ∧ after = bench
  | .getLr, r, after => r = reported "LR" (d.value s LR) ∧ after = bench
  | .getCtr, r, after => r = reported "CTR" (d.value s 0x44) ∧ after = bench
  | .getGprs, r, after => r = .ok (generals d s) ∧ after = bench
  | .getSprs, r, after => r = .ok (specials d s sprs) ∧ after = bench
  | .getFprs, r, after => r = .ok (floats d s (List.range 32)) ∧ after = bench
  | .getStack depth, r, after => r = .ok (frames d s depth) ∧ after = bench
  | .read addr size, r, after => Yields ((d.frozen s).fetched () addr size) r ∧ after = bench
  | .step, r, after => Steps host d bench s r after
  | .stepOver, r, after =>
    match currentInstruction host (d.frozen s) () with
    | none => r = .error noInstruction ∧ after = bench
    | some insn =>
      if isBl insn then
        RunsTo d bench s ((d.pc s).toNat + 4) (fun r => ∃ e, isTimeout e = true ∧ r = .error e) (haltReport host d) r after
      else Steps host d bench s r after
  | .stepOut, r, after =>
    match d.value s LR with
    | none => r = .error (.runtimeError "stub returned no value for LR") ∧ after = bench
    | some addr => RunsTo d bench s addr (fun r => ∃ e, isTimeout e = true ∧ r = .error e) (haltReport host d) r after
  | .runUntil addr _, r, after => RunsTo d bench s addr (· = .ok .timedOut) (hitReport d addr) r after
  | .resume, r, after => r = .ok () ∧ after = bench.moved (.running s)
  | .waitForHit _, r, after =>
    r = .error (.wrongState "wait_for_hit needs CONNECTED_RUNNING; current state is connected_paused") ∧ after = bench
  | .addBreakpoint addr, r, after => Plants bench (breakPoint addr) r after
  | .addWatchpoint addr size on, r, after =>
    match watchKind on with
    | .error e => r = .error e ∧ after = bench
    | .ok kind => Plants bench ⟨kind, addr, size⟩ r after
  | .remove bpId, r, after =>
    match lookup bpId bench.registry with
    | none => r = .ok false ∧ after = bench
    | some spec =>
      (Fits (cleared spec) ∧ r = .ok true ∧ after = bench.clear spec) ∨
        (¬Fits (cleared spec) ∧ after = bench.moved .lost)

/-- What a request next to a target that runs answers and leaves behind. -/
def OnTheRun (bench : Bench σ) (s : σ) : (request : Request) → Except PyError (request.Answer τ) → Bench σ → Prop
  | .isPaused, r, after => r = .ok false ∧ after = bench
  | .resume, r, after => r = .ok () ∧ after = bench
  | .waitForHit _, r, after =>
    (∃ e, isTimeout e = true ∧ r = .error e ∧ after = bench) ∨
      ∃ raw s', d.HaltsFirst bench.points s s' ∧ raw.text = d.stopReply s' ∧
        r = .ok ⟨raw, parseStopReply (d.stopReply s'), matchBp (parseStopReply (d.stopReply s')) bench.registry⟩ ∧
        after = bench.moved (.halted s')
  | _, _, after => after = bench.moved .lost

/-- What a request answers and leaves behind; of a target that is lost nothing is said. -/
def Performs (bench : Bench σ) (request : Request) (r : Except PyError (request.Answer τ)) (after : Bench σ) : Prop :=
  match bench.situation with
  | .halted s => AtHalt host d bench s request r after
  | .running s => OnTheRun d bench s request r after
  | .lost => after = bench

/-- One request after the other, each with the bench it leaves behind. -/
def Performed : Bench σ → List (Exchange τ × Bench σ) → Prop
  | _, [] => True
  | bench, (exchange, after) :: rest => Performs host d bench exchange.request exchange.result after ∧ Performed after rest

/-- The bench at the end. -/
def final (bench : Bench σ) (log : List (Exchange τ × Bench σ)) : Bench σ := (log.map Prod.snd).getLast?.getD bench

end Benches

section Accounts

variable {σ τ : Type} {host : Host} {d : Debuggee σ} {bench after : Bench σ} {s s' : σ} {kept : List Point}

/-- More points halt a target at least as often. -/
theorem halts_mono {points points' : List Point} (h : points ⊆ points') (x : σ) (hx : d.halts points x = true) :
    d.halts points' x = true := by
  obtain ⟨point, hpoint, hfires⟩ := List.any_eq_true.mp hx
  exact List.any_eq_true.mpr ⟨point, h hpoint, hfires⟩

theorem subset_arm (point : Point) (points : List Point) : points ⊆ arm point points := by
  unfold arm
  split_ifs
  · exact List.Subset.refl points
  · exact List.subset_append_left points [point]

/-- What a client has been told of the way from one state to another. -/
def Told (d : Debuggee σ) (kept : List Point) (s s' : σ) (texts : List Str) : Prop :=
  ∃ n told, Account d.exec (d.halts kept) n s told s' ∧ texts = told.map d.stopReply

theorem told_nothing (h : bench.situation.place = some s) (hafter : bench.situation.place = some s') :
    Told d kept s s' [] := by
  rw [h] at hafter
  rw [← Option.some.inj hafter]
  exact ⟨0, [], account_start s, rfl⟩

/-- Nothing is known of a lost target. -/
theorem place_lost {P : Prop} (hlost : after = bench.moved .lost) (hafter : after.situation.place = some s') : P := by
  rw [hlost] at hafter
  cases hafter

theorem told_steps {r : Except PyError (StepReport τ)} (h : Steps host d bench s r after)
    (hafter : after.situation.place = some s') : ∃ report, r = .ok report ∧ Told d kept s s' [report.raw.text] := by
  obtain ⟨raw, htext, hr, hbench⟩ := h
  rw [hbench] at hafter
  have hplace : d.exec s = s' := Option.some.inj hafter
  rw [← hplace]
  exact ⟨haltReport host d raw (d.exec s), hr, 1, [d.exec s], account_step s, congrArg (fun text => [text]) htext⟩

theorem told_runsTo {α : Type} {addr : ℕ} {missed : Except PyError α → Prop} {report : Packet τ → σ → α}
    {r : Except PyError α} (hkept : kept ⊆ bench.points) (h : RunsTo d bench s addr missed report r after)
    (hafter : after.situation.place = some s') :
    ∃ raw, r = .ok (report raw s') ∧ Told d kept s s' [raw.text] := by
  rcases h with hmissed | hran
  · exact place_lost hmissed.2 hafter
  · obtain ⟨raw, found, hhalts, htext, hr, hbench⟩ := hran
    rw [hbench] at hafter
    have hplace : found = s' := Option.some.inj hafter
    rw [hplace] at hhalts htext hr
    have harmed : kept ⊆ arm (breakPoint addr) bench.points := List.Subset.trans hkept (subset_arm _ _)
    obtain ⟨n, haccount⟩ := hhalts.account (halts_mono harmed)
    exact ⟨raw, hr, n, [s'], haccount, congrArg (fun text => [text]) htext⟩

theorem place_plants {point : Point} {r : Except PyError ℕ} (h : Plants bench point r after)
    (hafter : after.situation.place = some s') : bench.situation.place = some s' := by
  rcases h with hfits | hlost
  · rw [hfits.2.2] at hafter
    exact hafter
  · exact place_lost hlost.2 hafter

/-- What a client is told by a request to a halted target. -/
theorem told_atHalt {request : Request} {r : Except PyError (request.Answer τ)} (hkept : kept ⊆ bench.points)
    (hplace : bench.situation.place = some s) (h : AtHalt host d bench s request r after)
    (hafter : after.situation.place = some s') : Told d kept s s' (stopTold request r) := by
  have hstays : after = bench → Told d kept s s' [] := fun heq => told_nothing hplace (heq ▸ hafter)
  cases request with
  | step =>
    obtain ⟨report, hr, htold⟩ := told_steps h hafter
    rw [hr]
    exact htold
  | stepOver =>
    unfold AtHalt at h
    dsimp only at h
    cases hfound : currentInstruction host (d.frozen s) () with
    | none =>
      rw [hfound] at h
      rw [h.1]
      exact hstays h.2
    | some insn =>
      rw [hfound] at h
      dsimp only at h
      split_ifs at h with hcall
      · obtain ⟨raw, hr, htold⟩ := told_runsTo hkept h hafter
        rw [hr]
        exact htold
      · obtain ⟨report, hr, htold⟩ := told_steps h hafter
        rw [hr]
        exact htold
  | stepOut =>
    unfold AtHalt at h
    dsimp only at h
    cases hvalue : d.value s LR with
    | none =>
      rw [hvalue] at h
      rw [h.1]
      exact hstays h.2
    | some addr =>
      rw [hvalue] at h
      obtain ⟨raw, hr, htold⟩ := told_runsTo hkept h hafter
      rw [hr]
      exact htold
  | runUntil addr timeout =>
    have hruns : RunsTo d bench s addr (· = .ok .timedOut) (hitReport d addr) r after := h
    obtain ⟨raw, hr, htold⟩ := told_runsTo hkept hruns hafter
    rw [hr]
    exact htold
  | resume =>
    rw [h.2] at hafter
    exact told_nothing hplace (hplace.trans hafter)
  | waitForHit timeout =>
    rw [h.1]
    exact hstays h.2
  | addBreakpoint addr => exact told_nothing hplace (place_plants h hafter)
  | addWatchpoint addr size on =>
    unfold AtHalt at h
    dsimp only at h
    cases hkind : watchKind on with
    | error e =>
      rw [hkind] at h
      exact hstays h.2
    | ok kind =>
      rw [hkind] at h
      exact told_nothing hplace (place_plants h hafter)
  | remove bpId =>
    unfold AtHalt at h
    dsimp only at h
    cases hfound : lookup bpId bench.registry with
    | none =>
      rw [hfound] at h
      exact hstays h.2
    | some spec =>
      rw [hfound] at h
      rcases h with hcleared | hlost
      · rw [hcleared.2.2] at hafter
        exact told_nothing hplace hafter
      · exact place_lost hlost.2 hafter
  | _ => exact hstays h.2

/-- What a client is told by a request next to a target that runs. -/
theorem told_onTheRun {request : Request} {r : Except PyError (request.Answer τ)} (hkept : kept ⊆ bench.points)
    (hplace : bench.situation.place = some s) (h : OnTheRun d bench s request r after)
    (hafter : after.situation.place = some s') : Told d kept s s' (stopTold request r) := by
  have hstays : after = bench → Told d kept s s' [] := fun heq => told_nothing hplace (heq ▸ hafter)
  cases request with
  | isPaused => exact hstays h.2
  | resume => exact hstays h.2
  | waitForHit timeout =>
    rcases h with hlate | hhit
    · obtain ⟨e, -, hr, hbench⟩ := hlate
      rw [hr]
      exact hstays hbench
    · obtain ⟨raw, found, hhalts, htext, hr, hbench⟩ := hhit
      rw [hbench] at hafter
      have hfound : found = s' := Option.some.inj hafter
      rw [hfound] at hhalts htext
      obtain ⟨n, haccount⟩ := hhalts.account (halts_mono hkept)
      rw [hr]
      exact ⟨n, [s'], haccount, congrArg (fun text => [text]) htext⟩
  | _ => exact place_lost h hafter

theorem told_performs {request : Request} {r : Except PyError (request.Answer τ)} (hkept : kept ⊆ bench.points)
    (hplace : bench.situation.place = some s) (h : Performs host d bench request r after)
    (hafter : after.situation.place = some s') : Told d kept s s' (stopTold request r) := by
  unfold Performs at h
  cases hsituation : bench.situation with
  | halted x =>
    rw [hsituation] at h hplace
    have hx : x = s := Option.some.inj hplace
    rw [hx] at h hsituation
    exact told_atHalt hkept (by rw [hsituation]; rfl) h hafter
  | running x =>
    rw [hsituation] at h hplace
    have hx : x = s := Option.some.inj hplace
    rw [hx] at h hsituation
    exact told_onTheRun hkept (by rw [hsituation]; rfl) h hafter
  | lost =>
    rw [hsituation] at hplace
    cases hplace

theorem final_cons (entry : Exchange τ × Bench σ) (log : List (Exchange τ × Bench σ)) :
    final bench (entry :: log) = final entry.2 log := by
  unfold final
  rw [List.map_cons, List.getLast?_cons, Option.getD_some]

/-- A target that is lost stays lost. -/
theorem final_lost {log : List (Exchange τ × Bench σ)} (hlost : bench.situation.place = none)
    (h : Performed host d bench log) : (final bench log).situation.place = none := by
  induction log generalizing bench with
  | nil => exact hlost
  | cons entry log ih =>
    obtain ⟨hfirst, hrest⟩ := h
    rw [final_cons]
    refine ih ?_ hrest
    unfold Performs at hfirst
    cases hsituation : bench.situation with
    | halted x =>
      rw [hsituation] at hlost
      cases hlost
    | running x =>
      rw [hsituation] at hlost
      cases hlost
    | lost =>
      rw [hsituation] at hfirst
      have hstays : entry.2 = bench := hfirst
      rw [hstays]
      exact hlost

theorem Told.append {s'' : σ} {texts later : List Str} (h : Told d kept s s' texts) (h' : Told d kept s' s'' later) :
    Told d kept s s'' (texts ++ later) := by
  obtain ⟨m, told, haccount, htexts⟩ := h
  obtain ⟨n, told', haccount', hlater⟩ := h'
  refine ⟨m + n, told ++ told', haccount.append haccount', ?_⟩
  rw [htexts, hlater, List.map_append]

/-- As long as the target is not lost, the client is told of every state of the execution that triggers a point
that stays armed, and of no state that is not on the way. -/
theorem told_performed {log : List (Exchange τ × Bench σ)}
    (hkept : ∀ b ∈ bench :: log.map Prod.snd, kept ⊆ b.points) (hplace : bench.situation.place = some s)
    (h : Performed host d bench log) (hfinal : (final bench log).situation.place = some s') :
    Told d kept s s' (stopsTold (log.map Prod.fst)) := by
  induction log generalizing bench s with
  | nil => exact told_nothing hplace hfinal
  | cons entry log ih =>
    obtain ⟨hfirst, hrest⟩ := h
    have harmed : kept ⊆ bench.points := hkept bench List.mem_cons_self
    rw [final_cons] at hfinal
    cases hnext : entry.2.situation.place with
    | none =>
      rw [final_lost hnext hrest] at hfinal
      cases hfinal
    | some x =>
      have hlater : Told d kept x s' (stopsTold (log.map Prod.fst)) :=
        ih (fun b hb => hkept b (List.mem_cons_of_mem bench hb)) hnext hrest hfinal
      exact (told_performs harmed hplace hfirst hnext).append hlater

end Accounts

end DolphinRe.IdealDebugger
