import DolphinRe.CapturedHits
import DolphinRe.RunToStop
import DolphinRe.StackWalks

/-!
# What the tools report of a halted target

The tools that look at a halted target answer from the state that it is in and
send nothing but queries. A target that is looked at stays where it is.
-/

namespace DolphinRe.StateReports

open PythonText GdbPackets GdbWire GdbTokens StopReplies EffectProgram SessionMachine GdbClient SessionTools ExecutionTools
  MemoryWindows HostedMemory LinkRefinement SteppedTarget StackWalks RunningTarget RunToStop CapturedHits

section Registers

variable {σ τ N L : Type} {d : Debuggee σ} {link : Link τ N L} {start : Stage σ} {points : List Point} {s : σ}

/-- The named registers that are reported. -/
def specials (d : Debuggee σ) (s : σ) (regs : List (String × ℕ)) : List (String × ℕ) :=
  regs.filterMap fun reg => (d.value s reg.2).map fun value => (reg.1, value)

/-- The frames of the stack, as far as the memory of the target can be read. -/
def frames (d : Debuggee σ) (s : σ) (depth : ℤ) : List (ℕ × ℕ) :=
  framesFrom (fun sp => (d.frozen s).fetched () sp 8) depth.toNat (((generals d s)[1]?).getD 0)

/-- The session state is the one of a paused session. -/
theorem observes_getState : Observes (d.machine link start) (Idle d start points s)
    (access .getState : Code τ SessionState) (· = .ok .connectedPaused) := by
  intro w hw c _
  exact ⟨congrArg Except.ok hw.paused, hw, rfl⟩

/-- `is_paused` says so. -/
theorem observes_isPaused : Observes (d.machine link start) (Idle d start points s) (isPaused : Code τ Bool)
    (· = .ok true) :=
  observes_getState.bind_value (observes_done rfl)

/-- A pause of a paused session reads the program counter. -/
theorem observes_pause : Observes (d.machine link start) (Idle d start points s) (pause : Code τ (PauseReport τ))
    (· = .ok (.alreadyPaused (d.pc s).toNat)) := by
  refine observes_ensureConnected.bind_value ((observes_refuseIfWatcherRunning "pause").bind_value ?_)
  refine observes_getState.bind_value ?_
  rw [if_pos rfl]
  exact observes_getPc.bind_value (observes_done rfl)

/-- `get_gprs` reports the general registers. -/
theorem observes_getGprs : Observes (d.machine link start) (Idle d start points s) (getGprs : Code τ (List ℕ))
    (· = .ok (generals d s)) := by
  refine observes_ensureConnected.bind_value ((observes_refuseIfWatcherRunning "get_gprs").bind_value ?_)
  refine ((observes_readRegisters attends_idle).locked rfl).bind_value (observes_done ?_)
  have hblock : parseDolphinGprs (block ((d.frozen s).registers ())) = generals d s :=
    parseDolphinGprs_block List.length_ofFn
  rw [hblock]

/-- The special registers are read in order. -/
theorem observes_readSprs (regs out : List (String × ℕ)) :
    Observes (d.machine link start) (Idle d start points s) (readSprs regs out : Code τ (List (String × ℕ)))
      (· = .ok (out ++ specials d s regs)) := by
  induction regs generalizing out with
  | nil => exact observes_done (congrArg Except.ok (List.append_nil out).symm)
  | cons reg regs ih =>
    refine (observes_readRegister attends_idle reg.2).bind_value ?_
    unfold specials
    cases hvalue : d.value s reg.2 with
    | none =>
      rw [List.filterMap_cons_none (by rw [hvalue]; rfl)]
      exact ih out
    | some value =>
      rw [List.filterMap_cons_some (by rw [hvalue]; rfl)]
      have hrest := ih (out ++ [(reg.1, value)])
      rw [List.append_assoc, List.cons_append, List.nil_append] at hrest
      exact hrest

/-- `get_sprs` reports them by name. -/
theorem observes_getSprs : Observes (d.machine link start) (Idle d start points s)
    (getSprs : Code τ (List (String × ℕ))) (· = .ok (specials d s sprs)) := by
  refine observes_ensureConnected.bind_value ((observes_refuseIfWatcherRunning "get_sprs").bind_value ?_)
  exact (observes_readSprs sprs []).locked rfl

/-- `get_fprs` reports the floating point registers. -/
theorem observes_getFprs : Observes (d.machine link start) (Idle d start points s)
    (getFprs : Code τ (List (ℕ × List UInt8))) (· = .ok (floats d s (List.range 32))) := by
  refine observes_ensureConnected.bind_value ((observes_refuseIfWatcherRunning "get_fprs").bind_value ?_)
  exact (observes_readFprs attends_idle (List.range 32) []).locked rfl

/-- A walk over the stack follows the words in memory. -/
theorem observes_walkStack (n sp : ℕ) (out : List (ℕ × ℕ)) :
    Observes (d.machine link start) (Idle d start points s) (walkStack n sp out : Code τ (List (ℕ × ℕ)))
      (· = .ok (out ++ framesFrom (fun sp => (d.frozen s).fetched () sp 8) n sp)) := by
  induction n generalizing sp out with
  | zero =>
    rw [framesFrom, List.append_nil]
    exact observes_done rfl
  | succ n ih =>
    unfold walkStack framesFrom
    split_ifs with hzero
    · rw [List.append_nil]
      exact observes_done rfl
    · refine (observes_memRead (sp : ℤ) 8).attempt_bind fun outcome hyields => ?_
      cases outcome with
      | error e =>
        rw [yields_error.mp hyields, List.append_nil]
        exact observes_done rfl
      | ok blob =>
        rw [yields_ok.mp hyields]
        dsimp only
        split_ifs with hle
        · exact observes_done rfl
        · have hrest := ih (fromBytesBig (blob.take 4)) (out ++ [(sp, fromBytesBig ((blob.drop 4).take 4))])
          rw [List.append_assoc, List.cons_append, List.nil_append] at hrest
          exact hrest

/-- `get_stack` reports the frames. -/
theorem observes_getStack (depth : ℤ) : Observes (d.machine link start) (Idle d start points s)
    (getStack depth : Code τ (List (ℕ × ℕ))) (· = .ok (frames d s depth)) :=
  observes_ensureConnected.bind_value (observes_getGprs.bind_value (observes_walkStack _ _ []))

/-- Reads report the memory, where there is any. -/
theorem observes_readMemory (addr size : ℤ) : Observes (d.machine link start) (Idle d start points s)
    (readMemory addr size : Code τ (List UInt8)) (Yields ((d.frozen s).fetched () addr size)) :=
  observes_ensureConnected.bind_value (observes_memRead addr size)

end Registers

end DolphinRe.StateReports
