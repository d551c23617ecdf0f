import DolphinRe.SteppedTarget

/-!
# Steps over what is no call

`step_over` looks at the instruction at the program counter and steps unless it
is a call. Where no instruction is found there, because the memory cannot be
read or the word is not decoded, it looks at it all the same, and raises.
-/

namespace DolphinRe.StepFallbacks

open PythonText GdbPackets GdbWire GdbTokens StopReplies EffectProgram SessionMachine GdbClient SessionTools
  ExecutionTools StubBehaviour MemoryWindows SteppedTarget
open PpcDisassembly (DisasmInstruction)

section Reports

variable {σ τ N L : Type} {target : Target σ} {link : Link τ N L} {start s : σ} {w v : World τ L} {host : Host}

/-- The instruction at an address, if the memory can be read and the word is decoded. -/
def instructionAt (host : Host) (target : Target σ) (s : σ) (addr : ℤ) : Option DisasmInstruction :=
  match target.fetched s addr 4 with
  | some blob =>
    match host.disasmBytes addr blob with
    | .ok insns => insns.head?
    | .error _ => none
  | none => none

/-- The instruction at the program counter. -/
def currentInstruction (host : Host) (target : Target σ) (s : σ) : Option DisasmInstruction :=
  instructionAt host target s (target.pc s).toNat

theorem reads_disasmOneAt (addr : ℤ) : Reads target link start s (disasmOneAt host addr : Code τ (Option DisasmInstruction))
    (· = .ok (instructionAt host target s addr)) := by
  have hbody : Reads target link start s
      ((ensureConnected : Code τ Unit).bind fun _ => (memRead addr 4).bind fun blob =>
        (Program.ofExcept (host.disasmBytes addr blob)).bind fun insns => .done insns.head?)
      (fun r => match r with
        | .ok found => instructionAt host target s addr = found
        | .error _ => instructionAt host target s addr = none) := by
    refine reads_ensureConnected.bind_value ((reads_memRead addr 4).bind (fun blob hblob => ?_) fun e he => ?_)
    · refine (reads_ofExcept _).bind (fun insns hinsns => ?_) fun e he => ?_
      · refine reads_done ?_
        simp only [instructionAt, yields_ok.mp hblob, ← hinsns]
      · simp only [instructionAt, yields_ok.mp hblob, ← he]
    · simp only [instructionAt, yields_error.mp he]
  unfold disasmOneAt Program.handle
  refine hbody.attempt_bind fun outcome hfound => ?_
  cases outcome with
  | ok insn => exact reads_done (congrArg Except.ok hfound.symm)
  | error e => exact reads_done (congrArg Except.ok hfound.symm)

/-- A report without the tag of its packet. -/
def untag (report : StepReport τ) : StepReport Unit :=
  ⟨⟨report.raw.text, ()⟩, report.pc, report.sp, report.instruction⟩

/-- The report on the state that a step leads to. -/
def reportOn (host : Host) (target : Target σ) (s' : σ) : StepReport Unit :=
  let parsed := parseStopReply (target.stopReply s')
  let pc := parsed.pc.getD (target.pc s').toNat
  ⟨⟨target.stopReply s', ()⟩, pc, parsed.sp, instructionAt host target s' pc⟩

/-- What a step returns or raises. -/
def stepValue (host : Host) (target : Target σ) : Except StepFailure σ → Except PyError (StepReport Unit)
  | .ok s' => .ok (reportOn host target s')
  | .error failure => .error failure.error

theorem reads_stepReport {raw : Packet τ} (hraw : raw.text = target.stopReply s) :
    Reads target link start s (stepReport host raw : Code τ (StepReport τ))
      (fun r => r.map untag = .ok (reportOn host target s)) := by
  have hpc : Reads target link start s (pcOf (parseStopReply raw.text) : Code τ ℤ)
      (· = .ok ((parseStopReply (target.stopReply s)).pc.getD (target.pc s).toNat)) := by
    rw [hraw]
    unfold pcOf
    cases (parseStopReply (target.stopReply s)).pc with
    | some pc => exact reads_done rfl
    | none => exact reads_getPc.bind_value (reads_done rfl)
  refine hpc.bind_value ((reads_disasmOneAt _).bind_value (reads_done ?_))
  simp only [Except.map, untag, reportOn, hraw]

/-- A step returns what the machine comes to, and does to the session what a step does. -/
theorem wp_step (hw : target.Halted start s w) :
    (step host).wp (target.machine link start) (fun r v =>
      r.map untag = stepValue host target (target.next s) ∧
        withoutQueries v = stepped (target.next s) (withoutQueries w)) w := by
  unfold ExecutionTools.step
  rw [Program.bind_eq, Program.bind_eq, Program.bind_eq]
  refine reads_ensureConnected.wp_bind hw fun v₁ hsame₁ => ?_
  refine (reads_refuseIfWatcherRunning "step").wp_bind (hw.of_same hsame₁) fun v₂ hsame₂ => ?_
  have hsame := hsame₂.trans hsame₁
  rw [Program.wp_bind]
  refine Program.wp_mono ?_ (wp_locked rfl (wp_stepLocked (hw.of_same hsame)))
  rintro r₃ v₃ ⟨hreports, hstepped⟩
  rw [hsame] at hstepped
  cases hnext : target.next s with
  | error failure =>
    rw [hnext] at hreports hstepped
    have hfailed : r₃ = .error failure.error := hreports
    rw [hfailed]
    exact ⟨rfl, hstepped⟩
  | ok s' =>
    rw [hnext] at hreports hstepped
    obtain ⟨packet, rfl, htext⟩ := hreports
    rw [Program.onValue_ok]
    refine Program.wp_mono ?_ (reads_stepReport htext v₃ (halted_stepped hnext hw hstepped))
    exact fun r v hv => ⟨hv.1, hv.2.trans hstepped⟩

end Reports

section Fallbacks

variable {σ τ N L : Type} {target : Target σ} {link : Link τ N L} {start s : σ} {w v v' : World τ L} {host : Host}

/-- What `step_over` raises where there is no instruction. -/
def noInstruction : PyError := .attributeError "'NoneType' object has no attribute 'get'"

/-- No call with a static target is at the program counter. -/
def NoCall (host : Host) (target : Target σ) (s : σ) : Prop :=
  ∀ insn, currentInstruction host target s = some insn → isBl insn = false

/-- Over what is no call it steps, or it raises without a step. -/
theorem wp_stepOver (hcall : NoCall host target s) (hw : target.Halted start s w) :
    (stepOver host).wp (target.machine link start) (fun r v =>
      match currentInstruction host target s with
      | some _ => r.map untag = stepValue host target (target.next s) ∧
          withoutQueries v = stepped (target.next s) (withoutQueries w)
      | none => r = .error noInstruction) w := by
  unfold stepOver
  rw [Program.bind_eq, Program.bind_eq, Program.bind_eq]
  refine reads_ensureConnected.wp_bind hw fun v₁ hsame₁ => ?_
  refine (reads_refuseIfWatcherRunning "step_over").wp_bind (hw.of_same hsame₁) fun v₂ hsame₂ => ?_
  have hsame := hsame₂.trans hsame₁
  refine reads_getPc.wp_bind (hw.of_same hsame) fun v₃ hsame₃ => ?_
  have hsame := hsame₃.trans hsame
  refine (reads_disasmOneAt _).wp_bind (hw.of_same hsame) fun v₄ hsame₄ => ?_
  have hsame := hsame₄.trans hsame
  have hhere : instructionAt host target s (target.pc s).toNat = currentInstruction host target s := rfl
  rw [hhere]
  cases hfound : currentInstruction host target s with
  | none => exact rfl
  | some insn =>
    dsimp only
    rw [hcall insn hfound, if_neg Bool.false_ne_true]
    have hstep : (step host).wp (target.machine link start) (fun r v =>
        r.map untag = stepValue host target (target.next s) ∧
          withoutQueries v = stepped (target.next s) (withoutQueries v₄)) v₄ := wp_step (hw.of_same hsame)
    rw [hsame] at hstep
    exact hstep

/-- The packets of a step. -/
def stepPackets : Except StepFailure σ → List (Obs τ)
  | .error .unsent => []
  | _ => [.sent (.packet .step) true]

/-- What a step leaves alone, and what it sends. -/
theorem stepped_facts (outcome : Except StepFailure σ) (x : World τ Unit) :
    (stepped outcome x).trace = x.trace ++ stepPackets outcome ∧
      (stepped outcome x).breakpoints = x.breakpoints ∧ (stepped outcome x).armed = x.armed := by
  cases outcome with
  | ok s' =>
    have hstepped : stepped (Except.ok s' : Except StepFailure σ) x = markedPaused (sentStep x) := rfl
    rw [hstepped]
    unfold markedPaused
    split_ifs <;> exact ⟨rfl, rfl, rfl⟩
  | error failure =>
    cases failure with
    | unsent => exact ⟨(List.append_nil _).symm, rfl, rfl⟩
    | unanswered ending => exact ⟨rfl, rfl, rfl⟩

/-- One outcome has the value and the effect of another, which is that of a step: apart from queries its
one packet is sent, and no breakpoint is added or removed. -/
structure FallsBack (target : Target σ) (s : σ) (w : World τ L) (r : Except PyError (StepReport τ))
    (v : World τ L) (r' : Except PyError (StepReport τ)) (v' : World τ L) : Prop where
  /-- The values are the same, but for where the packets came from. -/
  value : r.map untag = r'.map untag
  /-- So are the sessions, but for queries. -/
  effect : withoutQueries v = withoutQueries v'
  /-- The one packet sent besides queries is that of a step. -/
  packets : v.trace.filter isAct = w.trace.filter isAct ++ stepPackets (target.next s)
  /-- The registry is the same. -/
  breakpoints : v.breakpoints = w.breakpoints
  /-- The same points are armed. -/
  armed : v.armed = w.armed

/-- Where the instruction at the program counter is no call with a static target, `step_over` falls back to
`step` exactly if there is an instruction: the four bytes can be read, and they are decoded. -/
theorem falls_back_iff (hcall : NoCall host target s) (hw : target.Halted start s w)
    {r r' : Except PyError (StepReport τ)} (h : (stepOver host).Reaches (target.machine link start) w r v)
    (h' : (step host).Reaches (target.machine link start) w r' v') :
    FallsBack target s w r v r' v' ↔ (currentInstruction host target s).isSome = true := by
  have hover := Program.reaches_of_wp (wp_stepOver hcall hw) h
  obtain ⟨hvalue, heffect⟩ := Program.reaches_of_wp (wp_step hw) h'
  cases hfound : currentInstruction host target s with
  | none =>
    rw [hfound] at hover
    have hraises : r = .error noInstruction := hover
    refine iff_of_false (fun hfalls => ?_) (by simp)
    have hsame : (.error noInstruction : Except PyError (StepReport Unit)) = stepValue host target (target.next s) := by
      rw [← hvalue, ← hfalls.value, hraises]
      rfl
    cases hnext : target.next s with
    | ok s' =>
      rw [hnext] at hsame
      simp [stepValue] at hsame
    | error failure =>
      rw [hnext] at hsame
      have herror : noInstruction = failure.error := Except.error.inj hsame
      cases failure with
      | unsent => simp [noInstruction, StepFailure.error] at herror
      | unanswered ending =>
        cases ending <;> simp [noInstruction, StepFailure.error, Ending.error, timedOut, connectionReset] at herror
  | some insn =>
    rw [hfound] at hover
    obtain ⟨hvalueOver, heffectOver⟩ := hover
    obtain ⟨htrace, hbreakpoints, harmed⟩ := stepped_facts (target.next s) (withoutQueries w)
    rw [← heffectOver] at htrace hbreakpoints harmed
    exact iff_of_true ⟨hvalueOver.trans hvalue.symm, heffectOver.trans heffect.symm, htrace, hbreakpoints, harmed⟩
      rfl

end Fallbacks

section Samples

/-- A disassembler that takes every word for `nop`. -/
def nopHost : Host where
  evalCondition _ _ := true
  disasmBytes addr blob := .ok [⟨addr, toHex blob, "nop".toList, [], .nop, none, none, none⟩]

/-- A target that can be stepped once, from one address to the next; the memory is empty but for zeros from
some address on. -/
def walkingTarget (pc : UInt32) (base : ℤ) : Target Bool where
  pc stepped := if stepped then pc + 4 else pc
  gprs _ _ := 0
  memory _ := image base [0, 0, 0, 0, 0, 0, 0, 0]
  next stepped := if stepped then .error (.unanswered .timeout) else .ok true
  stopReply _ := "T05".toList

/-- The stub reports the program counter. -/
def reportPc (pc : UInt32) : List (Choice Origin TokenNet) := replying (hexBody (bigEndian pc))

/-- The target next to the emulated memory. -/
def inMemory : Target Bool := walkingTarget 0x80003100 0x80003100

/-- The target at an exception vector. -/
def atVector : Target Bool := walkingTarget 0x100 0x80003100

/-- The step is reported, and the registers and the memory are read afterwards. -/
def steppedInMemory : List (Choice Origin TokenNet) :=
  replying stopBody ++ reportPc 0x80003104 ++ replying (hexBody [0, 0, 0, 0])

theorem falls_back_iff_nop : ∃ r v r' v',
    (stepOver nopHost).Reaches (inMemory.machine (tokenLink Origin) false) pausedWorld r v ∧
    (step nopHost).Reaches (inMemory.machine (tokenLink Origin) false) pausedWorld r' v' ∧
    (FallsBack inMemory false pausedWorld r v r' v' ↔
      (currentInstruction nopHost inMemory false).isSome = true) := by
  have hnop : currentInstruction nopHost inMemory false =
      some ⟨0x80003100, "00000000".toList, "nop".toList, [], .nop, none, none, none⟩ := by decide +kernel
  have hcall : NoCall nopHost inMemory false := by
    intro insn hinsn
    rw [hnop, Option.some.injEq] at hinsn
    rw [← hinsn]
    decide +kernel
  have hover : (stepOver nopHost).Follows (inMemory.machine (tokenLink Origin) false)
      (reportPc 0x80003100 ++ replying (hexBody [0, 0, 0, 0]) ++ steppedInMemory) pausedWorld := by
    decide +kernel
  have hstep : (step nopHost).Follows (inMemory.machine (tokenLink Origin) false) steppedInMemory
      pausedWorld := by decide +kernel
  have hreach := Program.reaches_run hover
  have hreach' := Program.reaches_run hstep
  exact ⟨_, _, _, _, hreach, hreach', falls_back_iff hcall ⟨rfl, rfl, rfl, rfl, rfl⟩ hreach hreach'⟩

/-- At an exception vector no instruction is found: `step_over` raises where `step` moves on. -/
theorem exception_vector_raises : ∃ r v r' v',
    (stepOver nopHost).Reaches (atVector.machine (tokenLink Origin) false) pausedWorld r v ∧
    (step nopHost).Reaches (atVector.machine (tokenLink Origin) false) pausedWorld r' v' ∧
    NoCall nopHost atVector false ∧ r = .error noInstruction ∧
    r'.map untag = .ok ⟨⟨"T05".toList, ()⟩, 0x104, none, none⟩ ∧
    ¬FallsBack atVector false pausedWorld r v r' v' := by
  have hnone : currentInstruction nopHost atVector false = none := by decide +kernel
  have hcall : NoCall nopHost atVector false := by
    intro insn hinsn
    rw [hnone] at hinsn
    exact absurd hinsn (Option.some_ne_none insn).symm
  have hover : (stepOver nopHost).Follows (atVector.machine (tokenLink Origin) false) (reportPc 0x100)
      pausedWorld := by decide +kernel
  have hstep : (step nopHost).Follows (atVector.machine (tokenLink Origin) false)
      (replying stopBody ++ reportPc 0x104) pausedWorld := by decide +kernel
  have hreach := Program.reaches_along hover (r := .error noInstruction) (by decide +kernel)
  have hreach' := Program.reaches_run hstep
  have hvalue : ((step nopHost).run (atVector.machine (tokenLink Origin) false)
      (replying stopBody ++ reportPc 0x104) pausedWorld).1.map untag = .ok ⟨⟨"T05".toList, ()⟩, 0x104, none, none⟩ := by
    decide +kernel
  refine ⟨_, _, _, _, hreach, hreach', hcall, rfl, hvalue, fun hfalls => ?_⟩
  have hsame := hfalls.value
  rw [hvalue] at hsame
  simp [Except.map] at hsame

end Samples

end DolphinRe.StepFallbacks
