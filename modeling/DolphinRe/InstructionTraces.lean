import DolphinRe.StackWalks
import DolphinRe.StepFallbacks
import DolphinRe.TraceTools

/-!
# Traces of an execution

A trace of a deterministic machine is a prefix of its execution as long as the
memory at every program counter on it can be read. The read for the
disassembly is not guarded, so one program counter outside the emulated memory
makes the trace raise, and what has been recorded is lost.
-/

namespace DolphinRe.InstructionTraces

open PythonText GdbPackets GdbWire GdbTokens StopReplies EffectProgram SessionMachine GdbClient SessionTools
  ExecutionTools StubBehaviour MemoryPackets MemoryWindows PpcOperands PpcDisassembly ImmediatePairs MemoryTools
  SteppedTarget StackWalks StepFallbacks TraceTools

section Executions

variable {σ : Type} {target : Target σ} {stops : σ → Bool} {s : σ} {n : ℕ}

/-- The states of an execution up to the first one that stops it or cannot be stepped, but no more than
so many. -/
structure Visited (target : Target σ) (stops : σ → Bool) (bound : ℕ) (s : σ) (visited : List σ) : Prop where
  /-- The execution starts there. -/
  first : visited.head? = some s
  /-- Each further state is stepped to from one that stops nothing. -/
  stepped : visited.IsChain fun t u => stops t = false ∧ target.next t = .ok u
  /-- There are no more than so many. -/
  bounded : visited.length ≤ bound
  /-- If there are fewer, the last one stops the trace or cannot be stepped. -/
  maximal : visited.length < bound →
    ∀ t ∈ visited.getLast?, stops t = true ∨ ∃ failure, target.next t = .error failure

/-- These states, one after the other. -/
def visits (target : Target σ) (stops : σ → Bool) : ℕ → σ → List σ
  | 0, _ => []
  | n + 1, s =>
    s :: if stops s then []
      else
        match target.next s with
        | .ok s' => visits target stops n s'
        | .error _ => []

/-- A state that can be stepped is followed by the next one. -/
theorem visits_succ_ok {s' : σ} (hstops : stops s = false) (hnext : target.next s = .ok s') :
    visits target stops (n + 1) s = s :: visits target stops n s' := by
  rw [visits, hstops, if_neg Bool.false_ne_true, hnext]

/-- Any other is the last. -/
theorem visits_succ_end (h : stops s = true ∨ ∃ failure, target.next s = .error failure) :
    visits target stops (n + 1) s = [s] := by
  rw [visits]
  cases hstops : stops s with
  | true => rw [if_pos rfl]
  | false =>
    obtain ⟨failure, hnext⟩ := h.resolve_left (by rw [hstops]; exact Bool.false_ne_true)
    rw [if_neg Bool.false_ne_true, hnext]

/-- A state is stepped on, or it is the last one. -/
theorem goes_on_or_ends (target : Target σ) (stops : σ → Bool) (s : σ) :
    (stops s = false ∧ ∃ s', target.next s = .ok s') ∨
      (stops s = true ∨ ∃ failure, target.next s = .error failure) := by
  cases stops s with
  | true => exact Or.inr (Or.inl rfl)
  | false =>
    cases hnext : target.next s with
    | ok s' => exact Or.inl ⟨rfl, s', rfl⟩
    | error failure => exact Or.inr (Or.inr ⟨failure, rfl⟩)

/-- The states computed are those visited. -/
theorem visited_visits (target : Target σ) (stops : σ → Bool) (n : ℕ) (s : σ) :
    Visited target stops (n + 1) s (visits target stops (n + 1) s) := by
  induction n generalizing s with
  | zero =>
    have hone : visits target stops 1 s = [s] := by
      rcases goes_on_or_ends target stops s with ⟨hstops, s', hnext⟩ | hend
      · rw [visits_succ_ok hstops hnext, visits]
      · exact visits_succ_end hend
    rw [hone]
    exact ⟨rfl, List.isChain_singleton s, Nat.le_refl 1, fun hless => absurd hless (Nat.lt_irrefl 1)⟩
  | succ n ih =>
    rcases goes_on_or_ends target stops s with ⟨hstops, s', hnext⟩ | hend
    · have hrest := ih s'
      rw [visits_succ_ok hstops hnext]
      refine ⟨rfl, hrest.stepped.cons ?_, Nat.succ_le_succ hrest.bounded, fun hless t ht => ?_⟩
      · intro u hu
        rw [hrest.first, Option.mem_some_iff] at hu
        rw [← hu]
        exact ⟨hstops, hnext⟩
      · refine hrest.maximal (Nat.lt_of_succ_lt_succ hless) t ?_
        obtain ⟨rest, hcons⟩ : ∃ rest, visits target stops (n + 1) s' = s' :: rest := ⟨_, rfl⟩
        rw [hcons] at ht ⊢
        exact ht
    · rw [visits_succ_end hend]
      refine ⟨rfl, List.isChain_singleton s, Nat.succ_le_succ (Nat.zero_le _), fun _ t ht => ?_⟩
      have heq : t = s := (Option.some.inj ht).symm
      rw [heq]
      exact hend

end Executions

section Entries

variable {σ τ N L : Type} {target : Target σ} {link : Link τ N L} {start s : σ} {w v : World τ L} {d : Disassembler}

/-- The register dump that an instruction is decoded with. -/
def dumpOf (target : Target σ) (s : σ) (withGprs : Bool) : List (Str × ℕ) :=
  if withGprs then gprDict ((target.registers s).map UInt32.toNat) else []

/-- The instruction at the program counter, if its word is decoded. -/
def decodedAt (d : Disassembler) (target : Target σ) (capture : List String) (s : σ) : Option DisasmInstruction :=
  (target.fetched s (target.pc s).toNat 4).bind fun blob =>
    (d.decode (target.pc s).toNat blob (dumpOf target s (decide ("gprs" ∈ capture)))).head?

/-- The register dump is that of the state. -/
theorem reads_dumpGprs (withGprs : Bool) :
    Reads target link start s (dumpGprs withGprs : Code τ (List (Str × ℕ))) (· = .ok (dumpOf target s withGprs)) := by
  unfold dumpGprs dumpOf
  cases withGprs with
  | false => exact reads_done rfl
  | true =>
    have hread : Reads target link start s
        ((getGprs : Code τ (List ℕ)).bind fun gprs => .done (gprDict gprs))
        (· = .ok (gprDict ((target.registers s).map UInt32.toNat))) := reads_getGprs.bind_value (reads_done rfl)
    rw [if_pos rfl, if_pos rfl]
    unfold Program.handle
    refine hread.attempt_bind fun outcome hfound => ?_
    rw [hfound]
    exact reads_done rfl

/-- The disassembly of one word answers, or it raises where the word cannot be read. -/
theorem reads_disasm (addr : ℤ) (withGprs : Bool) :
    Reads target link start s (disasm d addr 1 withGprs : Code τ (List DisasmInstruction))
      (Yields ((target.fetched s addr 4).map fun blob => d.decode addr blob (dumpOf target s withGprs))) := by
  unfold disasm
  rw [if_neg (by decide)]
  refine reads_ensureConnected.bind_value ((reads_memRead addr 4).bind (fun blob hblob => ?_) fun e he => ?_)
  · rw [yields_ok.mp hblob]
    exact (reads_dumpGprs withGprs).bind_value (reads_done rfl)
  · rw [yields_error.mp he]
    exact ⟨e, rfl⟩

/-- A program that returns and changes nothing. -/
def Returns (target : Target σ) (link : Link τ N L) (start s : σ) {α : Type} (p : Code τ α) : Prop :=
  Reads target link start s p fun r => ∃ a, r = .ok a

/-- What returns may be followed by what reads. -/
theorem Returns.bind {α β : Type} {p : Code τ α} {f : α → Code τ β} {fine : Except PyError β → Prop}
    (hp : Returns target link start s p) (hf : ∀ a, Reads target link start s (f a) fine) :
    Reads target link start s (p.bind f) fine := by
  refine Reads.bind hp (fun a _ => hf a) fun e he => ?_
  obtain ⟨a, heq⟩ := he
  simp at heq

/-- Reading the floating point registers returns. -/
theorem returns_readFprs (regs : List ℕ) (fprs : List (ℕ × List UInt8)) :
    Returns target link start s (readFprs regs fprs : Code τ (List (ℕ × List UInt8))) := by
  induction regs generalizing fprs with
  | nil => exact reads_done ⟨fprs, rfl⟩
  | cons i regs ih =>
    have hbytes : Returns target link start s (readRegisterBytes (0x20 + i) : Code τ (Option (List UInt8))) :=
      reads_cmd_bind rfl fun packet _ => reads_done ⟨_, rfl⟩
    unfold readFprs
    refine hbytes.bind fun found => ?_
    cases found with
    | none => exact ih fprs
    | some raw =>
      dsimp only
      split_ifs
      · exact ih _
      · exact ih _

/-- So does the tool. -/
theorem returns_getFprs : Returns target link start s (getFprs : Code τ (List (ℕ × List UInt8))) :=
  reads_ensureConnected.bind_value
    ((reads_refuseIfWatcherRunning _).bind_value (returns_readFprs (List.range 32) []).locked)

/-- So does capturing the general registers. -/
theorem returns_traceGprs (capture : List String) :
    Returns target link start s (traceGprs capture : Code τ (Option (List ℕ))) := by
  unfold traceGprs
  split_ifs
  · exact reads_getGprs.bind_value (reads_done ⟨_, rfl⟩)
  · exact reads_done ⟨none, rfl⟩

/-- So does capturing the floating point registers. -/
theorem returns_traceFprs (capture : List String) (insn : Option DisasmInstruction) :
    Returns target link start s (traceFprs capture insn : Code τ (Option (List (ℕ × List UInt8)))) := by
  unfold traceFprs
  split_ifs
  · exact returns_getFprs.bind fun fprs => reads_done ⟨some fprs, rfl⟩
  · exact reads_done ⟨none, rfl⟩

/-- A failed operand read is no failure. -/
theorem returns_traceOperand (capture : List String) (insn : Option DisasmInstruction) :
    Returns target link start s (traceOperand capture insn : Code τ (Option ℕ)) := by
  unfold traceOperand
  cases insn.bind DisasmInstruction.ea with
  | none => exact reads_done ⟨none, rfl⟩
  | some ea =>
    have hdata : Reads target link start s (readMemory ea 4 : Code τ (List UInt8)) fun _ => True :=
      reads_ensureConnected.bind_value ((reads_memRead ea 4).mono fun _ _ => trivial)
    have hread : Reads target link start s (MemoryTools.readMem readMemory ea 4 : Code τ (ℤ × ℤ × Str))
        fun _ => True := hdata.bind (fun _ _ => reads_done trivial) fun _ _ => trivial
    have hvalue : Reads target link start s
        ((MemoryTools.readMem readMemory ea 4 : Code τ (ℤ × ℤ × Str)).bind fun read =>
          (Program.ofExcept (fromHexOrRaise read.2.2)).bind fun blob => .done (some (fromBytesBig blob)))
        fun _ => True := by
      refine hread.bind (fun read _ => ?_) fun _ _ => trivial
      exact (reads_ofExcept _).bind (fun _ _ => reads_done trivial) fun _ _ => trivial
    dsimp only
    split_ifs
    · unfold Program.handle
      refine hvalue.attempt_bind fun outcome _ => ?_
      cases outcome with
      | ok value => exact reads_done ⟨value, rfl⟩
      | error e => exact reads_done ⟨none, rfl⟩
    · exact reads_done ⟨none, rfl⟩

/-- What every entry shows: its number, the program counter and the instruction there. -/
def shown (entry : TraceEntry) : ℕ × ℕ × Option DisasmInstruction := (entry.step, entry.pc, entry.instruction)

/-- What the entry of a state shows. -/
def lineOf (d : Disassembler) (target : Target σ) (capture : List String) (numbered : σ × ℕ) :
    ℕ × ℕ × Option DisasmInstruction :=
  (numbered.2, (target.pc numbered.1).toNat, decodedAt d target capture numbered.1)

/-- The word at the program counter can be read. -/
def PcReadable (target : Target σ) (s : σ) : Prop := Readable target s (target.pc s).toNat 4

/-- An entry is recorded exactly where the word can be read. -/
theorem reads_traceEntry (capture : List String) (i : ℕ) :
    Reads target link start s (traceEntry d capture i : Code τ TraceEntry) (fun r =>
      (PcReadable target s ∧ ∃ entry, r = .ok entry ∧ shown entry = lineOf d target capture (s, i)) ∨
        (¬PcReadable target s ∧ ∃ e, r = .error e)) := by
  unfold traceEntry
  refine reads_getPc.bind_value ((reads_disasm _ _).bind (fun insns hinsns => ?_) fun e he => ?_)
  · obtain ⟨blob, hfetched, hdecoded⟩ := Option.map_eq_some_iff.mp (yields_ok.mp hinsns)
    have hreadable : PcReadable target s := by
      by_contra hnot
      rw [PcReadable, ← fetched_eq_none, hfetched] at hnot
      exact absurd hnot (Option.some_ne_none blob)
    have hinsn : insns.head? = decodedAt d target capture s := by
      rw [← hdecoded, decodedAt, hfetched]
      rfl
    refine (returns_traceGprs capture).bind fun gprs => ?_
    refine (returns_traceFprs capture insns.head?).bind fun fprs => ?_
    refine (returns_traceOperand capture insns.head?).bind fun memValue => ?_
    refine reads_done ?_
    exact Or.inl ⟨hreadable, _, rfl, by rw [shown, hinsn]; rfl⟩
  · refine Or.inr ⟨?_, e, rfl⟩
    rw [PcReadable, ← fetched_eq_none]
    exact Option.map_eq_none_iff.mp (yields_error.mp he)

end Entries

section Prefixes

variable {σ τ N L : Type} {target : Target σ} {link : Link τ N L} {start s : σ} {w v : World τ L} {d : Disassembler}
  {untilPc : Option ℤ} {untilBlr : Bool}

/-- A stop condition holds of a state. -/
def stopsHere (d : Disassembler) (target : Target σ) (untilPc : Option ℤ) (untilBlr : Bool) (capture : List String)
    (s : σ) : Bool :=
  stopsAt d untilPc untilBlr (target.pc s).toNat (decodedAt d target capture s)

/-- The recorded states from one number on follow the recorded entries, or the trace raises. -/
def Traced (d : Disassembler) (target : Target σ) (capture : List String) (timeline : List TraceEntry) (i : ℕ)
    (visited : List σ) (r : Except PyError (List TraceEntry)) : Prop :=
  ((∀ t ∈ visited, PcReadable target t) ∧ ∃ entries, r = .ok (timeline ++ entries) ∧
      entries.map shown = (visited.zipIdx i).map (lineOf d target capture)) ∨
    ((∃ t ∈ visited, ¬PcReadable target t) ∧ ∃ e, r = .error e)

/-- One more entry in front. -/
theorem Traced.cons {capture : List String} {timeline : List TraceEntry} {i : ℕ} {visited : List σ}
    {r : Except PyError (List TraceEntry)} {entry : TraceEntry} (hreadable : PcReadable target s)
    (hentry : shown entry = lineOf d target capture (s, i))
    (h : Traced d target capture (timeline ++ [entry]) (i + 1) visited r) :
    Traced d target capture timeline i (s :: visited) r := by
  rcases h with ⟨hall, entries, hr, hlines⟩ | ⟨⟨t, ht, hnot⟩, e, hr⟩
  · refine Or.inl ⟨?_, entry :: entries, ?_, ?_⟩
    · intro t ht
      rcases List.mem_cons.mp ht with rfl | hrest
      · exact hreadable
      · exact hall t hrest
    · rw [hr, List.append_assoc]
      rfl
    · rw [List.map_cons, hentry, hlines, List.zipIdx_cons, List.map_cons]
  · exact Or.inr ⟨⟨t, List.mem_cons_of_mem s ht, hnot⟩, e, hr⟩

/-- No entry is left to record. -/
theorem traced_nil (d : Disassembler) (target : Target σ) (capture : List String) (timeline : List TraceEntry)
    (i : ℕ) : Traced d target capture timeline i [] (.ok timeline) :=
  Or.inl ⟨fun t ht => absurd ht List.not_mem_nil, [], by rw [List.append_nil], rfl⟩

/-- The loop records the states visited, or raises at one that cannot be read. -/
theorem wp_traceSteps (capture : List String) (n i : ℕ) (timeline : List TraceEntry)
    (hw : target.Halted start s w) :
    (traceSteps d untilPc untilBlr capture n i timeline).wp (target.machine link start) (fun r _ =>
      Traced d target capture timeline i (visits target (stopsHere d target untilPc untilBlr capture) n s) r) w := by
  induction n generalizing s i timeline w with
  | zero => exact traced_nil d target capture timeline i
  | succ n ih =>
    unfold traceSteps
    rw [Program.bind_eq, Program.wp_bind]
    refine Program.wp_mono ?_ (reads_traceEntry capture i w hw)
    rintro r₁ v₁ ⟨⟨hreadable, entry, rfl, hentry⟩ | ⟨hnot, e, rfl⟩, hsame⟩
    · have hv₁ := hw.of_same hsame
      have hpc : entry.pc = (target.pc s).toNat := (congrArg (fun line => line.2.1) hentry :)
      have hinsn : entry.instruction = decodedAt d target capture s := (congrArg (fun line => line.2.2) hentry :)
      rw [Program.onValue_ok, hpc, hinsn]
      change Program.wp _ (if stopsHere d target untilPc untilBlr capture s = true then _ else _) _ v₁
      cases hstops : stopsHere d target untilPc untilBlr capture s with
      | true =>
        rw [if_pos rfl, visits_succ_end (Or.inl hstops)]
        exact (traced_nil d target capture _ _).cons hreadable hentry
      | false =>
        rw [if_neg Bool.false_ne_true, Program.bind_eq, Program.wp_bind, Program.wp_attempt]
        refine Program.wp_mono ?_ (wp_step hv₁)
        rintro r₂ v₂ ⟨hvalue, hstepped⟩
        rw [Program.onValue_ok]
        cases hnext : target.next s with
        | ok s' =>
          rw [hnext] at hvalue hstepped
          rw [visits_succ_ok hstops hnext]
          cases r₂ with
          | error e => simp [Except.map, stepValue] at hvalue
          | ok report =>
            refine Program.wp_mono ?_ (ih (i + 1) (timeline ++ [entry]) (halted_stepped hnext hv₁ hstepped))
            exact fun r v hr => hr.cons hreadable hentry
        | error failure =>
          rw [hnext] at hvalue
          rw [visits_succ_end (Or.inr ⟨failure, hnext⟩)]
          cases r₂ with
          | error e => exact (traced_nil d target capture _ _).cons hreadable hentry
          | ok report => simp [Except.map, stepValue] at hvalue
    · exact Or.inr ⟨⟨s, List.mem_cons_self, hnot⟩, e, rfl⟩

/-- The trace returns one entry for each visited state, in order. -/
def ReturnsPrefix (d : Disassembler) (target : Target σ) (capture : List String) (visited : List σ)
    (r : Except PyError (List TraceEntry)) : Prop :=
  ∃ timeline, r = .ok timeline ∧ timeline.map shown = visited.zipIdx.map (lineOf d target capture)

/-- Next to a deterministic machine, `trace_until` returns the prefix of its execution that ends with the first
state that satisfies a stop condition or cannot be stepped, or with the last one asked for, exactly if the word at
every program counter on this prefix can be read. -/
theorem trace_prefix_iff {maxSteps : ℤ} (hmax : 1 ≤ maxSteps)
    (hcap : untilPc = none → untilBlr = false → maxSteps ≤ 10000) (capture : Option (List String))
    (hw : target.Halted start s w) : ∃ visited,
      Visited target (stopsHere d target untilPc untilBlr (stepCaptures capture)) maxSteps.toNat s visited ∧
      ∀ r v, (traceUntil d untilPc untilBlr maxSteps capture).Reaches (target.machine link start) w r v →
        (ReturnsPrefix d target (stepCaptures capture) visited r ↔ ∀ t ∈ visited, PcReadable target t) := by
  obtain ⟨n, hn⟩ : ∃ n, maxSteps.toNat = n + 1 := ⟨maxSteps.toNat - 1, by omega⟩
  have htrace : (traceUntil d untilPc untilBlr maxSteps capture : Code τ (List TraceEntry)) =
      traceSteps d untilPc untilBlr (stepCaptures capture) (n + 1) 0 [] := by
    have hpositive : ¬maxSteps ≤ 0 := by omega
    have hallowed : ¬(untilPc = none ∧ untilBlr = false ∧ 10000 < maxSteps) := by
      rintro ⟨hpc, hblr, hlong⟩
      have hshort := hcap hpc hblr
      omega
    rw [traceUntil, if_neg hpositive, if_neg hallowed, hn]
  refine ⟨visits target (stopsHere d target untilPc untilBlr (stepCaptures capture)) (n + 1) s, ?_, ?_⟩
  · rw [hn]
    exact visited_visits _ _ n s
  · intro r v h
    rw [htrace] at h
    rcases Program.reaches_of_wp (wp_traceSteps (stepCaptures capture) (n + 1) 0 [] hw) h with
      ⟨hall, entries, hr, hlines⟩ | ⟨⟨t, ht, hnot⟩, e, hr⟩
    · exact iff_of_true ⟨entries, hr, hlines⟩ hall
    · refine iff_of_false ?_ fun hall => hnot (hall t ht)
      rintro ⟨timeline, hok, -⟩
      rw [hok] at hr
      simp at hr

end Prefixes

section Samples

/-- Every word is decoded as `nop`. -/
def nopDisassembler : Disassembler where
  cs := ⟨fun blob pc => if blob = [] then [] else [⟨pc, "nop".toList, []⟩], fun blob pc insn hinsn => by
    split_ifs at hinsn
    · simp at hinsn
    · have hfirst : insn = ⟨pc, "nop".toList, []⟩ := List.mem_singleton.mp hinsn
      exact Int.le_of_eq (congrArg CsInsn.address hfirst).symm⟩
  tables := asciiTables
  limit := RadixNumerals.defaultLimit

/-- A target that is stepped from instruction to instruction. -/
def sequential : Target ℕ where
  pc n := 0x80003100 + 4 * UInt32.ofNat n
  gprs _ _ := 0
  memory _ := image 0x80003100 (List.replicate 16 0)
  next n := .ok (n + 1)
  stopReply _ := "T05".toList

/-- The stub reports the program counter, the word there and twice the registers. -/
def recorded {σ : Type} (target : Target σ) (s : σ) : List (Choice Origin TokenNet) :=
  reportPc (target.pc s) ++ replying (hexBody [0, 0, 0, 0]) ++ replying (hexBody (block (target.registers s))) ++
    replying (hexBody (block (target.registers s)))

/-- A step into a state is reported, and the registers and the memory are read afterwards. -/
def steppedTo {σ : Type} (target : Target σ) (s : σ) : List (Choice Origin TokenNet) :=
  replying stopBody ++ reportPc (target.pc s) ++ replying (hexBody [0, 0, 0, 0])

/-- Three instructions of a target that goes on. -/
theorem trace_prefix_iff_three : ∃ visited r v,
    Visited sequential (stopsHere nopDisassembler sequential none false (stepCaptures none)) 3 0 visited ∧
    (traceUntil nopDisassembler none false 3 none).Reaches (sequential.machine (tokenLink Origin) 0) pausedWorld r v ∧
    (r.toOption.getD []).map TraceEntry.pc = [0x80003100, 0x80003104, 0x80003108] ∧
    (ReturnsPrefix nopDisassembler sequential (stepCaptures none) visited r ↔
      ∀ t ∈ visited, PcReadable sequential t) := by
  have hfollows : (traceUntil nopDisassembler none false 3 none).Follows (sequential.machine (tokenLink Origin) 0)
      (recorded sequential 0 ++ steppedTo sequential 1 ++ recorded sequential 1 ++ steppedTo sequential 2 ++
        recorded sequential 2 ++ steppedTo sequential 3) pausedWorld := by decide +kernel
  have hreach := Program.reaches_run hfollows
  have hhalted : sequential.Halted 0 0 pausedWorld := ⟨rfl, rfl, rfl, rfl, rfl⟩
  have hcap : (none : Option ℤ) = none → false = false → (3 : ℤ) ≤ 10000 := fun _ _ => by decide
  obtain ⟨visited, hvisited, htrace⟩ := trace_prefix_iff (by decide : (1 : ℤ) ≤ 3) hcap none hhalted
  exact ⟨visited, _, _, hvisited, hreach, by decide +kernel, htrace _ _ hreach⟩

/-- A target that is stepped into an exception vector. -/
def intoVector : Target Bool :=
  {inMemory with pc := fun stepped => if stepped then 0x500 else 0x80003100}

/-- A trace into an exception vector raises, and the entry that has been recorded is lost. -/
theorem entries_are_lost : ∃ v,
    Visited intoVector (stopsHere nopDisassembler intoVector none false (stepCaptures none)) 2 false [false, true] ∧
    (traceUntil nopDisassembler none false 2 none).Reaches (intoVector.machine (tokenLink Origin) false) pausedWorld
      (.error (.addressOutOfRange "0x00000500 is not in MEM1 or MEM2")) v ∧
    ¬ReturnsPrefix nopDisassembler intoVector (stepCaptures none) [false, true]
      (.error (.addressOutOfRange "0x00000500 is not in MEM1 or MEM2")) := by
  have hvisits : visits intoVector (stopsHere nopDisassembler intoVector none false (stepCaptures none)) 2 false =
      [false, true] := by decide +kernel
  have hfollows : (traceUntil nopDisassembler none false 2 none).Follows
      (intoVector.machine (tokenLink Origin) false)
      (recorded inMemory false ++ replying stopBody ++ reportPc 0x500 ++ reportPc 0x500) pausedWorld := by decide +kernel
  have hreach := Program.reaches_along hfollows
    (r := .error (.addressOutOfRange "0x00000500 is not in MEM1 or MEM2")) (by decide +kernel)
  refine ⟨_, ?_, hreach, ?_⟩
  · rw [← hvisits]
    exact visited_visits _ _ 1 false
  · rintro ⟨timeline, hok, -⟩
    simp at hok

end Samples

end DolphinRe.InstructionTraces
