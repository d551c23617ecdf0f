import Mathlib.Algebra.Group.Nat.Defs
import DolphinRe.ExactReads

/-!
# A halted target and its stub

A deterministic machine executes one instruction for each `s` packet. Its stub
answers register and memory queries from the state that it is in, the attached
process hands out the same memory, and a step may fail. Queries leave
everything as it is but for what is on the wire.
-/

namespace DolphinRe.SteppedTarget

open PythonText GdbPackets GdbWire GdbTokens StopReplies EffectProgram SessionMachine GdbClient SessionTools
  ExecutionTools LinkRefinement MemoryWindows MemoryPackets HostedMemory DataReplies WatcherSurvival ExactReads

section Words

/-- The four bytes of a word, most significant first. -/
def bigEndian (n : UInt32) : List UInt8 :=
  [UInt8.ofNat (n.toNat / 2 ^ 24), UInt8.ofNat (n.toNat / 2 ^ 16), UInt8.ofNat (n.toNat / 2 ^ 8),
    UInt8.ofNat n.toNat]

/-- Four bytes, the most significant first, are read back. -/
theorem fromBytesBig_bigEndian (n : UInt32) : fromBytesBig (bigEndian n) = n.toNat := by
  have hn : n.toNat < 2 ^ 32 := n.toNat_lt
  simp only [fromBytesBig, bigEndian, List.foldl_cons, List.foldl_nil, UInt8.toNat_ofNat']
  omega

/-- The words of a register block. -/
def block (words : List UInt32) : List UInt8 := words.flatMap bigEndian

/-- A block of registers has four bytes for each. -/
theorem length_block (words : List UInt32) : (block words).length = 4 * words.length := by
  induction words with
  | nil => rfl
  | cons n words ih =>
    change (bigEndian n ++ block words).length = _
    rw [List.length_append, ih, List.length_cons]
    simp only [bigEndian, List.length_cons, List.length_nil]
    omega

/-- The bytes of one word of a block. -/
theorem block_word {words : List UInt32} {i : ℕ} (h : i < words.length) :
    ((block words).drop (i * 4)).take 4 = bigEndian words[i] := by
  induction words generalizing i with
  | nil => simp at h
  | cons n words ih =>
    cases i with
    | zero => simp [block, bigEndian]
    | succ i =>
      have htail := ih (i := i) (by simpa using h)
      have hskip : (i + 1) * 4 = (bigEndian n).length + i * 4 := by
        simp only [bigEndian, List.length_cons, List.length_nil]
        omega
      change ((bigEndian n ++ block words).drop ((i + 1) * 4)).take 4 = _
      rw [hskip, List.drop_length_add_append, htail]
      simp

/-- The registers are read back from their block. -/
theorem parseDolphinGprs_block {words : List UInt32} (h : words.length = 32) :
    parseDolphinGprs (block words) = words.map UInt32.toNat := by
  have hall : (List.range 32).takeWhile (fun i => i * 4 + 4 ≤ (block words).length) = List.range 32 := by
    rw [List.takeWhile_eq_self_iff]
    intro i hi
    rw [length_block, h, decide_eq_true_eq]
    have hlt := List.mem_range.mp hi
    omega
  unfold parseDolphinGprs
  rw [hall]
  refine List.ext_getElem (by simp [h]) fun i hi hi' => ?_
  have hlt : i < words.length := by simpa using hi'
  simp [block_word hlt, fromBytesBig_bigEndian]

end Words

section Targets

/-- How a step fails. -/
inductive StepFailure where
  /-- Its packet is not sent. -/
  | unsent
  /-- It is not acknowledged or no stop is reported, and the wait ends like this. -/
  | unanswered (ending : Ending)
  deriving DecidableEq, Repr

/-- What a failed step raises. -/
def StepFailure.error : StepFailure → PyError
  | .unsent => .connectionLost "send failed"
  | .unanswered ending => ending.error

/-- A machine that executes one instruction at a time. -/
structure Target (σ : Type) where
  /-- The program counter. -/
  pc : σ → UInt32
  /-- The general registers. -/
  gprs : σ → Fin 32 → UInt32
  /-- The memory, where there is any. -/
  memory : σ → ℤ → Option UInt8
  /-- The state after the instruction at the program counter. -/
  next : σ → Except StepFailure σ
  /-- The stop reply when the state has been reached by a step. -/
  stopReply : σ → Str

variable {σ τ N L : Type}

namespace Target

variable (target : Target σ)

/-- The general registers in order. -/
def registers (s : σ) : List UInt32 := List.ofFn (target.gprs s)

/-- Whether a text answers a command. -/
def answers (s : σ) : Command → Str → Bool
  | .readRegister regnum, text => regnum != PC || text = toHex (bigEndian (target.pc s))
  | .readRegisters, text => text = toHex (block (target.registers s))
  | .readMem addr size, text =>
    match valuesAt (target.memory s) addr size.toNat with
    | some blob => text = toHex blob
    | none =>
      match raiseIfError text [] with
      | .ok _ => false
      | .error _ => true
  | .step, text => text = target.stopReply s
  | _, _ => true

/-- The state after an event on the connection. -/
def onEvent (current : Except StepFailure σ) : Obs τ → Except StepFailure σ
  | .sent (.packet .step) _ => current.bind target.next
  | _ => current

/-- The state after some events. -/
def after (current : Except StepFailure σ) (trace : List (Obs τ)) : Except StepFailure σ :=
  trace.foldl target.onEvent current

/-- Every packet is sent, but for those of steps that fail so. -/
def sends (current : Except StepFailure σ) : Sent → Except PyError Unit → Bool
  | .packet .step, r =>
    match current.bind target.next with
    | .error .unsent => r = .error StepFailure.unsent.error
    | _ => r = .ok ()
  | _, r => r = .ok ()

/-- Every packet is acknowledged, but for those of steps that fail so. -/
def acknowledges (current : Except StepFailure σ) (r : Except PyError Unit) : Bool :=
  match current with
  | .ok _ => r = .ok ()
  | .error failure => r = .ok () || r = .error failure.error

/-- Every packet is answered, but for those of steps that fail. -/
def replies (current : Except StepFailure σ) (last : Option Command) : Except PyError (Packet τ) → Bool
  | .ok packet =>
    match current with
    | .ok s => last.all fun command => target.answers s command packet.text
    | .error _ => false
  | .error e =>
    match current with
    | .ok _ => false
    | .error failure => e = failure.error

/-- The attached process copies the memory of the target, if there is memory at the addresses. -/
def copies (current : Except StepFailure σ) (addr : ℤ) (size : ℕ) : Except PyError (List UInt8) → Bool
  | .ok blob =>
    match current with
    | .ok s => valuesAt (target.memory s) addr size = some blob
    | .error _ => true
  | .error _ =>
    match current with
    | .ok s => (valuesAt (target.memory s) addr size).isNone
    | .error _ => true

/-- What the stub, the network and the attached process do at an access. -/
def allows (link : Link τ N L) (start : σ) (o : Op τ) (c : Choice τ N) (w : World τ L) : Bool :=
  c.acts.isEmpty && c.obeyed && match o with
    | .send message => target.sends (target.after (.ok start) w.trace) message
        (World.step link (.send message) c w).1
    | .consumeAck => acknowledges (target.after (.ok start) w.trace) (World.step link .consumeAck c w).1 &&
        (link.consumeAck c.net w.link).2.1.isEmpty
    | .readPacketFromWire timeout => target.replies (target.after (.ok start) w.trace) (lastCommand w.trace)
        (World.step link (.readPacketFromWire timeout) c w).1
    | .hostRead addr size => target.copies (target.after (.ok start) w.trace) addr size
        (World.step link (.hostRead addr size) c w).1
    | _ => true

/-- The client next to the halted target. -/
def machine (link : Link τ N L) (start : σ) : Machine (signature τ) (Choice τ N) (World τ L) :=
  (SessionMachine.machine link).restrict fun o c w => target.allows link start o c w = true

instance (link : Link τ N L) (start : σ) (o : Op τ) (c : Choice τ N) (w : World τ L) :
    Decidable ((target.machine link start).admits o c w) :=
  inferInstanceAs (Decidable (True ∧ target.allows link start o c w = true))

/-- A connected session without a watcher and without unread stops, and the state of the target. -/
structure Halted (start s : σ) (w : World τ L) : Prop where
  /-- The session is connected. -/
  connected : w.state.isConnected = true
  /-- No watcher thread is alive. -/
  unwatched : w.watcher.all (fun thread => !w.threadAlive thread) = true
  /-- The connection is open. -/
  opened : w.sockOpen = true
  /-- Nothing is stashed. -/
  settled : w.pendingReplies = []
  /-- The steps sent so far have brought the target there. -/
  current : target.after (.ok start) w.trace = .ok s

end Target

end Targets

section Queries

/-- Commands that only read registers or memory. -/
def isQuery : Command → Bool
  | .readRegister _ => true
  | .readRegisters => true
  | .readMem _ _ => true
  | _ => false

variable {σ τ N L : Type} {target : Target σ} {link : Link τ N L} {start s : σ} {w v : World τ L}

/-- What happened apart from queries and what is read off the wire. -/
def isAct : Obs τ → Bool
  | .sent (.packet command) _ => !isQuery command
  | .sent .interrupt _ => true
  | .logged _ _ => true
  | .surfaced _ => true
  | _ => false

/-- The world apart from queries and what is on the wire. -/
def withoutQueries (w : World τ L) : World τ Unit :=
  {withLink w () with commands := 0, emitted := [], trace := w.trace.filter isAct}

/-- Only acts move the target. -/
theorem after_filter (target : Target σ) (current : Except StepFailure σ) (trace : List (Obs τ)) :
    target.after current (trace.filter isAct) = target.after current trace := by
  induction trace generalizing current with
  | nil => rfl
  | cons event trace ih =>
    cases hact : isAct event with
    | true =>
      rw [List.filter_cons_of_pos hact]
      exact ih _
    | false =>
      have hstays : target.onEvent current event = current := by
        unfold Target.onEvent
        split
        · simp [isAct, isQuery] at hact
        · rfl
      rw [List.filter_cons_of_neg (by simp [hact]), ih]
      change _ = target.after (target.onEvent current event) trace
      rw [hstays]

/-- What a target does is told by the trace piece by piece. -/
theorem after_append (target : Target σ) (current : Except StepFailure σ) (trace events : List (Obs τ)) :
    target.after current (trace ++ events) = target.after (target.after current trace) events :=
  List.foldl_append

/-- A target is halted in another state where the session and the connection are the same. -/
theorem Target.Halted.moved {s' : σ} (h : target.Halted start s w) (hstate : v.state.isConnected = true)
    (hwatcher : v.watcher = w.watcher) (hwatchers : v.watchers = w.watchers) (hopen : v.sockOpen = w.sockOpen)
    (hpending : v.pendingReplies = w.pendingReplies) (hcurrent : target.after (.ok start) v.trace = .ok s') :
    target.Halted start s' v where
  connected := hstate
  unwatched := by
    have hidle := h.unwatched
    unfold World.threadAlive at hidle ⊢
    rw [hwatcher, hwatchers]
    exact hidle
  opened := hopen.trans h.opened
  settled := hpending.trans h.settled
  current := hcurrent

/-- Worlds with the same acts have the target in the same state. -/
theorem after_of_same (hsame : withoutQueries v = withoutQueries w) (current : Except StepFailure σ) :
    target.after current v.trace = target.after current w.trace := by
  have htrace : v.trace.filter isAct = w.trace.filter isAct := (congrArg World.trace hsame :)
  rw [← after_filter, htrace, after_filter]

/-- Worlds that differ by queries are halted in the same state. -/
theorem Target.Halted.of_same (h : target.Halted start s w)
    (hsame : withoutQueries v = withoutQueries w) : target.Halted start s v := by
  have hstate : v.state = w.state := (congrArg World.state hsame :)
  refine h.moved ?_ (congrArg World.watcher hsame :) (congrArg World.watchers hsame :)
    (congrArg World.sockOpen hsame :) (congrArg World.pendingReplies hsame :) ?_
  · rw [hstate]
    exact h.connected
  · rw [after_of_same hsame]
    exact h.current

/-- What the machine admits the target allows. -/
theorem allows_of_admits {o : Op τ} {c : Choice τ N} (h : (target.machine link start).admits o c w) :
    target.allows link start o c w = true := h.2

/-- What is admitted at an access. -/
theorem quiet_of_allows {o : Op τ} {c : Choice τ N} (h : target.allows link start o c w = true) :
    c.acts = [] ∧ c.obeyed = true := by
  unfold Target.allows at h
  rw [Bool.and_eq_true, Bool.and_eq_true, List.isEmpty_iff] at h
  exact h.1

/-- The stub does nothing of its own. -/
theorem absorb_of_allows {o : Op τ} {c : Choice τ N} (h : target.allows link start o c w = true) :
    w.absorb link c.acts = w := by
  rw [(quiet_of_allows h).1]
  rfl

/-- A message is sent as the target has it. -/
theorem wp_sendall_target {message : Sent} {Q : Except PyError Unit → World τ L → Prop}
    (h : ∀ c, c.obeyed = true →
      target.sends (target.after (.ok start) w.trace) message (World.send link message c w).1 = true →
      Q (World.send link message c w).1 (World.send link message c w).2) :
    (sendall message).wp (target.machine link start) Q w := by
  rw [wp_sendall]
  intro c hadmitted
  have hallowed := allows_of_admits hadmitted
  have habsorb := absorb_of_allows hallowed
  have hobeyed := (quiet_of_allows hallowed).2
  unfold Target.allows at hallowed
  rw [Bool.and_eq_true] at hallowed
  have hsends := hallowed.2
  change target.sends _ message (World.send link message c (w.absorb link c.acts)).1 = true at hsends
  change Q (World.send link message c (w.absorb link c.acts)).1
    (World.send link message c (w.absorb link c.acts)).2
  rw [habsorb] at hsends ⊢
  exact h c hobeyed hsends

/-- An acknowledgement is read as the target has it, and no packet before it. -/
theorem wp_consumeAck_target {Q : Except PyError Unit → World τ L → Prop}
    (h : ∀ c, (link.consumeAck c.net w.link).2.1 = [] →
      Target.acknowledges (target.after (.ok start) w.trace) (World.consumeAck link c w).1 = true →
      Q (World.consumeAck link c w).1 (World.consumeAck link c w).2) :
    (consumeAck : Code τ Unit).wp (target.machine link start) Q w := by
  rw [wp_consumeAck]
  intro c hadmitted
  have hallowed := allows_of_admits hadmitted
  have habsorb := absorb_of_allows hallowed
  unfold Target.allows at hallowed
  rw [Bool.and_eq_true] at hallowed
  have hboth := hallowed.2
  dsimp only at hboth
  rw [Bool.and_eq_true, List.isEmpty_iff] at hboth
  have hacked := hboth.1
  change Target.acknowledges _ (World.consumeAck link c (w.absorb link c.acts)).1 = true at hacked
  change Q (World.consumeAck link c (w.absorb link c.acts)).1 (World.consumeAck link c (w.absorb link c.acts)).2
  rw [habsorb] at hacked ⊢
  exact h c hboth.2 hacked

/-- A packet is read as the target has it. -/
theorem wp_readPacketFromWire_target {timeout : Option ℕ} {Q : Except PyError (Packet τ) → World τ L → Prop}
    (h : ∀ c, target.replies (target.after (.ok start) w.trace) (lastCommand w.trace)
        (World.readPacket link c w).1 = true →
      Q (World.readPacket link c w).1 (World.readPacket link c w).2) :
    (readPacketFromWire timeout : Code τ (Packet τ)).wp (target.machine link start) Q w := by
  rw [wp_readPacketFromWire]
  intro c hadmitted
  have hallowed := allows_of_admits hadmitted
  have habsorb := absorb_of_allows hallowed
  unfold Target.allows at hallowed
  rw [Bool.and_eq_true] at hallowed
  have hreplied := hallowed.2
  change target.replies _ _ (World.readPacket link c (w.absorb link c.acts)).1 = true at hreplied
  change Q (World.readPacket link c (w.absorb link c.acts)).1 (World.readPacket link c (w.absorb link c.acts)).2
  rw [habsorb] at hreplied ⊢
  exact h c hreplied

/-- Events that are no acts are left out. -/
theorem filter_isAct_concat {event : Obs τ} (h : isAct event = false) (trace : List (Obs τ)) :
    (trace ++ [event]).filter isAct = trace.filter isAct := by
  rw [List.filter_append, List.filter_cons_of_neg (by simp only [h, Bool.false_eq_true, not_false_eq_true]),
    List.filter_nil, List.append_nil]

/-- Acknowledgements move no target. -/
theorem isAct_ackEvent (r : Except PyError τ) : isAct (World.ackEvent r) = false := by
  cases r <;> rfl

/-- Neither do packets that are read. -/
theorem isAct_readEvent (r : Except PyError (Packet τ)) : isAct (World.readEvent r) = false := by
  cases r <;> rfl

/-- A query leaves the client. -/
theorem wp_sendall_query {command : Command} (hquery : isQuery command = true) (w : World τ L) :
    (sendall (.packet command)).wp (target.machine link start) (fun r v =>
      r = .ok () ∧ lastCommand v.trace = some command ∧ withoutQueries v = withoutQueries w) w := by
  refine wp_sendall_target fun c _ hsends => ?_
  have hsent : (World.send link (.packet command) c w).1 = .ok () := by
    unfold Target.sends at hsends
    cases command <;> first | exact of_decide_eq_true hsends | cases hquery
  rw [(World.send_ok hsent).2]
  refine ⟨hsent, by simp [World.delivered, lastCommand], ?_⟩
  have htrace : (w.trace ++ [Obs.sent (.packet command) c.obeyed]).filter isAct = w.trace.filter isAct :=
    filter_isAct_concat (by simp only [isAct, hquery, Bool.not_true]) w.trace
  have hrunning : (if c.obeyed then runningAfter (.packet command) w.running else w.running) = w.running := by
    cases command <;> first | exact ite_self _ | cases hquery
  have harmed : (if c.obeyed then armedAfter (.packet command) w.armed else w.armed) = w.armed := by
    cases command <;> first | exact ite_self _ | cases hquery
  simp only [withoutQueries, withLink, World.delivered, htrace, hrunning, harmed]

/-- It is acknowledged. -/
theorem wp_consumeAck_halted {last : Option Command} (hlast : lastCommand w.trace = last)
    (hw : target.Halted start s w) : (consumeAck : Code τ Unit).wp (target.machine link start) (fun r v =>
      r = .ok () ∧ lastCommand v.trace = last ∧ withoutQueries v = withoutQueries w) w := by
  refine wp_consumeAck_target fun c hnone hacked => ?_
  rw [hw.current] at hacked
  have hok : (World.consumeAck link c w).1 = .ok () := of_decide_eq_true hacked
  rw [World.consumeAck_open hw.opened] at hok ⊢
  dsimp only at hok ⊢
  cases hread : (link.consumeAck c.net w.link).1 with
  | error e =>
    rw [hread] at hok
    exact absurd hok (by simp [Except.map])
  | ok tag =>
    have hopen : (!World.losesConnection (Except.ok tag : Except PyError τ)) = w.sockOpen := by
      rw [hw.opened]
      rfl
    refine ⟨rfl, ?_, ?_⟩
    · simpa [World.ackEvent, lastCommand] using hlast
    · simp only [withoutQueries, withLink, hnone, List.append_nil, hopen,
        filter_isAct_concat (isAct_ackEvent _)]

/-- A packet read yields an answer to the last command. -/
theorem wp_readPacketFromWire_halted (timeout : Option ℕ) {command : Command}
    (hlast : lastCommand w.trace = some command) (hw : target.Halted start s w) :
    (readPacketFromWire timeout : Code τ (Packet τ)).wp (target.machine link start) (fun r v =>
      (∃ packet, r = .ok packet ∧ target.answers s command packet.text = true) ∧
        withoutQueries v = withoutQueries w) w := by
  refine wp_readPacketFromWire_target fun c hreplied => ?_
  rw [hw.current, hlast] at hreplied
  rw [World.readPacket_open hw.opened] at hreplied ⊢
  dsimp only at hreplied ⊢
  cases hread : (link.readPacket c.net w.link).1 with
  | error e =>
    rw [hread] at hreplied
    exact absurd hreplied Bool.false_ne_true
  | ok packet =>
    rw [hread] at hreplied
    have hopen : (!World.losesConnection (Except.ok packet : Except PyError (Packet τ))) = w.sockOpen := by
      rw [hw.opened]
      rfl
    refine ⟨⟨packet, rfl, hreplied⟩, ?_⟩
    simp only [withoutQueries, withLink, hopen, filter_isAct_concat (isAct_readEvent _)]

/-- A query is answered from the state of the target, and changes nothing. -/
theorem wp_cmd_query {command : Command} (hquery : isQuery command = true) (hw : target.Halted start s w) :
    (cmd command : Code τ (Packet τ)).wp (target.machine link start) (fun r v =>
      (∃ packet, r = .ok packet ∧ target.answers s command packet.text = true) ∧
        withoutQueries v = withoutQueries w) w := by
  unfold cmd sendPacket
  rw [Program.bind_eq, Program.bind_eq, Program.wp_bind, Program.wp_bind]
  refine Program.wp_mono ?_ (wp_sendall_query hquery w)
  rintro r₁ v₁ ⟨rfl, hlast₁, hsame₁⟩
  rw [Program.onValue_ok]
  refine Program.wp_mono ?_ (wp_consumeAck_halted hlast₁ (hw.of_same hsame₁))
  rintro r₂ v₂ ⟨rfl, hlast₂, hsame₂⟩
  have hsame := hsame₂.trans hsame₁
  rw [Program.onValue_ok]
  refine Program.wp_mono ?_ (wp_readPacketFromWire_halted none hlast₂ (hw.of_same hsame))
  rintro r₃ v₃ ⟨hpacket, hsame₃⟩
  exact ⟨hpacket, hsame₃.trans hsame⟩

end Queries

section Reads

variable {σ τ N L α : Type} {target : Target σ} {link : Link τ N L} {start s : σ} {w : World τ L}

/-- A read answers with a value, or raises when there is none. -/
def Yields (value : Option α) (r : Except PyError α) : Prop :=
  match value with
  | some a => r = .ok a
  | none => ∃ e, r = .error e

/-- A value is yielded where it is there. -/
theorem yields_ok {value : Option α} {a : α} : Yields value (.ok a) ↔ value = some a := by
  cases value with
  | none => simp [Yields]
  | some b => simp [Yields, eq_comm]

/-- An error is where there is none. -/
theorem yields_error {value : Option α} {e : PyError} : Yields value (.error e) ↔ value = none := by
  cases value with
  | none => simp [Yields]
  | some b => simp [Yields]

/-- The bytes that a read returns: those of the target, where the address is routed. -/
def Target.fetched (target : Target σ) (s : σ) (addr size : ℤ) : Option (List UInt8) :=
  match route addr size with
  | .ok _ => valuesAt (target.memory s) addr size.toNat
  | .error _ => none

/-- The program ends with a result of a kind, and changes nothing. -/
def Reads (target : Target σ) (link : Link τ N L) (start s : σ) (p : Code τ α)
    (good : Except PyError α → Prop) : Prop :=
  ∀ w, target.Halted start s w →
    p.wp (target.machine link start) (fun r v => good r ∧ withoutQueries v = withoutQueries w) w

/-- A value reads nothing. -/
theorem reads_done {a : α} {good : Except PyError α → Prop} (h : good (.ok a)) :
    Reads target link start s (.done a) good := fun _ _ => ⟨h, rfl⟩

/-- Reads one after the other. -/
theorem Reads.bind {β : Type} {p : Code τ α} {f : α → Code τ β} {good : Except PyError α → Prop}
    {fine : Except PyError β → Prop} (hp : Reads target link start s p good)
    (hf : ∀ a, good (.ok a) → Reads target link start s (f a) fine)
    (herror : ∀ e, good (.error e) → fine (.error e)) : Reads target link start s (p.bind f) fine := by
  intro w hw
  rw [Program.wp_bind]
  refine Program.wp_mono ?_ (hp w hw)
  rintro r v ⟨hr, hsame⟩
  cases r with
  | error e => exact ⟨herror e hr, hsame⟩
  | ok a =>
    rw [Program.onValue_ok]
    refine Program.wp_mono ?_ (hf a hr v (hw.of_same hsame))
    exact fun r u hu => ⟨hu.1, hu.2.trans hsame⟩

/-- The same when the first read cannot fail. -/
theorem Reads.bind_value {β : Type} {p : Code τ α} {f : α → Code τ β} {a : α}
    {fine : Except PyError β → Prop} (hp : Reads target link start s p (· = .ok a))
    (hf : Reads target link start s (f a) fine) : Reads target link start s (p.bind f) fine := by
  refine hp.bind (fun a' ha' => ?_) fun e he => ?_
  · have heq : a' = a := Except.ok.inj ha'
    rw [heq]
    exact hf
  · simp at he

/-- A read whose outcome is looked at. -/
theorem Reads.attempt_bind {β : Type} {p : Code τ α} {f : Except PyError α → Code τ β}
    {good : Except PyError α → Prop} {fine : Except PyError β → Prop} (hp : Reads target link start s p good)
    (hf : ∀ outcome, good outcome → Reads target link start s (f outcome) fine) :
    Reads target link start s (p.attempt.bind f) fine := by
  intro w hw
  rw [Program.wp_bind, Program.wp_attempt]
  refine Program.wp_mono ?_ (hp w hw)
  intro r v hv
  rw [Program.onValue_ok]
  refine Program.wp_mono ?_ (hf r hv.1 v (hw.of_same hv.2))
  exact fun r' u hu => ⟨hu.1, hu.2.trans hv.2⟩

/-- What comes behind a read that cannot fail. -/
theorem Reads.wp_bind {β : Type} {p : Code τ α} {f : α → Code τ β} {a : α}
    {Q : Except PyError β → World τ L → Prop} (hp : Reads target link start s p (· = .ok a))
    (hw : target.Halted start s w)
    (hf : ∀ v, withoutQueries v = withoutQueries w → (f a).wp (target.machine link start) Q v) :
    (p.bind f).wp (target.machine link start) Q w := by
  rw [Program.wp_bind]
  refine Program.wp_mono ?_ (hp w hw)
  intro r v hv
  rw [hv.1, Program.onValue_ok]
  exact hf v hv.2

/-- What is read may be weakened. -/
theorem Reads.mono {p : Code τ α} {good fine : Except PyError α → Prop}
    (hp : Reads target link start s p good) (h : ∀ r, good r → fine r) :
    Reads target link start s p fine := fun w hw =>
  Program.wp_mono (fun r _ hv => ⟨h r hv.1, hv.2⟩) (hp w hw)

/-- An outcome reads nothing. -/
theorem reads_ofExcept (r : Except PyError α) :
    Reads target link start s (Program.ofExcept r) (· = r) := by
  intro w _
  rw [Program.wp_ofExcept]
  exact ⟨rfl, rfl⟩

/-- The lock changes no read. -/
theorem Reads.locked {p : Code τ α} {good : Except PyError α → Prop}
    (hp : Reads target link start s p good) : Reads target link start s (locked p) good :=
  fun w hw => wp_locked rfl (hp w hw)

/-- A connected session stays as it is. -/
theorem reads_ensureConnected : Reads target link start s (ensureConnected : Code τ Unit) (· = .ok ()) :=
  fun _ hw => wp_ensureConnected_connected rfl hw.connected ⟨rfl, rfl⟩

/-- No watcher is in the way. -/
theorem reads_refuseIfWatcherRunning (op : String) :
    Reads target link start s (refuseIfWatcherRunning op : Code τ Unit) (· = .ok ()) := by
  intro w hw
  have hidle := hw.unwatched
  unfold refuseIfWatcherRunning watcherAlive
  rw [Program.bind_eq, Program.wp_bind, Program.bind_eq, Program.wp_bind]
  intro c _
  change Program.onValue _ _ _ (.ok w.watcher) w
  rw [Program.onValue_ok]
  cases hwatcher : w.watcher with
  | none => exact ⟨rfl, rfl⟩
  | some thread =>
    rw [hwatcher] at hidle
    have hdead : w.threadAlive thread = false := by simpa using hidle
    intro c' _
    change Program.onValue _ _ _ (.ok (w.threadAlive thread)) w
    rw [Program.onValue_ok, hdead]
    exact ⟨rfl, rfl⟩

/-- A query is answered from the state of the target. -/
theorem reads_cmd {command : Command} (hquery : isQuery command = true) :
    Reads target link start s (cmd command : Code τ (Packet τ))
      (fun r => ∃ packet, r = .ok packet ∧ target.answers s command packet.text = true) :=
  fun _ hw => wp_cmd_query hquery hw

/-- A program that makes something of an answer. -/
theorem reads_cmd_bind {command : Command} (hquery : isQuery command = true) {f : Packet τ → Code τ α}
    {good : Except PyError α → Prop}
    (hf : ∀ packet, target.answers s command packet.text = true → Reads target link start s (f packet) good) :
    Reads target link start s ((cmd command).bind f) good := by
  refine (reads_cmd hquery).bind (fun packet hpacket => ?_) fun e he => ?_
  · obtain ⟨packet', heq, hanswer⟩ := hpacket
    rw [Except.ok.inj heq]
    exact hf packet' hanswer
  · obtain ⟨packet', heq, -⟩ := he
    simp at heq

/-- The reply to a register read is decoded to its bytes. -/
theorem registerReply_toHex (b : UInt8) (blob : List UInt8) :
    registerReply (toHex (b :: blob)) = some (b :: blob) := by
  have hb : b.toNat < 256 := b.toNat_lt
  have hfirst : Nat.digitChar (b.toNat / 16) ≠ 'E' := ne_upperE_digitChar _ (by omega)
  have hdata : ¬(toHex (b :: blob) = [] ∨ startsWith "E".toList (toHex (b :: blob)) = true) := by
    change ¬(Nat.digitChar (b.toNat / 16) :: (Nat.digitChar (b.toNat % 16) :: toHex blob) = [] ∨
      startsWith ['E'] (Nat.digitChar (b.toNat / 16) :: (Nat.digitChar (b.toNat % 16) :: toHex blob)) = true)
    simp [startsWith, Ne.symm hfirst]
  rw [registerReply, if_neg hdata, fromHex_toHex]

/-- The program counter. -/
theorem reads_getPc : Reads target link start s (getPc : Code τ ℕ) (· = .ok (target.pc s).toNat) := by
  have hread : Reads target link start s (readRegister PC : Code τ (Option ℕ))
      (· = .ok (some (target.pc s).toNat)) := by
    refine reads_cmd_bind rfl fun packet hanswer => ?_
    have htext : packet.text = toHex (bigEndian (target.pc s)) := by
      simpa [Target.answers] using hanswer
    have hvalue : (registerReply packet.text).map fromBytesBig = some (target.pc s).toNat := by
      rw [htext, bigEndian, registerReply_toHex, Option.map_some, ← bigEndian, fromBytesBig_bigEndian]
    refine reads_done ?_
    unfold registerReply at hvalue
    rw [← hvalue]
    split_ifs <;> rfl
  refine reads_ensureConnected.bind_value ((reads_refuseIfWatcherRunning _).bind_value ?_)
  exact hread.locked.bind_value (reads_done rfl)

/-- The general registers. -/
theorem reads_getGprs : Reads target link start s (getGprs : Code τ (List ℕ))
    (· = .ok ((target.registers s).map UInt32.toNat)) := by
  have hlength : (target.registers s).length = 32 := List.length_ofFn
  have hread : Reads target link start s (readRegisters : Code τ (List UInt8))
      (· = .ok (block (target.registers s))) := by
    refine reads_cmd_bind rfl fun packet hanswer => ?_
    have htext : packet.text = toHex (block (target.registers s)) := of_decide_eq_true hanswer
    have hfull : block (target.registers s) ≠ [] := by
      intro hempty
      have hnone := congrArg List.length hempty
      rw [length_block, hlength] at hnone
      simp at hnone
    rw [htext, raiseIfError_toHex hfull, fromHexOrRaise_toHex]
    exact reads_done rfl
  refine reads_ensureConnected.bind_value ((reads_refuseIfWatcherRunning _).bind_value ?_)
  refine hread.locked.bind_value (reads_done ?_)
  rw [parseDolphinGprs_block hlength]

/-- Memory through the stub. -/
theorem reads_readMem {addr size : ℤ} (hsize : 0 < size) :
    Reads target link start s (readMem addr size : Code τ (List UInt8))
      (Yields (valuesAt (target.memory s) addr size.toNat)) := by
  refine reads_cmd_bind rfl fun packet hanswer => ?_
  unfold Target.answers at hanswer
  dsimp only at hanswer
  cases hbytes : valuesAt (target.memory s) addr size.toNat with
  | some blob =>
    rw [hbytes] at hanswer
    have htext : packet.text = toHex blob := of_decide_eq_true hanswer
    have hfull : blob ≠ [] := by
      intro hempty
      have hlength := length_of_valuesAt hbytes
      rw [hempty, List.length_nil] at hlength
      omega
    rw [htext, raiseIfError_toHex hfull, fromHexOrRaise_toHex]
    exact reads_done rfl
  | none =>
    rw [hbytes] at hanswer
    dsimp only at hanswer
    have hraised : ∃ e, raiseIfError packet.text (Command.readMem addr size).payload = .error e := by
      cases hcheck : raiseIfError packet.text (Command.readMem addr size).payload with
      | error e => exact ⟨e, rfl⟩
      | ok u =>
        rw [(raiseIfError_context packet.text _).mp hcheck] at hanswer
        exact absurd hanswer Bool.false_ne_true
    obtain ⟨e, he⟩ := hraised
    rw [he]
    exact fun _ _ => ⟨⟨e, rfl⟩, rfl⟩

/-- Memory of the attached process. -/
theorem reads_hostRead (addr : ℤ) (size : ℕ) :
    Reads target link start s (.perform (.hostRead addr size) .ofExcept : Code τ (List UInt8))
      (Yields (valuesAt (target.memory s) addr size)) := by
  intro w hw c hadmitted
  have hallowed := allows_of_admits hadmitted
  have habsorb := absorb_of_allows hallowed
  unfold Target.allows at hallowed
  rw [Bool.and_eq_true] at hallowed
  have hcopied := hallowed.2
  dsimp only at hcopied
  rw [hw.current] at hcopied
  change target.copies (.ok s) addr size (World.hostRead addr size c) = true at hcopied
  change Program.wp _ (Program.ofExcept (World.hostRead addr size c)) _ (w.absorb link c.acts)
  rw [Program.wp_ofExcept, habsorb]
  refine ⟨?_, rfl⟩
  cases hread : World.hostRead addr size c with
  | ok blob =>
    rw [hread] at hcopied
    have hblob : valuesAt (target.memory s) addr size = some blob := of_decide_eq_true hcopied
    rw [hblob]
    rfl
  | error e =>
    rw [hread] at hcopied
    have hnone : valuesAt (target.memory s) addr size = none := Option.isNone_iff_eq_none.mp hcopied
    rw [hnone]
    exact ⟨e, rfl⟩

/-- What is read from addresses that are routed. -/
theorem reads_routed {addr size : ℤ} {p : Code τ (List UInt8)}
    (hp : ∀ routed, route addr size = .ok routed →
      Reads target link start s p (Yields (valuesAt (target.memory s) addr size.toNat))) :
    Reads target link start s ((Program.ofExcept (route addr size)).bind fun _ => p)
      (Yields (target.fetched s addr size)) := by
  refine (reads_ofExcept _).bind (fun routed hrouted => ?_) fun e he => ?_
  · unfold Target.fetched
    rw [← hrouted]
    exact hp routed hrouted.symm
  · unfold Target.fetched
    rw [← he]
    exact ⟨e, rfl⟩

/-- Memory through whichever backend. -/
theorem reads_memRead (addr size : ℤ) : Reads target link start s (memRead addr size : Code τ (List UInt8))
    (Yields (target.fetched s addr size)) := by
  intro w hw c _
  change Program.wp _ (if w.attached = true then _ else _) _ w
  by_cases hattached : w.attached = true
  · rw [if_pos hattached]
    exact reads_routed (fun _ _ => reads_hostRead addr size.toNat) w hw
  · rw [if_neg hattached]
    exact reads_routed (fun _ hroute => reads_readMem (MemoryBackends.spans_of_route hroute).1.positive) w hw

end Reads

section Steps

variable {σ τ N L : Type} {target : Target σ} {link : Link τ N L} {start s : σ} {w v : World τ L}

/-- The session once a stop has been reported. -/
def markedPaused (w : World τ Unit) : World τ Unit :=
  if w.state = .connectedRunning then {w with state := .connectedPaused} else w

/-- A step packet has been sent. -/
def sentStep (w : World τ Unit) : World τ Unit :=
  {w with running := false, trace := w.trace ++ [.sent (.packet .step) true]}

/-- The connection is lost if the failure says so. -/
def brokenBy (failure : StepFailure) (w : World τ Unit) : World τ Unit :=
  {w with sockOpen := !World.losesConnection (.error failure.error : Except PyError Unit)}

/-- What a step comes to. -/
def stepped : Except StepFailure σ → World τ Unit → World τ Unit
  | .ok _, w => markedPaused (sentStep w)
  | .error .unsent, w => brokenBy .unsent w
  | .error failure, w => brokenBy failure (sentStep w)

/-- The connection after a step that is not answered. -/
structure Failing (target : Target σ) (start : σ) (failure : StepFailure) (w : World τ L) : Prop where
  /-- The connection is open. -/
  opened : w.sockOpen = true
  /-- Nothing is stashed. -/
  settled : w.pendingReplies = []
  /-- The last step sent has failed in this way. -/
  current : target.after (.ok start) w.trace = .error failure

/-- What differs by queries alone fails alike. -/
theorem Failing.of_same {failure : StepFailure} (h : Failing target start failure w)
    (hsame : withoutQueries v = withoutQueries w) : Failing target start failure v := by
  have hopen : v.sockOpen = w.sockOpen := (congrArg World.sockOpen hsame :)
  have hpending : v.pendingReplies = w.pendingReplies := (congrArg World.pendingReplies hsame :)
  exact ⟨hopen.trans h.opened, hpending.trans h.settled, (after_of_same hsame _).trans h.current⟩

/-- The state after a step packet. -/
theorem after_step (hw : target.Halted start s w)
    (htrace : v.trace.filter isAct = w.trace.filter isAct ++ [.sent (.packet .step) true]) :
    target.after (.ok start) v.trace = target.next s := by
  have hcurrent := hw.current
  rw [← after_filter] at hcurrent
  rw [← after_filter, htrace, after_append, hcurrent]
  rfl

/-- The target is halted again after a step. -/
theorem halted_sentStep {s' : σ} (hnext : target.next s = .ok s') (hw : target.Halted start s w)
    (hsent : withoutQueries v = sentStep (withoutQueries w)) : target.Halted start s' v := by
  have hstate : v.state = w.state := (congrArg World.state hsent :)
  refine hw.moved ?_ (congrArg World.watcher hsent :) (congrArg World.watchers hsent :)
    (congrArg World.sockOpen hsent :) (congrArg World.pendingReplies hsent :) ?_
  · rw [hstate]
    exact hw.connected
  · exact (after_step hw (congrArg World.trace hsent :)).trans hnext

/-- Whether the packet of a step is sent is up to the step. -/
theorem sends_step (target : Target σ) (s : σ) (r : Except PyError Unit) :
    target.sends (.ok s) (.packet .step) r =
      match target.next s with
      | .error .unsent => decide (r = .error StepFailure.unsent.error)
      | _ => decide (r = .ok ()) := rfl

/-- The packet is not sent. -/
theorem wp_sendall_unsent (hw : target.Halted start s w) (hnext : target.next s = .error .unsent) :
    (sendall (.packet .step)).wp (target.machine link start) (fun r v =>
      r = .error StepFailure.unsent.error ∧ withoutQueries v = brokenBy .unsent (withoutQueries w)) w := by
  refine wp_sendall_target fun c _ hsends => ?_
  rw [hw.current, sends_step, hnext] at hsends
  have hfails := of_decide_eq_true hsends
  refine ⟨hfails, ?_⟩
  unfold World.send at hfails ⊢
  rw [if_pos hw.opened] at hfails ⊢
  split_ifs at hfails ⊢
  rfl

/-- The packet is sent. -/
theorem wp_sendall_step (hw : target.Halted start s w) (hnext : target.next s ≠ .error .unsent) :
    (sendall (.packet .step)).wp (target.machine link start) (fun r v =>
      r = .ok () ∧ lastCommand v.trace = some .step ∧ withoutQueries v = sentStep (withoutQueries w)) w := by
  refine wp_sendall_target fun c hobeyed hsends => ?_
  have hok : (World.send link (.packet .step) c w).1 = .ok () := by
    rw [hw.current, sends_step] at hsends
    split at hsends
    · rename_i hunsent
      exact (hnext hunsent).elim
    · exact of_decide_eq_true hsends
  rw [(World.send_ok hok).2]
  refine ⟨hok, by simp [World.delivered, lastCommand], ?_⟩
  have htrace : (w.trace ++ [Obs.sent (.packet .step) true]).filter isAct =
      w.trace.filter isAct ++ [.sent (.packet .step) true] := List.filter_append _ _
  simp only [withoutQueries, withLink, World.delivered, htrace, sentStep, hobeyed, if_true, runningAfter,
    armedAfter]

/-- A step that fails may be acknowledged still. -/
theorem wp_consumeAck_failing {failure : StepFailure} (hw : Failing target start failure w) :
    (consumeAck : Code τ Unit).wp (target.machine link start) (fun r v =>
      (r = .ok () ∧ withoutQueries v = withoutQueries w) ∨
        r = .error failure.error ∧ withoutQueries v = brokenBy failure (withoutQueries w)) w := by
  refine wp_consumeAck_target fun c hnone hacked => ?_
  rw [hw.current] at hacked
  rw [World.consumeAck_open hw.opened] at hacked ⊢
  dsimp only at hacked ⊢
  cases hread : (link.consumeAck c.net w.link).1 with
  | error e =>
    right
    rw [hread] at hacked
    have he : e = failure.error := by simpa [Target.acknowledges, Except.map] using hacked
    rw [he]
    refine ⟨rfl, ?_⟩
    simp only [withoutQueries, withLink, hnone, List.append_nil, filter_isAct_concat (isAct_ackEvent _),
      losesConnection_error, brokenBy]
  | ok tag =>
    left
    have hopen : (!World.losesConnection (Except.ok tag : Except PyError τ)) = w.sockOpen := by
      rw [hw.opened]
      rfl
    refine ⟨rfl, ?_⟩
    simp only [withoutQueries, withLink, hnone, List.append_nil, hopen, filter_isAct_concat (isAct_ackEvent _)]

/-- It is not answered. -/
theorem wp_readPacketFromWire_failing (timeout : Option ℕ) {failure : StepFailure}
    (hw : Failing target start failure w) :
    (readPacketFromWire timeout : Code τ (Packet τ)).wp (target.machine link start) (fun r v =>
      r = .error failure.error ∧ withoutQueries v = brokenBy failure (withoutQueries w)) w := by
  refine wp_readPacketFromWire_target fun c hreplied => ?_
  rw [hw.current] at hreplied
  rw [World.readPacket_open hw.opened] at hreplied ⊢
  dsimp only at hreplied ⊢
  cases hread : (link.readPacket c.net w.link).1 with
  | ok packet =>
    rw [hread] at hreplied
    exact absurd hreplied Bool.false_ne_true
  | error e =>
    rw [hread] at hreplied
    have he : e = failure.error := of_decide_eq_true hreplied
    rw [he]
    refine ⟨rfl, ?_⟩
    simp only [withoutQueries, withLink, filter_isAct_concat (isAct_readEvent _), losesConnection_error,
      brokenBy]

/-- Without stashed packets a packet is read off the wire. -/
theorem wp_readPacket_settled {M : Machine (signature τ) (Choice τ N) (World τ L)} (hM : M.step = World.step link)
    {timeout : Option ℕ} {Q : Except PyError (Packet τ) → World τ L → Prop} (hsettled : w.pendingReplies = [])
    (h : (readPacketFromWire timeout).wp M Q w) : (GdbClient.readPacket timeout).wp M Q w := by
  have hsame : {w with pendingReplies := w.pendingReplies.tail} = w := by
    cases w
    simp_all
  unfold GdbClient.readPacket
  rw [Program.bind_eq, Program.wp_bind, wp_access]
  intro c _
  rw [hM]
  change Program.onValue _ _ _ (.ok w.pendingReplies.head?) {w with pendingReplies := w.pendingReplies.tail}
  rw [Program.onValue_ok, hsame, hsettled]
  exact h

/-- What the stub reports of a step. -/
def Target.reports (target : Target σ) (outcome : Except StepFailure σ) (r : Except PyError (Packet τ)) : Prop :=
  match outcome with
  | .ok s' => ∃ packet, r = .ok packet ∧ packet.text = target.stopReply s'
  | .error failure => r = .error failure.error

/-- The session is marked where the step has moved the target. -/
theorem withoutQueries_marked (v : World τ L) :
    withoutQueries (if v.state = .connectedRunning then {v with state := .connectedPaused} else v) =
      markedPaused (withoutQueries v) := by
  unfold markedPaused
  by_cases hrunning : v.state = .connectedRunning
  · have hsame : (withoutQueries v).state = .connectedRunning := hrunning
    rw [if_pos hrunning, if_pos hsame]
    rfl
  · have hsame : ¬(withoutQueries v).state = .connectedRunning := hrunning
    rw [if_neg hrunning, if_neg hsame]

/-- What a step waits for once its packet is sent. -/
def stepAnswer : Code τ (Packet τ) :=
  (consumeAck.bind fun _ => GdbClient.readPacket (some 5000)).bind fun raw =>
    (access .markPaused).bind fun _ => .done raw

/-- A step is sent, and answered afterwards. -/
theorem stepLocked_eq : (stepLocked : Code τ (Packet τ)) = (sendall (.packet .step)).bind fun _ => stepAnswer := by
  unfold stepLocked stepInstruction sendPacket stepAnswer
  rw [Program.bind_eq, Program.bind_eq, Program.bind_eq, Program.bind_assoc, Program.bind_assoc,
    Program.bind_assoc]
  rfl

/-- The answer to a step that succeeds. -/
theorem wp_stepAnswer_halted {s' : σ} (hlast : lastCommand w.trace = some .step) (hw : target.Halted start s' w) :
    (stepAnswer : Code τ (Packet τ)).wp (target.machine link start) (fun r v =>
      (∃ packet, r = .ok packet ∧ packet.text = target.stopReply s') ∧
        withoutQueries v = markedPaused (withoutQueries w)) w := by
  unfold stepAnswer
  rw [Program.wp_bind, Program.wp_bind]
  refine Program.wp_mono ?_ (wp_consumeAck_halted hlast hw)
  rintro r₁ v₁ ⟨rfl, hlast₁, hsame₁⟩
  have hv₁ := hw.of_same hsame₁
  rw [Program.onValue_ok]
  refine wp_readPacket_settled rfl hv₁.settled (Program.wp_mono ?_
    (wp_readPacketFromWire_halted (some 5000) hlast₁ hv₁))
  rintro r₂ v₂ ⟨⟨packet, rfl, hanswer⟩, hsame₂⟩
  have htext : packet.text = target.stopReply s' := of_decide_eq_true hanswer
  intro c _
  refine ⟨⟨packet, rfl, htext⟩, ?_⟩
  change withoutQueries (if v₂.state = .connectedRunning then
    {v₂ with state := .connectedPaused} else v₂) = markedPaused (withoutQueries w)
  rw [withoutQueries_marked, hsame₂, hsame₁]

/-- A step that fails has no answer. -/
theorem wp_stepAnswer_failing {failure : StepFailure} (hw : Failing target start failure w) :
    (stepAnswer : Code τ (Packet τ)).wp (target.machine link start) (fun r v =>
      r = .error failure.error ∧ withoutQueries v = brokenBy failure (withoutQueries w)) w := by
  unfold stepAnswer
  rw [Program.wp_bind, Program.wp_bind]
  refine Program.wp_mono ?_ (wp_consumeAck_failing hw)
  rintro r₁ v₁ (⟨rfl, hsame⟩ | ⟨rfl, hlost⟩)
  · have hv₁ := hw.of_same hsame
    rw [Program.onValue_ok]
    refine wp_readPacket_settled rfl hv₁.settled (Program.wp_mono ?_
      (wp_readPacketFromWire_failing (some 5000) hv₁))
    rintro r₂ v₂ ⟨rfl, hlost⟩
    rw [hsame] at hlost
    exact ⟨rfl, hlost⟩
  · exact ⟨rfl, hlost⟩

/-- The connection fails where the packet of a step that is not answered has been sent. -/
theorem failing_sentStep {failure : StepFailure} (hnext : target.next s = .error failure)
    (hw : target.Halted start s w) (hsent : withoutQueries v = sentStep (withoutQueries w)) :
    Failing target start failure v := by
  have hopen : v.sockOpen = w.sockOpen := (congrArg World.sockOpen hsent :)
  have hpending : v.pendingReplies = w.pendingReplies := (congrArg World.pendingReplies hsent :)
  exact ⟨hopen.trans hw.opened, hpending.trans hw.settled,
    (after_step hw (congrArg World.trace hsent :)).trans hnext⟩

/-- The part of a step that holds the lock: it moves the target once, or fails. -/
theorem wp_stepLocked (hw : target.Halted start s w) :
    (stepLocked : Code τ (Packet τ)).wp (target.machine link start) (fun r v =>
      target.reports (target.next s) r ∧ withoutQueries v = stepped (target.next s) (withoutQueries w)) w := by
  rw [stepLocked_eq, Program.wp_bind]
  by_cases hunsent : target.next s = .error .unsent
  · refine Program.wp_mono ?_ (wp_sendall_unsent hw hunsent)
    rintro r₁ v₁ ⟨rfl, hsame⟩
    rw [hunsent]
    exact ⟨rfl, hsame⟩
  · refine Program.wp_mono ?_ (wp_sendall_step hw hunsent)
    rintro r₁ v₁ ⟨rfl, hlast, hsent⟩
    rw [Program.onValue_ok]
    cases hnext : target.next s with
    | ok s' =>
      refine Program.wp_mono ?_ (wp_stepAnswer_halted hlast (halted_sentStep hnext hw hsent))
      rintro r₂ v₂ ⟨hpacket, hsame⟩
      rw [hsent] at hsame
      exact ⟨hpacket, hsame⟩
    | error failure =>
      have hbroken : stepped (Except.error failure : Except StepFailure σ) (withoutQueries w) =
          brokenBy failure (withoutQueries v₁) := by
        rw [hsent]
        cases failure with
        | unsent => exact (hunsent hnext).elim
        | unanswered ending => rfl
      refine Program.wp_mono ?_ (wp_stepAnswer_failing (failing_sentStep hnext hw hsent))
      rintro r₂ v₂ ⟨hraised, hlost⟩
      exact ⟨hraised, hlost.trans hbroken.symm⟩

/-- The target is halted again after a step that succeeds. -/
theorem halted_stepped {s' : σ} (hnext : target.next s = .ok s') (hw : target.Halted start s w)
    (hsame : withoutQueries v = stepped (.ok s' : Except StepFailure σ) (withoutQueries w)) :
    target.Halted start s' v := by
  have hconnected := hw.connected
  change withoutQueries v = markedPaused (sentStep (withoutQueries w)) at hsame
  unfold markedPaused at hsame
  by_cases hrunning : w.state = .connectedRunning
  · rw [if_pos (show (sentStep (withoutQueries w)).state = .connectedRunning from hrunning)] at hsame
    have hstate : v.state = .connectedPaused := (congrArg World.state hsame :)
    refine hw.moved (by rw [hstate]; rfl) (congrArg World.watcher hsame :) (congrArg World.watchers hsame :)
      (congrArg World.sockOpen hsame :) (congrArg World.pendingReplies hsame :) ?_
    exact (after_step hw (congrArg World.trace hsame :)).trans hnext
  · rw [if_neg (show ¬(sentStep (withoutQueries w)).state = .connectedRunning from hrunning)] at hsame
    exact halted_sentStep hnext hw hsame

end Steps

section Samples

/-- Bytes from an address on, and nothing else. -/
def image (base : ℤ) (bytes : List UInt8) (addr : ℤ) : Option UInt8 :=
  if base ≤ addr then bytes[(addr - base).toNat]? else none

/-- A target in one state: its program counter, its stack pointer and its memory; it cannot be stepped. -/
def stillTarget (pc sp : UInt32) (memory : ℤ → Option UInt8) : Target Unit where
  pc _ := pc
  gprs _ i := if i.val = 1 then sp else 0
  memory _ := memory
  next _ := .error (.unanswered .timeout)
  stopReply _ := []

/-- No hexadecimal digit ends a packet. -/
theorem hash_ne_digitChar : ∀ d < 16, UInt8.ofNat (Nat.digitChar d).toNat ≠ 35 := by decide

/-- Hexadecimal digits as a payload. -/
def hexBody (blob : List UInt8) : Body := ⟨asciiBytes (toHex blob), fun hmem => by
  obtain ⟨c, hc, heq⟩ := List.mem_map.mp hmem
  exact forall_toHex (P := fun c => UInt8.ofNat c.toNat ≠ 35) hash_ne_digitChar blob c hc heq⟩

/-- The stub answers a query with a text. -/
def replying (body : Body) : List (Choice StubBehaviour.Origin TokenNet) :=
  [{net := default, response := [.ack (.reply 0), .frame body (.reply 0)]}, {net := default}, {net := default}]

end Samples

end DolphinRe.SteppedTarget
