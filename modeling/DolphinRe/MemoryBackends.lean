import DolphinRe.MemoryPackets
import DolphinRe.PromptStub

/-!
# Two backends for one memory

Memory is read and written through the mappings of the attached process or
through `m` and `M` packets. Where the mappings alias the emulated regions and
the stub serves these packets on the emulated bytes, no sequence of accesses
tells the two apart, and no accepted access leaves its bytes.
-/

namespace DolphinRe.MemoryBackends

open PythonText GdbPackets GdbWire GdbTokens EffectProgram SessionMachine GdbClient SessionTools
  LinkRefinement StubBehaviour PromptStub MemoryWindows MemoryPackets

section Attached

/-- `_Region`: a mapped region of the host process. -/
structure HostRegion where
  /-- Host address of its start. -/
  baseAddr : ℤ
  /-- Number of bytes. -/
  size : ℤ
  deriving DecidableEq, Repr

/-- Size of the mapping of MEM1, of which 24 MB are usable. -/
def MEM1_RESERVED_SIZE : ℤ := 0x02000000
/-- Size of the mapping of MEM2. -/
def MEM2_RESERVED_SIZE : ℤ := 0x04000000

/-- `_pick_first`. -/
def pickFirst (regions : List HostRegion) (wantedSize : ℤ) : Option HostRegion :=
  regions.find? fun r => r.size = wantedSize

/-- `WindowsAttachBackend`. -/
structure AttachBackend where
  /-- Where MEM1 is mapped. -/
  mem1 : HostRegion
  /-- Where MEM2 is mapped. -/
  mem2 : HostRegion
  deriving DecidableEq, Repr

/-- The search for a region in `find_dolphin`; the error is the text of an `AttachError`. -/
def findRegion (name : String) (regions : List HostRegion) (pid : ℕ) (size : ℤ) :
    Except String HostRegion :=
  match pickFirst regions size with
  | some region => .ok region
  | none => .error ("could not find " ++ name ++ " region (size 0x" ++ String.ofList (formatHex size) ++
      ") in PID " ++ toString pid)

/-- `find_dolphin`, given the regions of the process. -/
def findDolphin (pid : ℕ) (regions : List HostRegion) : Except String AttachBackend := do
  let mem1 ← findRegion "MEM1" regions pid MEM1_RESERVED_SIZE
  let mem2 ← findRegion "MEM2" regions pid MEM2_RESERVED_SIZE
  pure ⟨mem1, mem2⟩

/-- The host process: its mapped regions and its bytes. -/
structure HostProcess where
  /-- Mapped regions. -/
  regions : List HostRegion
  /-- Bytes by host address. -/
  bytes : ℤ → UInt8

/-- Whether one mapped region holds a range. -/
def HostProcess.covers (process : HostProcess) (hostAddr size : ℤ) : Bool :=
  process.regions.any fun r => r.baseAddr ≤ hostAddr ∧ hostAddr + size ≤ r.baseAddr + r.size

/-- What the system reports of a range it cannot copy: nothing copied, and `ERROR_PARTIAL_COPY`. -/
def partialCopy (function verb : String) (addr size : ℤ) : PyError :=
  .osError (function ++ "(0x" ++ String.ofList (formatHex addr) ++ "+" ++ toString size ++ ") " ++ verb ++
    " 0/" ++ toString size ++ " (err=299)")

namespace AttachBackend

/-- `_host_addr`. -/
def hostAddr (backend : AttachBackend) (addr size : ℤ) : Except PyError ℤ := do
  let routed ← route addr size
  match routed.region with
  | .mem1 => pure (backend.mem1.baseAddr + routed.offset)
  | .mem2 => pure (backend.mem2.baseAddr + routed.offset)

/-- `WindowsAttachBackend.read`. -/
def read (backend : AttachBackend) (process : HostProcess) (addr size : ℤ) :
    Except PyError (List UInt8) := do
  let hostAddr ← backend.hostAddr addr size
  if process.covers hostAddr size then pure (window process.bytes hostAddr size.toNat)
  else throw (partialCopy "ReadProcessMemory" "read" addr size)

/-- `WindowsAttachBackend.write`; it answers with the process after the write. -/
def write (backend : AttachBackend) (process : HostProcess) (addr : ℤ) (data : List UInt8) :
    Except PyError HostProcess := do
  let hostAddr ← backend.hostAddr addr data.length
  if process.covers hostAddr data.length then
    pure {process with bytes := patch process.bytes hostAddr data}
  else throw (partialCopy "WriteProcessMemory" "wrote" addr data.length)

end AttachBackend

/-- One call of a backend. -/
inductive Access where
  | read (addr size : ℤ)
  | write (addr : ℤ) (data : List UInt8)
  deriving DecidableEq, Repr

/-- First address of a call. -/
def Access.addr : Access → ℤ
  | .read addr _ => addr
  | .write addr _ => addr

/-- Number of bytes of a call. -/
def Access.size : Access → ℤ
  | .read _ size => size
  | .write _ data => data.length

/-- A call of the attached backend: what it returns or raises, and the process after it.
A write returns no bytes. -/
def AttachBackend.call (backend : AttachBackend) (process : HostProcess) :
    Access → Except PyError (List UInt8) × HostProcess
  | .read addr size => (backend.read process addr size, process)
  | .write addr data =>
    match backend.write process addr data with
    | .ok after => (.ok [], after)
    | .error e => (.error e, process)

/-- A sequence of calls of the attached backend; an error does not end it. -/
def AttachBackend.calls (backend : AttachBackend) :
    List Access → HostProcess → List (Except PyError (List UInt8)) × HostProcess
  | [], process => ([], process)
  | access :: accesses, process =>
    let (result, after) := backend.call process access
    let (results, last) := backend.calls accesses after
    (result :: results, last)

end Attached

section Stub

variable {τ : Type}

/-- A call of `GDBMemoryBackend`; a write returns no bytes. -/
def gdbCall : Access → Code τ (List UInt8)
  | .read addr size => gdbRead addr size
  | .write addr data => do
    gdbWrite addr data
    pure []

/-- The memory after one event on the connection. -/
def memoryStep (memory : ℤ → UInt8) : Obs τ → (ℤ → UInt8)
  | .sent (.packet command) _ =>
    match readRequest command.payload with
    | some request => (serve memory request).1
    | none => memory
  | _ => memory

/-- The emulated memory once the stub has served what was sent. -/
def memoryAfter (memory : ℤ → UInt8) (trace : List (Obs τ)) : ℤ → UInt8 := trace.foldl memoryStep memory

/-- The stub acknowledges a packet and answers it with one text. -/
def repliesWith (text : Str) : List (Token τ) → Bool
  | [.ack _, .frame body _] => body.val = asciiBytes text
  | _ => false

/-- The stub serves memory packets on the emulated bytes, sends nothing else, and is heard in time. -/
def Serves (memory : ℤ → UInt8) : Discipline Origin := fun o c w answer =>
  c.acts = [] ∧ inTime o answer = true ∧
    match o with
    | .send (.packet command) =>
      match readRequest command.payload with
      | some request => repliesWith (serve (memoryAfter memory w.trace) request).2 c.response = true
      | none => True
    | _ => True

instance (memory : ℤ → UInt8) (o : Op Origin) (c : Choice Origin Unit) (w : World Origin Unit)
    (answer : o.Answer) : Decidable (Serves memory o c w answer) := by
  unfold Serves
  induction o using Op.casesOn with
  | send message =>
    induction message using Sent.casesOn with
    | interrupt => infer_instance
    | packet command =>
      dsimp only
      cases readRequest command.payload <;> infer_instance
  | _ => infer_instance

/-- A sequence of calls of the packet backend; an error does not end it. -/
inductive Calls (memory : ℤ → UInt8) : List Access → World Origin (Buffers Origin) →
    List (Except PyError (List UInt8)) → World Origin (Buffers Origin) → Prop
  | nil (w) : Calls memory [] w [] w
  | cons {access accesses w u v result results}
      (first : (gdbCall access).Reaches (disciplined (byteLink Origin) (Serves memory)) w result u)
      (others : Calls memory accesses u results v) :
      Calls memory (access :: accesses) w (result :: results) v

end Stub

/-- First address of a region. -/
def base : Region → ℤ
  | .mem1 => MEM1_BASE
  | .mem2 => MEM2_BASE

/-- Number of bytes of a region. -/
def length : Region → ℕ
  | .mem1 => 0x01800000
  | .mem2 => 0x04000000

theorem base_nonneg (region : Region) : 0 ≤ base region := by
  cases region <;> decide

section Emulated

variable {addr size : ℤ} {region : Region}

/-- A range that is not empty lies in one region. -/
structure Spans (region : Region) (addr size : ℤ) : Prop where
  /-- It is not empty. -/
  positive : 0 < size
  /-- It starts in the region. -/
  above : base region ≤ addr
  /-- It ends in the region. -/
  below : addr + size ≤ base region + length region

theorem Spans.nonneg (h : Spans region addr size) : 0 ≤ addr := by
  have hbase := base_nonneg region
  have habove := h.above
  omega

/-- `route` accepts what lies in one region. -/
theorem route_spans (h : Spans region addr size) :
    ∃ left, route addr size = .ok ⟨region, addr - base region, left⟩ := by
  obtain ⟨hpositive, habove, hbelow⟩ := h
  have hsize : ¬size ≤ 0 := by omega
  cases region with
  | mem1 =>
    simp only [base, length, MEM1_BASE] at habove hbelow
    have hin : MEM1_BASE ≤ addr ∧ addr < MEM1_END := by
      simp only [MEM1_BASE, MEM1_END]
      omega
    have hcross : ¬MEM1_END < addr + size := by
      simp only [MEM1_END]
      omega
    exact ⟨MEM1_END - addr, by rw [route, if_neg hsize, if_pos hin, if_neg hcross]; rfl⟩
  | mem2 =>
    simp only [base, length, MEM2_BASE] at habove hbelow
    have hout : ¬(MEM1_BASE ≤ addr ∧ addr < MEM1_END) := by
      simp only [MEM1_BASE, MEM1_END]
      omega
    have hin : MEM2_BASE ≤ addr ∧ addr < MEM2_END := by
      simp only [MEM2_BASE, MEM2_END]
      omega
    have hcross : ¬MEM2_END < addr + size := by
      simp only [MEM2_END]
      omega
    exact ⟨MEM2_END - addr, by rw [route, if_neg hsize, if_neg hout, if_pos hin, if_neg hcross]; rfl⟩

/-- It accepts nothing else. -/
theorem spans_of_route {routed : RoutedAddress} (h : route addr size = .ok routed) :
    Spans routed.region addr size ∧ routed.offset = addr - base routed.region := by
  unfold route at h
  split_ifs at h with hsize hmem1 hcross1 hmem2 hcross2
  · simp only [Except.ok.injEq] at h
    subst h
    simp only [MEM1_BASE, MEM1_END] at hmem1 hcross1
    refine ⟨⟨by omega, ?_, ?_⟩, rfl⟩
    · simp only [base, MEM1_BASE]
      omega
    · simp only [base, length, MEM1_BASE]
      omega
  · simp only [Except.ok.injEq] at h
    subst h
    simp only [MEM2_BASE, MEM2_END] at hmem2 hcross2
    refine ⟨⟨by omega, ?_, ?_⟩, rfl⟩
    · simp only [base, MEM2_BASE]
      omega
    · simp only [base, length, MEM2_BASE]
      omega

/-- What a call is for: it reads or writes the emulated memory if its range lies in one region. -/
def emulate (memory : ℤ → UInt8) : Access → Except PyError (List UInt8) × (ℤ → UInt8)
  | .read addr size => ((route addr size).map fun _ => window memory addr size.toNat, memory)
  | .write addr data =>
    match route addr data.length with
    | .ok _ => (.ok [], patch memory addr data)
    | .error e => (.error e, memory)

end Emulated

section Served

variable {τ : Type} {memory : ℤ → UInt8} {w : TokenWorld} {text : Str} {command : Command}
  {request : Request}

/-- The tools over tokens with a stub that serves memory packets. -/
abbrev servingMachine (memory : ℤ → UInt8) :
    Machine (signature Origin) (Choice Origin TokenNet) TokenWorld :=
  disciplined (tokenLink Origin) (Serves memory)

/-- An open connection holds some unread tokens, and the memory has some contents. -/
structure Holding (memory : ℤ → UInt8) (unread : Tokens) (contents : ℤ → UInt8) (w : TokenWorld) :
    Prop where
  /-- The connection is open. -/
  connected : w.sockOpen = true
  /-- Those tokens are unread. -/
  unread : w.link = unread
  /-- The writes so far have left these contents. -/
  contents : memoryAfter memory w.trace = contents

theorem repliesWith_iff {response : List (Token τ)} : repliesWith text response = true ↔
    ∃ tag body tag', response = [.ack tag, .frame body tag'] ∧ body.val = asciiBytes text := by
  constructor
  · intro h
    unfold repliesWith at h
    split at h
    · rename_i tag body tag'
      exact ⟨tag, body, tag', rfl, of_decide_eq_true h⟩
    · exact absurd h Bool.false_ne_true
  · rintro ⟨tag, body, tag', rfl, hbody⟩
    exact decide_eq_true hbody

theorem memoryAfter_append (memory : ℤ → UInt8) (trace events : List (Obs τ)) :
    memoryAfter memory (trace ++ events) = memoryAfter (memoryAfter memory trace) events :=
  List.foldl_append

variable {contents : ℤ → UInt8}

/-- The packet arrives and is served, and its answer is unread. -/
theorem wp_sendall_served (hrequest : readRequest command.payload = some request)
    (hw : Holding memory [] contents w) :
    (sendall (.packet command)).wp (servingMachine memory) (fun r v => r = .ok () ∧
      ∃ tag body tag', body.val = asciiBytes (serve contents request).2 ∧
        Holding memory [.ack tag, .frame body tag'] (serve contents request).1 v) w := by
  rw [wp_sendall]
  rintro c ⟨-, hacts, hin, hreply⟩
  have hquiet : c.acts = [] := hacts
  have hserved : repliesWith (serve (memoryAfter memory w.trace) request).2 c.response = true := by
    have hmatch : (match readRequest command.payload with
      | some request => repliesWith (serve (memoryAfter memory w.trace) request).2 c.response = true
      | none => True) := hreply
    rw [hrequest] at hmatch
    exact hmatch
  obtain ⟨tag, body, tag', hresponse, hbody⟩ := repliesWith_iff.mp hserved
  rw [hw.contents] at hbody
  have habsorb : w.absorb (tokenLink Origin) c.acts = w := by rw [hquiet]; rfl
  change inTime (.send (.packet command)) (World.send (tokenLink Origin) (.packet command) c
    (w.absorb (tokenLink Origin) c.acts)).1 = true at hin
  change (World.send (tokenLink Origin) (.packet command) c (w.absorb _ c.acts)).1 = .ok () ∧ ∃ tag body tag',
    _ ∧ Holding memory _ _ (World.send (tokenLink Origin) (.packet command) c (w.absorb _ c.acts)).2
  rw [habsorb] at hin ⊢
  cases hsent : (World.send (tokenLink Origin) (.packet command) c w).1 with
  | error e =>
    rw [hsent] at hin
    exact absurd hin Bool.false_ne_true
  | ok u =>
    obtain ⟨-, hdelivered⟩ := World.send_ok hsent
    rw [hdelivered]
    refine ⟨rfl, tag, body, tag', hbody, hw.connected, ?_, ?_⟩
    · change w.link ++ c.response = _
      rw [hw.unread, hresponse]
      rfl
    · change memoryAfter memory (w.trace ++ [.sent (.packet command) c.obeyed]) = _
      rw [memoryAfter_append, hw.contents]
      change (match readRequest command.payload with
        | some request => (serve contents request).1
        | none => contents) = _
      rw [hrequest]

/-- The acknowledgement comes first. -/
theorem wp_consumeAck_served {tag : Origin} {rest : Tokens}
    (hw : Holding memory (.ack tag :: rest) contents w) :
    (consumeAck : Code Origin Unit).wp (servingMachine memory)
      (fun r v => r = .ok () ∧ Holding memory rest contents v) w := by
  rw [wp_consumeAck]
  rintro c ⟨-, hacts, hin, -⟩
  have hquiet : c.acts = [] := hacts
  have habsorb : w.absorb (tokenLink Origin) c.acts = w := by rw [hquiet]; rfl
  change inTime .consumeAck (World.consumeAck (tokenLink Origin) c
    (w.absorb (tokenLink Origin) c.acts)).1 = true at hin
  change (World.consumeAck (tokenLink Origin) c (w.absorb _ c.acts)).1 = .ok () ∧
    Holding memory rest contents (World.consumeAck (tokenLink Origin) c (w.absorb _ c.acts)).2
  rw [habsorb, World.consumeAck_open hw.connected] at hin ⊢
  have hread : (tokenLink Origin).consumeAck c.net w.link = (.ok tag, [], rest) ∨
      ∃ e, ((tokenLink Origin).consumeAck c.net w.link).1 = .error e := by
    rw [hw.unread]
    change takeAck _ _ _ _ = _ ∨ ∃ e, (takeAck _ _ _ _).1 = _
    have hnone : ∀ t ∈ ([] : Tokens), isStopFrame t = true := fun _ h => absurd h List.not_mem_nil
    exact takeAck_through_stops hnone _ _ _ tag rest
  rcases hread with hread | ⟨e, hread⟩
  · rw [hread]
    refine ⟨rfl, rfl, rfl, ?_⟩
    change memoryAfter memory (w.trace ++ [.acked tag]) = contents
    rw [memoryAfter_append, hw.contents]
    rfl
  · rw [hread] at hin
    exact absurd hin Bool.false_ne_true

/-- The frame behind it is the answer. -/
theorem wp_read_served {body : Body} {tag : Origin} {rest : Tokens} (timeout : Option ℕ)
    (hw : Holding memory (.frame body tag :: rest) contents w) :
    (readPacketFromWire timeout).wp (servingMachine memory)
      (fun r v => r = .ok (framePacket body tag) ∧ Holding memory rest contents v) w := by
  rw [wp_readPacketFromWire]
  rintro c ⟨-, hacts, hin, -⟩
  have hquiet : c.acts = [] := hacts
  have habsorb : w.absorb (tokenLink Origin) c.acts = w := by rw [hquiet]; rfl
  change inTime (.readPacketFromWire timeout) (World.readPacket (tokenLink Origin) c
    (w.absorb (tokenLink Origin) c.acts)).1 = true at hin
  change (World.readPacket (tokenLink Origin) c (w.absorb _ c.acts)).1 = .ok (framePacket body tag) ∧
    Holding memory rest contents (World.readPacket (tokenLink Origin) c (w.absorb _ c.acts)).2
  rw [habsorb, World.readPacket_open hw.connected] at hin ⊢
  have hread : (tokenLink Origin).readPacket c.net w.link = (.ok (framePacket body tag), rest) ∨
      ∃ e, ((tokenLink Origin).readPacket c.net w.link).1 = .error e := by
    rw [hw.unread]
    exact takeFrame_head c.net body tag rest
  rcases hread with hread | ⟨e, hread⟩
  · rw [hread]
    refine ⟨rfl, rfl, rfl, ?_⟩
    change memoryAfter memory (w.trace ++ [.got (framePacket body tag)]) = contents
    rw [memoryAfter_append, hw.contents]
    rfl
  · rw [hread] at hin
    exact absurd hin Bool.false_ne_true

/-- A memory packet is answered with the text it is served with. -/
theorem wp_cmd_served (hrequest : readRequest command.payload = some request)
    (hw : Holding memory [] contents w) :
    (cmd command).wp (servingMachine memory) (fun r v => Holding memory [] (serve contents request).1 v ∧
      ∃ tag, r = .ok ⟨(serve contents request).2, tag⟩) w := by
  unfold cmd sendPacket
  rw [Program.bind_eq, Program.bind_eq, Program.wp_bind, Program.wp_bind]
  refine Program.wp_mono ?_ (wp_sendall_served hrequest hw)
  rintro r₁ v₁ ⟨rfl, tag, body, tag', hbody, hv₁⟩
  refine Program.wp_mono ?_ (wp_consumeAck_served hv₁)
  rintro r₂ v₂ ⟨rfl, hv₂⟩
  refine Program.wp_mono ?_ (wp_read_served none hv₂)
  rintro r₃ v₃ ⟨rfl, hv₃⟩
  refine ⟨hv₃, tag', ?_⟩
  rw [framePacket, hbody, decodeReplace_serve]

theorem wp_gdbRead (addr size : ℤ) (hw : Holding memory [] contents w) :
    (gdbRead addr size).wp (servingMachine memory)
      (fun r v => r = (emulate contents (.read addr size)).1 ∧ Holding memory [] contents v) w := by
  unfold gdbRead
  rw [Program.bind_eq, Program.wp_bind, Program.wp_ofExcept]
  cases hroute : route addr size with
  | error e =>
    refine ⟨?_, hw⟩
    simp only [emulate, hroute, Except.map]
  | ok routed =>
    obtain ⟨hspans, -⟩ := spans_of_route hroute
    have haddr : 0 ≤ addr := hspans.nonneg
    have hsize : 0 < size := hspans.positive
    change (readMem addr size).wp _ _ w
    unfold readMem
    rw [Program.bind_eq, Program.wp_bind]
    refine Program.wp_mono ?_ (wp_cmd_served (readRequest_readMem haddr (by omega)) hw)
    rintro r v ⟨hv, tag, rfl⟩
    have hcast : ((addr.toNat : ℕ) : ℤ) = addr := Int.toNat_of_nonneg haddr
    have hfull : window contents addr.toNat size.toNat ≠ [] := by
      intro hempty
      have hlength := length_window contents addr.toNat size.toNat
      rw [hempty, List.length_nil] at hlength
      omega
    simp only [serve, Program.onValue_ok, Program.bind_eq, Program.wp_bind, Program.wp_ofExcept,
      raiseIfError_toHex hfull, fromHexOrRaise_toHex]
    refine ⟨?_, hv⟩
    simp only [emulate, hroute, Except.map, hcast]

theorem wp_gdbWrite (addr : ℤ) (data : List UInt8) (hw : Holding memory [] contents w) :
    (gdbWrite addr data).wp (servingMachine memory)
      (fun r v => r.map (fun _ => []) = (emulate contents (.write addr data)).1 ∧
        Holding memory [] (emulate contents (.write addr data)).2 v) w := by
  unfold gdbWrite
  rw [Program.bind_eq, Program.wp_bind, Program.wp_ofExcept]
  cases hroute : route addr data.length with
  | error e =>
    simp only [emulate, hroute, Program.onValue_error, Except.map]
    exact ⟨trivial, hw⟩
  | ok routed =>
    obtain ⟨hspans, -⟩ := spans_of_route hroute
    have haddr : 0 ≤ addr := hspans.nonneg
    have hcast : ((addr.toNat : ℕ) : ℤ) = addr := Int.toNat_of_nonneg haddr
    change (writeMem addr data).wp _ _ w
    unfold writeMem
    rw [Program.bind_eq, Program.wp_bind]
    refine Program.wp_mono ?_ (wp_cmd_served (readRequest_writeMem haddr data) hw)
    rintro r v ⟨hv, tag, rfl⟩
    have hok : ∀ context, raiseIfError "OK".toList context = .ok () := fun _ => rfl
    simp only [serve, Program.onValue_ok, Program.bind_eq, Program.wp_bind, Program.wp_ofExcept, hok]
    simp only [emulate, hroute]
    rw [serve, hcast] at hv
    exact ⟨rfl, hv⟩

/-- The packet backend reads and writes the emulated memory. -/
theorem wp_gdbCall (access : Access) (hw : Holding memory [] contents w) :
    (gdbCall access).wp (servingMachine memory) (fun r v => r = (emulate contents access).1 ∧
      Holding memory [] (emulate contents access).2 v) w := by
  cases access with
  | read addr size => exact wp_gdbRead addr size hw
  | write addr data =>
    change ((gdbWrite addr data).bind fun _ => .done []).wp _ _ w
    rw [Program.wp_bind]
    refine Program.wp_mono ?_ (wp_gdbWrite addr data hw)
    rintro r v ⟨hr, hv⟩
    cases r with
    | ok _ => exact ⟨hr, hv⟩
    | error e => exact ⟨hr, hv⟩

end Served

section Mapping

variable {pid : ℕ} {process : HostProcess} {backend : AttachBackend} {memory : ℤ → UInt8}
  {addr size : ℤ}

/-- Where a region is mapped. -/
def AttachBackend.hostRegion (backend : AttachBackend) : Region → HostRegion
  | .mem1 => backend.mem1
  | .mem2 => backend.mem2

/-- Host address of an emulated one. -/
def AttachBackend.translate (backend : AttachBackend) (region : Region) (addr : ℤ) : ℤ :=
  (backend.hostRegion region).baseAddr + (addr - base region)

/-- The mappings have been found in the process and do not overlap. -/
structure Mapped (pid : ℕ) (process : HostProcess) (backend : AttachBackend) : Prop where
  /-- The search has found them. -/
  found : findDolphin pid process.regions = .ok backend
  /-- One ends before the other starts. -/
  disjoint : backend.mem1.baseAddr + backend.mem1.size ≤ backend.mem2.baseAddr ∨
    backend.mem2.baseAddr + backend.mem2.size ≤ backend.mem1.baseAddr

/-- The mappings show the emulated regions. -/
def Aliased (backend : AttachBackend) (process : HostProcess) (memory : ℤ → UInt8) : Prop :=
  ∀ region, Mirrors process.bytes (backend.hostRegion region).baseAddr memory (base region) (length region)

theorem findRegion_ok {name : String} {regions : List HostRegion} {wanted : ℤ} {r : HostRegion}
    (h : findRegion name regions pid wanted = .ok r) : r ∈ regions ∧ r.size = wanted := by
  unfold findRegion pickFirst at h
  cases hfind : regions.find? fun r => r.size = wanted with
  | none => simp [hfind] at h
  | some found =>
    simp only [hfind, Except.ok.injEq] at h
    subst h
    exact ⟨List.mem_of_find?_eq_some hfind, by simpa using List.find?_some hfind⟩

/-- A mapping is one of the process and holds its region. -/
theorem Mapped.hostRegion (h : Mapped pid process backend) (region : Region) :
    backend.hostRegion region ∈ process.regions ∧ length region ≤ (backend.hostRegion region).size := by
  have hfound := h.found
  unfold findDolphin at hfound
  cases hmem1 : findRegion "MEM1" process.regions pid MEM1_RESERVED_SIZE with
  | error e =>
    rw [hmem1] at hfound
    cases hfound
  | ok mem1 =>
    cases hmem2 : findRegion "MEM2" process.regions pid MEM2_RESERVED_SIZE with
    | error e =>
      rw [hmem1, hmem2] at hfound
      cases hfound
    | ok mem2 =>
      have hbackend : (⟨mem1, mem2⟩ : AttachBackend) = backend := by
        rw [hmem1, hmem2] at hfound
        exact Except.ok.inj hfound
      subst hbackend
      obtain ⟨hin1, hsize1⟩ := findRegion_ok hmem1
      obtain ⟨hin2, hsize2⟩ := findRegion_ok hmem2
      cases region with
      | mem1 => exact ⟨hin1, by simp only [AttachBackend.hostRegion, hsize1, length]; decide⟩
      | mem2 => exact ⟨hin2, by simp only [AttachBackend.hostRegion, hsize2, length]; decide⟩

/-- An accepted range is translated into the mapping of its region. -/
theorem hostAddr_spans {region : Region} (h : Spans region addr size) :
    backend.hostAddr addr size = .ok (backend.translate region addr) := by
  obtain ⟨left, hroute⟩ := route_spans h
  unfold AttachBackend.hostAddr
  rw [hroute]
  cases region <;> rfl

theorem hostAddr_error {e : PyError} (h : route addr size = .error e) :
    backend.hostAddr addr size = .error e := by
  unfold AttachBackend.hostAddr
  rw [h]
  rfl

/-- The process can be read and written there. -/
theorem covers_spans (hmapped : Mapped pid process backend) {region : Region}
    (h : Spans region addr size) : process.covers (backend.translate region addr) size = true := by
  obtain ⟨hmem, hlength⟩ := hmapped.hostRegion region
  obtain ⟨hpositive, habove, hbelow⟩ := h
  unfold HostProcess.covers
  rw [List.any_eq_true]
  refine ⟨backend.hostRegion region, hmem, decide_eq_true ?_⟩
  unfold AttachBackend.translate
  omega

/-- The translation goes by the distance from the start of the region. -/
theorem translate_eq (backend : AttachBackend) {region : Region} (h : Spans region addr size) :
    backend.translate region addr =
        (backend.hostRegion region).baseAddr + ((addr - base region).toNat : ℤ) ∧
      addr = base region + ((addr - base region).toNat : ℤ) ∧
      (addr - base region).toNat + size.toNat ≤ length region := by
  obtain ⟨hpositive, habove, hbelow⟩ := h
  unfold AttachBackend.translate
  omega

/-- Accepted reads see the same bytes on both sides. -/
theorem window_translate (halias : Aliased backend process memory) {region : Region}
    (h : Spans region addr size) :
    window process.bytes (backend.translate region addr) size.toNat = window memory addr size.toNat := by
  obtain ⟨hhost, haddr, hfits⟩ := translate_eq backend h
  have hpart := (halias region).part hfits
  rw [← hhost, ← haddr] at hpart
  exact hpart.window_eq

/-- The mappings of two regions do not overlap, and neither do the regions. -/
theorem apart_of_ne (hmapped : Mapped pid process backend) {region other : Region}
    (h : other ≠ region) :
    ((backend.hostRegion region).baseAddr + length region ≤ (backend.hostRegion other).baseAddr ∨
        (backend.hostRegion other).baseAddr + length other ≤ (backend.hostRegion region).baseAddr) ∧
      (base region + length region ≤ base other ∨ base other + length other ≤ base region) := by
  have hdisjoint := hmapped.disjoint
  have hsize1 : (length .mem1 : ℤ) ≤ backend.mem1.size := (hmapped.hostRegion .mem1).2
  have hsize2 : (length .mem2 : ℤ) ≤ backend.mem2.size := (hmapped.hostRegion .mem2).2
  cases region with
  | mem1 =>
    cases other with
    | mem1 => exact absurd rfl h
    | mem2 => exact ⟨by simp only [AttachBackend.hostRegion]; omega, by decide⟩
  | mem2 =>
    cases other with
    | mem1 => exact ⟨by simp only [AttachBackend.hostRegion]; omega, by decide⟩
    | mem2 => exact absurd rfl h

/-- Accepted writes keep the mappings showing the regions. -/
theorem aliased_patch (hmapped : Mapped pid process backend) (halias : Aliased backend process memory)
    {region : Region} {data : List UInt8} (h : Spans region addr data.length) :
    Aliased backend {process with bytes := patch process.bytes (backend.translate region addr) data}
      (patch memory addr data) := by
  obtain ⟨hhost, haddr, hfits⟩ := translate_eq backend h
  intro other
  by_cases hother : other = region
  · subst hother
    have hpatch := (halias other).patch (addr - base other).toNat data
    rw [← hhost, ← haddr] at hpatch
    exact hpatch
  · obtain ⟨hhosts, hbases⟩ := apart_of_ne hmapped hother
    exact (halias other).apart (by omega) (by omega)

end Mapping

section Agreement

variable {pid : ℕ} {process : HostProcess} {backend : AttachBackend} {memory : ℤ → UInt8}

theorem write_error (backend : AttachBackend) (process : HostProcess) {addr : ℤ}
    {data : List UInt8} {e : PyError} (h : route addr data.length = .error e) :
    backend.write process addr data = .error e := by
  unfold AttachBackend.write
  rw [hostAddr_error h]
  rfl

/-- A write whose range lies in one region patches the mapping of that region. -/
theorem write_spans (hmapped : Mapped pid process backend) {region : Region} {addr : ℤ}
    {data : List UInt8} (h : Spans region addr data.length) : backend.write process addr data =
      .ok {process with bytes := patch process.bytes (backend.translate region addr) data} := by
  unfold AttachBackend.write
  rw [hostAddr_spans h]
  change (if process.covers (backend.translate region addr) data.length = true then _ else _) = _
  rw [if_pos (covers_spans hmapped h)]
  rfl

/-- The attached backend reads and writes the emulated memory. -/
theorem call_emulates (hmapped : Mapped pid process backend) (halias : Aliased backend process memory)
    (access : Access) : (backend.call process access).1 = (emulate memory access).1 ∧
      Aliased backend (backend.call process access).2 (emulate memory access).2 ∧
      (backend.call process access).2.regions = process.regions := by
  cases access with
  | read addr size =>
    refine ⟨?_, halias, rfl⟩
    change backend.read process addr size = (route addr size).map fun _ => window memory addr size.toNat
    unfold AttachBackend.read
    cases hroute : route addr size with
    | error e =>
      rw [hostAddr_error hroute]
      rfl
    | ok routed =>
      obtain ⟨hspans, -⟩ := spans_of_route hroute
      rw [hostAddr_spans hspans]
      change (if process.covers (backend.translate routed.region addr) size = true then _ else _) = _
      rw [if_pos (covers_spans hmapped hspans), window_translate halias hspans]
      rfl
  | write addr data =>
    cases hroute : route addr data.length with
    | error e =>
      have hwrite := write_error backend process hroute
      simp only [AttachBackend.call, emulate, hwrite, hroute]
      exact ⟨trivial, halias, trivial⟩
    | ok routed =>
      obtain ⟨hspans, -⟩ := spans_of_route hroute
      have hwrite := write_spans hmapped hspans
      simp only [AttachBackend.call, emulate, hwrite, hroute]
      exact ⟨trivial, aliased_patch hmapped halias hspans, trivial⟩

/-- An open connection has nothing unread. -/
def Drained (w : World Origin (Buffers Origin)) : Prop := w.sockOpen = true ∧ w.link.unread = []

/-- A call of the packet backend, byte by byte. -/
theorem reaches_gdbCall {access : Access} {w v : World Origin (Buffers Origin)}
    {r : Except PyError (List UInt8)} (hw : Drained w)
    (h : (gdbCall access).Reaches (disciplined (byteLink Origin) (Serves memory)) w r v) :
    r = (emulate (memoryAfter memory w.trace) access).1 ∧
      memoryAfter memory v.trace = (emulate (memoryAfter memory w.trace) access).2 ∧ Drained v := by
  obtain ⟨hopen, hunread⟩ := hw
  have hsame : Same Renders w (withLink w []) := ⟨[], rfl, hunread⟩
  have hholding : Holding memory [] (memoryAfter memory w.trace) (withLink w []) := ⟨hopen, rfl, rfl⟩
  have hbytes := (disciplined_simulates byteLink_refines (Serves memory)).wp
    (Q := fun r v => r = (emulate (memoryAfter memory w.trace) access).1 ∧
      memoryAfter memory v.trace = (emulate (memoryAfter memory w.trace) access).2 ∧ Drained v)
    (by
      rintro r v v' ⟨left, rfl, hleft⟩ ⟨hr, hv⟩
      have hnone : left = [] := hv.unread
      subst hnone
      exact ⟨hr, hv.contents, hv.connected, hleft⟩)
    hsame (wp_gdbCall access hholding)
  exact Program.reaches_of_wp hbytes h

/-- An access touches its own bytes only. One that is rejected changes nothing; one that
is accepted lies in one region, reads exactly its bytes, and writes none but them. -/
structure Confined (backend : AttachBackend) (process : HostProcess) (contents : ℤ → UInt8)
    (access : Access) (result : Except PyError (List UInt8)) (left : ℤ → UInt8) : Prop where
  /-- A rejected access leaves both memories as they were. -/
  rejected : ∀ e, result = .error e →
    (backend.call process access).2 = process ∧ left = contents
  /-- An accepted one lies in a region, and concerns its own bytes alone. -/
  accepted : ∀ bytes, result = .ok bytes → ∃ region, Spans region access.addr access.size ∧
    (∀ addr size, access = .read addr size → bytes = window contents addr size.toNat ∧
      bytes = window process.bytes (backend.translate region addr) size.toNat ∧
      (backend.call process access).2 = process ∧ left = contents) ∧
    (∀ addr data, access = .write addr data → window left addr data.length = data) ∧
    (∀ x, x < access.addr ∨ access.addr + access.size ≤ x → left x = contents x) ∧
    ∀ x, x < backend.translate region access.addr ∨
      backend.translate region access.addr + access.size ≤ x →
      (backend.call process access).2.bytes x = process.bytes x

/-- Both memories change at the bytes of the access only. -/
theorem confined_emulate (hmapped : Mapped pid process backend)
    (halias : Aliased backend process memory) (access : Access) :
    Confined backend process memory access (emulate memory access).1 (emulate memory access).2 := by
  cases access with
  | read addr size =>
    refine ⟨fun _ _ => ⟨rfl, rfl⟩, fun bytes hbytes => ?_⟩
    cases hroute : route addr size with
    | error e =>
      simp only [emulate, hroute, Except.map] at hbytes
      cases hbytes
    | ok routed =>
      obtain ⟨hspans, -⟩ := spans_of_route hroute
      have hread : bytes = window memory addr size.toNat := by
        simp only [emulate, hroute, Except.map, Except.ok.injEq] at hbytes
        exact hbytes.symm
      have hhost : bytes = window process.bytes (backend.translate routed.region addr) size.toNat := by
        rw [hread, window_translate halias hspans]
      refine ⟨routed.region, hspans, fun addr' size' haccess => ?_, fun _ _ h => (nomatch h),
        fun _ _ => rfl, fun _ _ => rfl⟩
      cases haccess
      exact ⟨hread, hhost, rfl, rfl⟩
  | write addr data =>
    cases hroute : route addr data.length with
    | error e =>
      have hwrite := write_error backend process hroute
      refine ⟨fun _ _ => ?_, fun bytes hbytes => ?_⟩
      · simp only [AttachBackend.call, emulate, hwrite, hroute, and_self]
      · simp only [emulate, hroute] at hbytes
        cases hbytes
    | ok routed =>
      obtain ⟨hspans, -⟩ := spans_of_route hroute
      have hwrite := write_spans hmapped hspans
      refine ⟨fun e he => ?_, fun bytes _ => ?_⟩
      · simp only [emulate, hroute] at he
        cases he
      · refine ⟨routed.region, hspans, fun _ _ h => (nomatch h), fun addr' data' haccess => ?_,
          fun x hx => ?_, fun x hx => ?_⟩
        · cases haccess
          simp only [emulate, hroute]
          exact window_patch memory addr data
        · simp only [emulate, hroute]
          exact patch_outside hx
        · simp only [AttachBackend.call, hwrite]
          exact patch_outside hx

end Agreement

section Main

variable {pid : ℕ} {process : HostProcess} {backend : AttachBackend} {memory : ℤ → UInt8}

/-- Both backends answer a sequence of calls alike. -/
theorem calls_agree {accesses : List Access} {results : List (Except PyError (List UInt8))}
    {w v : World Origin (Buffers Origin)} (h : Calls memory accesses w results v)
    (hmapped : Mapped pid process backend) (halias : Aliased backend process (memoryAfter memory w.trace))
    (hw : Drained w) :
    results = (backend.calls accesses process).1 ∧
      Mapped pid (backend.calls accesses process).2 backend ∧
      Aliased backend (backend.calls accesses process).2 (memoryAfter memory v.trace) ∧ Drained v := by
  induction h generalizing process with
  | nil w => exact ⟨rfl, hmapped, halias, hw⟩
  | @cons access accesses w u v result results first others ih =>
    obtain ⟨hresult, hmemory, hu⟩ := reaches_gdbCall hw first
    obtain ⟨hcall, halias', hregions⟩ := call_emulates hmapped halias access
    have hmapped' : Mapped pid (backend.call process access).2 backend :=
      ⟨by rw [hregions]; exact hmapped.found, hmapped.disjoint⟩
    rw [← hmemory] at halias'
    obtain ⟨hresults, hlast⟩ := ih hmapped' halias' hu
    refine ⟨?_, hlast⟩
    change result :: results = (backend.call process access).1 ::
      (backend.calls accesses (backend.call process access).2).1
    rw [hresult, hcall, hresults]

/-- Where the mappings found in the process do not overlap and show the emulated regions, and
the stub serves memory packets, the attached backend and the packet backend return the same
bytes and reject the same calls of any sequence, and leave the same memory; whatever call
comes next touches its own bytes only, which lie in one region. -/
theorem backends_are_interchangeable {accesses : List Access}
    {results : List (Except PyError (List UInt8))} {w v : World Origin (Buffers Origin)}
    (hmapped : Mapped pid process backend) (halias : Aliased backend process (memoryAfter memory w.trace))
    (hw : Drained w) (h : Calls memory accesses w results v) :
    results = (backend.calls accesses process).1 ∧
      Aliased backend (backend.calls accesses process).2 (memoryAfter memory v.trace) ∧
      ∀ access result u,
        (gdbCall access).Reaches (disciplined (byteLink Origin) (Serves memory)) v result u →
        Confined backend (backend.calls accesses process).2 (memoryAfter memory v.trace) access result
          (memoryAfter memory u.trace) := by
  obtain ⟨hresults, hmapped', halias', hv⟩ := calls_agree h hmapped halias hw
  refine ⟨hresults, halias', fun access result u hnext => ?_⟩
  obtain ⟨hresult, hmemory, -⟩ := reaches_gdbCall hv hnext
  rw [hresult, hmemory]
  exact confined_emulate hmapped' halias' access

/-- A process with both mappings and empty memory. -/
def sampleProcess : HostProcess :=
  ⟨[⟨0x7FF0000, 0x1000⟩, ⟨0x40000000, MEM2_RESERVED_SIZE⟩, ⟨0x10000000, MEM1_RESERVED_SIZE⟩], fun _ => 0⟩

/-- What is found in it. -/
def sampleBackend : AttachBackend := ⟨⟨0x10000000, MEM1_RESERVED_SIZE⟩, ⟨0x40000000, MEM2_RESERVED_SIZE⟩⟩

/-- Every emulated byte is zero. -/
def zeroMemory : ℤ → UInt8 := fun _ => 0

/-- A write and a read at the end of a region, a read across it, and a read of no bytes. -/
def sampleAccesses : List Access :=
  [.write 0x817FFFFE [0xDE, 0xAD], .read 0x817FFFFD 3, .read 0x817FFFFF 2, .read 0x80000000 0]

/-- Everything sent so far arrives at once. -/
def arrivesWhole : Net := ⟨List.replicate 9 (.bytes 100), []⟩

/-- A packet that is answered with `reply`. -/
def servedWith (reply : Body) (n : ℕ) : List (Choice Origin Net) :=
  [{net := arrivesWhole, response := [.ack (.reply n), .frame reply (.reply n)]},
    {net := arrivesWhole}, {net := arrivesWhole}]

/-- The write is served. -/
def writeServed : List (Choice Origin Net) := servedWith okBody 0

/-- The read is served. -/
def readServed : List (Choice Origin Net) := servedWith ⟨asciiBytes "00dead".toList, by decide⟩ 1

/-- The world after a call. -/
def afterCall (access : Access) (script : List (Choice Origin Net)) (w : World Origin (Buffers Origin)) :
    World Origin (Buffers Origin) :=
  ((gdbCall access).run (disciplined (byteLink Origin) (Serves zeroMemory)) script w).2.1

/-- After the write and the first read. -/
def afterRead : World Origin (Buffers Origin) :=
  afterCall (.read 0x817FFFFD 3) readServed
    (afterCall (.write 0x817FFFFE [0xDE, 0xAD]) writeServed (freshWorld Buffers.empty))

/-- What the packet backend returns and raises. -/
def sampleResults : List (Except PyError (List UInt8)) :=
  [.ok [], .ok [0, 0xDE, 0xAD],
    .error (.addressOutOfRange "0x817fffff+2 crosses MEM1 end 0x81800000"),
    .error (.valueError "size must be positive, got 0")]

theorem backends_are_interchangeable_sample :
    sampleResults = (sampleBackend.calls sampleAccesses sampleProcess).1 ∧
      Aliased sampleBackend (sampleBackend.calls sampleAccesses sampleProcess).2
        (memoryAfter zeroMemory afterRead.trace) := by
  have hmapped : Mapped 4711 sampleProcess sampleBackend := ⟨by decide +kernel, by decide +kernel⟩
  have halias : Aliased sampleBackend sampleProcess
      (memoryAfter zeroMemory (freshWorld (Buffers.empty (τ := Origin))).trace) := fun _ _ _ => rfl
  have hcalls : Calls zeroMemory sampleAccesses (freshWorld Buffers.empty) sampleResults afterRead := by
    have hwritten : (gdbCall (.write 0x817FFFFE [0xDE, 0xAD])).Reaches
        (disciplined (byteLink Origin) (Serves zeroMemory)) (freshWorld Buffers.empty) (.ok [])
        (afterCall (.write 0x817FFFFE [0xDE, 0xAD]) writeServed (freshWorld Buffers.empty)) :=
      Program.reaches_along (by decide +kernel) (by decide +kernel)
    have hread : (gdbCall (.read 0x817FFFFD 3)).Reaches
        (disciplined (byteLink Origin) (Serves zeroMemory))
        (afterCall (.write 0x817FFFFE [0xDE, 0xAD]) writeServed (freshWorld Buffers.empty))
        (.ok [0, 0xDE, 0xAD]) afterRead :=
      Program.reaches_along (by decide +kernel) (by decide +kernel)
    -- The last two calls raise before anything is sent.
    exact .cons hwritten (.cons hread (.cons ⟨rfl, rfl⟩ (.cons ⟨rfl, rfl⟩ (.nil afterRead))))
  obtain ⟨hresults, hshown, -⟩ := backends_are_interchangeable hmapped halias ⟨rfl, rfl⟩ hcalls
  exact ⟨hresults, hshown⟩

end Main

end DolphinRe.MemoryBackends
