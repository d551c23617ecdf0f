import Mathlib.Data.List.Sort
import DolphinRe.HexDumps
import DolphinRe.MemoryDumps
import DolphinRe.MemorySearch

/-!
# What the memory tools make of a memory

Next to a stub that serves memory packets the memory tools can be called in any
order. Each answers from a memory in which every address holds what the last
accepted write left there, and a call that is refused leaves no trace.
-/

namespace DolphinRe.StoredMemory

open PythonText GdbPackets GdbWire GdbTokens EffectProgram SessionMachine GdbClient SessionTools
  LinkRefinement StubBehaviour PromptStub ToolStructure MemoryWindows MemoryPackets MemoryBackends Dictionaries
  Substrings MemoryTools HostedMemory HexDumps MemoryDumps

section Served

variable {memory contents : ℤ → UInt8} {w : TokenWorld} {command : Command} {request : MemoryPackets.Request}

/-- A session without an attached process holds a memory, and nothing is unread. -/
def Quiet (memory contents : ℤ → UInt8) (w : TokenWorld) : Prop := Detached w ∧ Holding memory [] contents w

/-- What a request is served with can be sent. -/
theorem exists_body (memory : ℤ → UInt8) (request : MemoryPackets.Request) :
    ∃ body : Body, body.val = asciiBytes (serve memory request).2 := by
  have hdigit : ∀ d < 16, UInt8.ofNat (Nat.digitChar d).toNat ≠ 35 := by decide
  have hplain : 35 ∉ asciiBytes (serve memory request).2 := by
    cases request with
    | read addr size =>
      intro hmem
      obtain ⟨c, hc, hhash⟩ := List.mem_map.mp hmem
      exact forall_toHex (P := fun c => UInt8.ofNat c.toNat ≠ 35) hdigit _ c hc hhash
    | write addr data =>
      have hok : 35 ∉ asciiBytes "OK".toList := by decide
      exact hok
  exact ⟨⟨_, hplain⟩, rfl⟩

/-- The stub can take a memory packet. -/
theorem exists_sendall_served (hrequest : readRequest command.payload = some request)
    (hw : Holding memory [] contents w) :
    ∃ r v, (sendall (.packet command)).Reaches (servingMachine memory) w r v := by
  obtain ⟨body, hbody⟩ := exists_body contents request
  let c : Choice Origin TokenNet :=
    {(default : Choice Origin TokenNet) with response := [.ack (.reply 0), .frame body (.reply 0)]}
  have hsent : (World.send (tokenLink Origin) (.packet command) c w).1 = .ok () := by
    unfold World.send
    rw [if_pos hw.connected]
    rfl
  have hreply : repliesWith (serve (memoryAfter memory w.trace) request).2 c.response = true := by
    rw [repliesWith_iff, hw.contents]
    exact ⟨_, body, _, rfl, hbody⟩
  have hadmits : (servingMachine memory).admits (.send (.packet command)) c w := by
    refine ⟨trivial, rfl, ?_, ?_⟩
    · change inTime (.send (.packet command)) (World.send (tokenLink Origin) (.packet command) c w).1 = true
      rw [hsent]
      rfl
    · dsimp only
      rw [hrequest]
      exact hreply
  exact ⟨_, _, c, hadmits, (Program.reaches_ofExcept _).mpr ⟨rfl, rfl⟩⟩

/-- The acknowledgement that comes first can be consumed. -/
theorem exists_consumeAck_served {tag : Origin} {rest : Tokens}
    (hw : Holding memory (.ack tag :: rest) contents w) :
    ∃ r v, (consumeAck : Code Origin Unit).Reaches (servingMachine memory) w r v := by
  have hread : (World.consumeAck (tokenLink Origin) default w).1 = .ok () := by
    rw [World.consumeAck_open hw.connected, hw.unread]
    rfl
  have hadmits : (servingMachine memory).admits .consumeAck default w := by
    refine ⟨trivial, rfl, ?_, trivial⟩
    change inTime .consumeAck (World.consumeAck (tokenLink Origin) default w).1 = true
    rw [hread]
    rfl
  exact ⟨_, _, default, hadmits, (Program.reaches_ofExcept _).mpr ⟨rfl, rfl⟩⟩

/-- So can the packet behind it. -/
theorem exists_read_served {body : Body} {tag : Origin} {rest : Tokens} (timeout : Option ℕ)
    (hw : Holding memory (.frame body tag :: rest) contents w) :
    ∃ r v, (readPacketFromWire timeout : Code Origin (Packet Origin)).Reaches (servingMachine memory) w r v := by
  have hread : (World.readPacket (tokenLink Origin) default w).1 = .ok (framePacket body tag) := by
    rw [World.readPacket_open hw.connected, hw.unread]
    rfl
  have hadmits : (servingMachine memory).admits (.readPacketFromWire timeout) default w := by
    refine ⟨trivial, rfl, ?_, trivial⟩
    change inTime (.readPacketFromWire timeout) (World.readPacket (tokenLink Origin) default w).1 = true
    rw [hread]
    rfl
  exact ⟨_, _, default, hadmits, (Program.reaches_ofExcept _).mpr ⟨rfl, rfl⟩⟩

/-- Every memory packet gets an answer. -/
theorem exists_cmd_served (hrequest : readRequest command.payload = some request)
    (hw : Holding memory [] contents w) :
    ∃ r v, (cmd command : Code Origin (Packet Origin)).Reaches (servingMachine memory) w r v := by
  obtain ⟨r₁, v₁, hsend⟩ := exists_sendall_served hrequest hw
  obtain ⟨rfl, tag, body, tag', hbody, hv₁⟩ := Program.reaches_of_wp (wp_sendall_served hrequest hw) hsend
  obtain ⟨r₂, v₂, hack⟩ := exists_consumeAck_served hv₁
  obtain ⟨rfl, hv₂⟩ := Program.reaches_of_wp (wp_consumeAck_served hv₁) hack
  obtain ⟨r₃, v₃, hread⟩ := exists_read_served none hv₂
  have hpacket : (sendPacket command : Code Origin Unit).Reaches (servingMachine memory) w (.ok ()) v₂ :=
    (Program.reaches_bind _ _).mpr (Or.inl ⟨(), v₁, hsend, hack⟩)
  exact ⟨r₃, v₃, (Program.reaches_bind _ _).mpr (Or.inl ⟨(), v₂, hpacket, hread⟩)⟩

end Served

section Accesses

variable {memory contents : ℤ → UInt8} {w : TokenWorld}

/-- What a read of a memory comes to. -/
def peek (memory : ℤ → UInt8) (addr size : ℤ) : Except PyError (List UInt8) :=
  (route addr size).map fun _ => window memory addr size.toNat

/-- What a write of a memory comes to. -/
def poke (addr : ℤ) (data : List UInt8) : Except PyError Unit := (route addr data.length).map fun _ => ()

/-- The memory after a write, which a refused one leaves as it is. -/
def poked (memory : ℤ → UInt8) (addr : ℤ) (data : List UInt8) : ℤ → UInt8 :=
  (emulate memory (.write addr data)).2

/-- A read over the connection peeks at the memory. -/
theorem settles_gdbRead (addr size : ℤ) : Program.Settles (servingMachine memory) (Quiet memory contents)
    (Quiet memory contents) (gdbRead addr size) (peek contents addr size) := by
  rintro w ⟨hdetached, hw⟩
  constructor
  · refine Program.wp_mono ?_ (Program.wp_and (wp_gdbRead addr size hw) (keeps_gdbRead rfl addr size w hdetached))
    rintro r v ⟨⟨hr, hv⟩, hkept⟩
    exact ⟨hr, hkept, hv⟩
  · refine Program.exists_bind (Program.exists_ofExcept _ w) fun routed v hroute => ?_
    obtain ⟨hok, rfl⟩ := (Program.reaches_ofExcept _).mp hroute
    obtain ⟨hspans, -⟩ := spans_of_route hok.symm
    have hsize : 0 ≤ size := le_of_lt hspans.positive
    have hrequest := readRequest_readMem hspans.nonneg hsize
    refine Program.exists_bind (exists_cmd_served hrequest hw) fun reply u _ => ?_
    exact Program.exists_bind (Program.exists_ofExcept _ u) fun _ u' _ => Program.exists_ofExcept _ u'

/-- A write pokes into it. -/
theorem settles_gdbWrite (addr : ℤ) (data : List UInt8) : Program.Settles (servingMachine memory)
    (Quiet memory contents) (Quiet memory (poked contents addr data)) (gdbWrite addr data) (poke addr data) := by
  rintro w ⟨hdetached, hw⟩
  constructor
  · refine Program.wp_mono ?_ (Program.wp_and (wp_gdbWrite addr data hw) (keeps_gdbWrite rfl addr data w hdetached))
    rintro r v ⟨⟨hr, hv⟩, hkept⟩
    refine ⟨?_, hkept, hv⟩
    unfold poke
    cases hroute : route addr data.length with
    | error e =>
      simp only [emulate, hroute] at hr
      cases r with
      | ok _ => simp [Except.map] at hr
      | error e' => simpa [Except.map] using hr
    | ok routed =>
      simp only [emulate, hroute] at hr
      cases r with
      | ok _ => rfl
      | error e' => simp [Except.map] at hr
  · refine Program.exists_bind (Program.exists_ofExcept _ w) fun routed v hroute => ?_
    obtain ⟨hok, rfl⟩ := (Program.reaches_ofExcept _).mp hroute
    obtain ⟨hspans, -⟩ := spans_of_route hok.symm
    have hrequest := readRequest_writeMem hspans.nonneg data
    refine Program.exists_bind (exists_cmd_served hrequest hw) fun reply u _ => ?_
    refine Program.exists_bind (Program.exists_ofExcept _ u) fun _ u' _ => ?_
    split_ifs
    · exact ⟨_, _, rfl, rfl⟩
    · exact ⟨_, _, rfl, rfl⟩

/-- Connected and detached, an access goes to the stub at once. -/
theorem settles_at_stub {α : Type} {I J : TokenWorld → Prop} {p q : Code Origin α} {r : Except PyError α}
    (hI : ∀ w, I w → Detached w) (hp : Program.Settles (servingMachine memory) I J p r) :
    Program.Settles (servingMachine memory) I J
      (ensureConnected.bind fun _ => (access .isAttached).bind fun attached => if attached then q else p) r := by
  intro w hw
  obtain ⟨hconnected, hattached⟩ := hI w hw
  obtain ⟨hwp, outcome, v, hreach⟩ := hp w hw
  constructor
  · rw [Program.wp_bind]
    refine wp_ensureConnected_connected rfl hconnected ?_
    rw [Program.onValue_ok]
    intro c _
    change Program.wp _ (if w.attached = true then q else p) _ w
    rw [hattached, if_neg Bool.false_ne_true]
    exact hwp
  · have hfirst : (ensureConnected : Code Origin Unit).Reaches (servingMachine memory) w (.ok ()) w := by
      refine ⟨default, ⟨trivial, rfl, rfl, trivial⟩, ?_⟩
      change Program.Reaches _ (if w.state.isConnected = true then Program.done () else _) w _ w
      rw [if_pos hconnected]
      exact ⟨rfl, rfl⟩
    have hsecond : ((access .isAttached).bind fun attached => if attached then q else p).Reaches
        (servingMachine memory) w outcome v := by
      refine ⟨default, ⟨trivial, rfl, rfl, trivial⟩, ?_⟩
      change Program.Reaches _ (if w.attached = true then q else p) w _ v
      rw [hattached, if_neg Bool.false_ne_true]
      exact hreach
    exact ⟨outcome, v, (Program.reaches_bind _ _).mpr (Or.inl ⟨(), w, hfirst, hsecond⟩)⟩

/-- The memory tools read what is there. -/
theorem settles_readMemory (addr size : ℤ) : Program.Settles (servingMachine memory) (Quiet memory contents)
    (Quiet memory contents) (readMemory addr size) (peek contents addr size) :=
  settles_at_stub (fun _ hw => hw.1) (settles_gdbRead addr size)

/-- They write what they are given. -/
theorem settles_writeMemory (addr : ℤ) (data : List UInt8) : Program.Settles (servingMachine memory)
    (Quiet memory contents) (Quiet memory (poked contents addr data)) (writeMemory addr data) (poke addr data) :=
  settles_at_stub (fun _ hw => hw.1) (settles_gdbWrite addr data)

end Accesses

section Tools

variable {τ C W : Type} {M : Machine (signature τ) C W} {I : W → Prop} {memory : ℤ → UInt8} {read : Reader τ}

/-- The unsigned number in so many bytes. -/
def numberAt (memory : ℤ → UInt8) (addr width : ℤ) : Except PyError ℕ :=
  (peek memory addr width).map fromBytesBig

/-- A chain of pointers: each is read where the one before it leads, plus an offset. -/
def chase (memory : ℤ → UInt8) (offsets : List ℤ) (addr : ℤ) : Except PyError ℤ :=
  offsets.foldlM (fun cursor off => (numberAt memory cursor 4).map fun pointer : ℕ => (pointer : ℤ) + off) addr

/-- What a chain of pointers leads to; without offsets the first pointer itself is the answer. -/
def pointerAt (memory : ℤ → UInt8) (addr : ℤ) (offsets : List ℤ) : Except PyError ℤ :=
  if offsets = [] then (numberAt memory addr 4).map Nat.cast else chase memory offsets addr

/-- A field of a structure. -/
def fieldAt (memory : ℤ → UInt8) (name : Str) (ea : ℤ) : FieldKind → Except PyError FieldValue
  | .u8 => (numberAt memory ea 1).map fun value : ℕ => .int value
  | .u16 => (numberAt memory ea 2).map fun value : ℕ => .int value
  | .u32 => (numberAt memory ea 4).map fun value : ℕ => .int value
  | .s32 => (numberAt memory ea 4).map fun value => .int (signed32 value)
  | .f32 => (peek memory ea 4).map .float
  | .f64 => (peek memory ea 8).map .float
  | .bytes count => (peek memory ea count).map fun blob => .hex (toHex blob)
  | .unsupported shown =>
    .error (.valueError ("unsupported kind " ++ shown ++ " for '" ++ String.ofList name ++ "'"))

/-- The fields of a structure; of two fields of one name the later one counts. -/
def fieldsAt (memory : ℤ → UInt8) (addr : ℤ) (layout : List LayoutEntry) (out : List (Str × FieldValue)) :
    Except PyError (List (Str × FieldValue)) :=
  layout.foldlM (fun out entry =>
    match entry with
    | .field name kind off => (fieldAt memory name (addr + off) kind).map fun value => assign name value out
    | .malformed shown => .error (.valueError ("bad layout entry: " ++ shown))) out

/-- What a dump of a memory shows. -/
def dumpOf (memory : ℤ → UInt8) (addr size width : ℤ) : Except PyError HexDump :=
  if size ≤ 0 then .ok ⟨formatLabel addr, 0, [], []⟩
  else if 4096 < size then
    .error (.valueError ("dump_hex size " ++ toString size ++ " exceeds 4096-byte safety cap"))
  else if width < 4 ∨ width % 4 ≠ 0 then
    .error (.valueError ("width must be a positive multiple of 4; got " ++ toString width))
  else (peek memory addr size).map fun blob =>
    ⟨formatLabel addr, size, (dumpRows addr size.toNat width.toNat blob).map Row.line, toHex blob⟩

/-- Where a pattern stands in a stretch, as far as it touches no more than two chunks. -/
def hitsIn (memory : ℤ → UInt8) (start : ℤ) (size : ℕ) (pat : List UInt8) : List ℤ :=
  ((List.range size).filter fun i =>
    OccursAt pat (window memory start size) i ∧ Near CHUNK pat.length i).map fun i : ℕ => start + (i : ℤ)

/-- What a search of a memory finds. -/
def searchOf (memory : ℤ → UInt8) (patternHex name : Str) : Except PyError (List ℤ) :=
  (fromHexOrRaise patternHex).bind fun pat =>
    if pat = [] then .error (.valueError "empty pattern")
    else (namedRegion name).map fun named => hitsIn memory named.1 named.2 pat

/-- What a comparison of a memory with a file lists. -/
def diffOf (memory : ℤ → UInt8) (disk : Disk) (addr size : ℤ) (dumpPath : Str) : Except PyError (List DiffEntry) :=
  match disk.files dumpPath with
  | none => .error (.osError ("dump file not found: " ++ String.ofList dumpPath))
  | some blob => (route addr size).bind fun routed =>
    if blob.length < routed.offset + size then
      .error (.valueError ("dump " ++ String.ofList dumpPath ++ " too small: offset " ++
        toString routed.offset ++ "+" ++ toString size ++ " > " ++ toString blob.length))
    else (peek memory addr size).map fun live =>
      differences addr live ((blob.drop routed.offset.toNat).take size.toNat)

/-- As many bytes are read as asked for. -/
theorem length_of_peek {addr size : ℤ} {blob : List UInt8} (h : peek memory addr size = .ok blob) :
    blob.length = size.toNat := by
  unfold peek at h
  cases hroute : route addr size with
  | error e =>
    rw [hroute] at h
    simp [Except.map] at h
  | ok routed =>
    rw [hroute] at h
    rw [← Except.ok.inj h, length_window]

/-- Inside a region a read is answered. -/
theorem peek_spans (memory : ℤ → UInt8) {region : Region} {addr size : ℤ} (h : Spans region addr size) :
    peek memory addr size = .ok (window memory addr size.toNat) := by
  obtain ⟨left, hroute⟩ := route_spans h
  rw [peek, hroute]
  rfl

/-- All of a region is searched. -/
theorem hits_of_searched {region : Region} {pat tail : List UInt8} {all : List ℕ} (hpat : pat ≠ [])
    (h : Searched CHUNK pat (content memory region) (length region) tail all) :
    (all.map fun i : ℕ => base region + (i : ℤ)) = hitsIn memory (base region) (length region) pat := by
  have hlength : (content memory region).length = length region := length_window _ _ _
  have hdone : ∀ i, i ∈ all ↔ OccursAt pat (content memory region) i ∧ Near CHUNK pat.length i := by
    rw [← hlength] at h
    exact h.done hpat
  have hsorted : ((List.range (length region)).filter fun i =>
      OccursAt pat (content memory region) i ∧ Near CHUNK pat.length i).Pairwise (· < ·) :=
    List.pairwise_lt_range.filter _
  unfold hitsIn
  congr 1
  refine h.sorted.eq_of_mem_iff hsorted fun i => ?_
  rw [hdone, List.mem_filter, List.mem_range, decide_eq_true_eq]
  constructor
  · rintro ⟨hoccurs, hnear⟩
    have hle := hoccurs.le hpat
    have hpositive := List.length_pos_iff.mpr hpat
    exact ⟨by omega, hoccurs, hnear⟩
  · exact fun hi => hi.2

/-- A name that is known names a region. -/
theorem region_of_named {name : Str} {named : ℤ × ℕ} (h : namedRegion name = .ok named) :
    ∃ region, named = (base region, length region) := by
  unfold namedRegion at h
  split_ifs at h
  · exact ⟨.mem1, (Except.ok.inj h).symm⟩
  · exact ⟨.mem2, (Except.ok.inj h).symm⟩

variable (hread : ∀ addr size, Program.Settles M I I (read addr size) (peek memory addr size))

include hread

/-- A byte is the number at the address. -/
theorem settles_readU8 (addr : ℤ) : Program.Settles M I I (readU8 read addr) (numberAt memory addr 1) := by
  have hfirst : numberAt memory addr 1 = (peek memory addr 1).bind fun blob => .ok (fromBytesBig blob) := by
    unfold numberAt
    cases peek memory addr 1 <;> rfl
  rw [hfirst]
  refine (hread addr 1).bind fun blob hblob => ?_
  have hlength := length_of_peek hblob
  cases blob with
  | nil => simp at hlength
  | cons b rest =>
    have hrest : rest = [] := by simpa using hlength
    subst hrest
    have hvalue : fromBytesBig [b] = b.toNat := by simp [fromBytesBig]
    rw [hvalue]
    exact Program.settles_ofExcept (.ok b.toNat)

/-- So is a half word. -/
theorem settles_readU16 (addr : ℤ) : Program.Settles M I I (readU16 read addr) (numberAt memory addr 2) :=
  (hread addr 2).map fromBytesBig

/-- So is a word. -/
theorem settles_readU32 (addr : ℤ) : Program.Settles M I I (readU32 read addr) (numberAt memory addr 4) :=
  (hread addr 4).map fromBytesBig

/-- A read of the right length is unpacked. -/
theorem settles_unpack (width : ℕ) (addr : ℤ) : Program.Settles M I I
    ((read addr width).bind fun blob => Program.ofExcept (unpack width blob)) (peek memory addr width) := by
  have hsame : peek memory addr width = (peek memory addr width).bind .ok := by
    cases peek memory addr width <;> rfl
  rw [hsame]
  refine (hread addr width).bind fun blob hblob => ?_
  have hlength := length_of_peek hblob
  rw [unpack, if_pos (by omega)]
  exact Program.settles_ofExcept (.ok blob)

/-- A signed word is the word with its sign. -/
theorem settles_readS32 (addr : ℤ) :
    Program.Settles M I I (readS32 read addr) ((numberAt memory addr 4).map signed32) := by
  have hwhole := (settles_unpack hread 4 addr).map fun blob => signed32 (fromBytesBig blob)
  have hcode : readS32 read addr = ((read addr 4).bind fun blob => Program.ofExcept (unpack 4 blob)).bind
      fun blob => .done (signed32 (fromBytesBig blob)) :=
    (Program.bind_assoc _ _ _).symm
  have hvalue : (numberAt memory addr 4).map signed32 =
      (peek memory addr 4).map fun blob => signed32 (fromBytesBig blob) := by
    unfold numberAt
    cases peek memory addr 4 <;> rfl
  rw [hcode, hvalue]
  exact hwhole

/-- Offsets are followed through the memory. -/
theorem settles_followOffsets (offsets : List ℤ) (addr : ℤ) :
    Program.Settles M I I (followOffsets read offsets addr) (chase memory offsets addr) := by
  induction offsets generalizing addr with
  | nil => exact Program.settles_ofExcept (.ok addr)
  | cons off offsets ih =>
    have hchase : chase memory (off :: offsets) addr =
        (numberAt memory addr 4).bind fun pointer => chase memory offsets (pointer + off) := by
      unfold chase
      rw [List.foldlM_cons]
      cases numberAt memory addr 4 <;> rfl
    rw [hchase]
    exact (settles_readU32 hread addr).bind fun pointer _ => ih (pointer + off)

/-- So is a pointer. -/
theorem settles_followPointer (addr : ℤ) (offsets : List ℤ) :
    Program.Settles M I I (followPointer read addr offsets) (pointerAt memory addr offsets) := by
  unfold followPointer pointerAt
  split_ifs
  · exact (settles_readU32 hread addr).map Nat.cast
  · exact settles_followOffsets hread offsets addr

/-- A pointer is valid where a byte can be routed. -/
theorem settles_isValidPtr (addr : ℤ) :
    Program.Settles M I I (isValidPtr read addr) (.ok (route addr 1).isOk) := by
  unfold isValidPtr
  cases hroute : route addr 1 with
  | error e => exact Program.settles_ofExcept (.ok false)
  | ok routed =>
    have hprobe := (hread addr 1).map fun _ => true
    rw [peek_spans memory (spans_of_route hroute).1] at hprobe
    exact hprobe.handle

/-- A field is the value at its address. -/
theorem settles_readKind (name : Str) (ea : ℤ) (kind : FieldKind) :
    Program.Settles M I I (readKind read name ea kind) (fieldAt memory name ea kind) := by
  cases kind with
  | u8 => exact (settles_readU8 hread ea).map fun value : ℕ => FieldValue.int value
  | u16 => exact (settles_readU16 hread ea).map fun value : ℕ => FieldValue.int value
  | u32 => exact (settles_readU32 hread ea).map fun value : ℕ => FieldValue.int value
  | s32 =>
    have hvalue : fieldAt memory name ea .s32 = ((numberAt memory ea 4).map signed32).map .int := by
      unfold fieldAt
      cases numberAt memory ea 4 <;> rfl
    rw [hvalue]
    exact (settles_readS32 hread ea).map _
  | f32 => exact (settles_unpack hread 4 ea).map _
  | f64 => exact (settles_unpack hread 8 ea).map _
  | bytes count => exact (hread ea count).map _
  | unsupported shown => exact Program.settles_ofExcept (.error _)

/-- A layout is read field by field. -/
theorem settles_readEntries (addr : ℤ) (layout : List LayoutEntry) (out : List (Str × FieldValue)) :
    Program.Settles M I I (readEntries read addr layout out) (fieldsAt memory addr layout out) := by
  induction layout generalizing out with
  | nil => exact Program.settles_ofExcept (.ok out)
  | cons entry layout ih =>
    cases entry with
    | field name kind off =>
      have hfields : fieldsAt memory addr (.field name kind off :: layout) out =
          (fieldAt memory name (addr + off) kind).bind fun value =>
            fieldsAt memory addr layout (assign name value out) := by
        unfold fieldsAt
        rw [List.foldlM_cons]
        dsimp only
        cases fieldAt memory name (addr + off) kind <;> rfl
      rw [hfields]
      exact (settles_readKind hread name (addr + off) kind).bind fun value _ => ih (assign name value out)
    | malformed shown => exact Program.settles_ofExcept (.error _)

/-- A dump shows the bytes at the address. -/
theorem settles_dumpHex (addr size width : ℤ) :
    Program.Settles M I I (dumpHex read addr size width) (dumpOf memory addr size width) := by
  unfold dumpHex dumpOf
  split_ifs
  · exact Program.settles_ofExcept (.ok _)
  · exact Program.settles_ofExcept (.error _)
  · exact Program.settles_ofExcept (.error _)
  · exact (hread addr size).map fun blob => (⟨formatLabel addr, size,
      (dumpRows addr size.toNat width.toNat blob).map Row.line, toHex blob⟩ : HexDump)

/-- Inside a region the reader serves the memory. -/
theorem serving_of_settles : Serving M I memory read := by
  intro region addr size w hspans hw
  rw [← peek_spans memory hspans]
  exact (hread addr size w hw).1

/-- A search ends. -/
theorem exists_searchChunks (start : ℤ) (size : ℕ) (pat : List UInt8) (cursor : ℕ) (tail : List UInt8)
    (hits : List ℤ) {w : W} (hw : I w) :
    ∃ r v, (searchChunks read start size pat cursor tail hits).Reaches M w r v := by
  have hchunk : 0 < CHUNK := by decide
  generalize hleft : size - cursor = left
  induction left using Nat.strongRecOn generalizing cursor tail hits w with
  | _ left ih =>
    rw [searchChunks]
    split_ifs with hmore
    · refine Program.exists_bind (hread _ _ w hw).2 fun chunk v hv => ?_
      obtain ⟨-, hI⟩ := (hread _ _).ends hw hv
      exact ih _ (by omega) _ _ _ hI rfl
    · exact ⟨_, _, rfl, rfl⟩

/-- A search finds the near occurrences. -/
theorem settles_searchMem (patternHex name : Str) :
    Program.Settles M I I (searchMem read patternHex name) (searchOf memory patternHex name) := by
  refine (Program.settles_ofExcept (fromHexOrRaise patternHex)).bind fun pat _ => ?_
  dsimp only
  split_ifs with hpat
  · exact Program.settles_ofExcept (.error _)
  · have hnamed : (namedRegion name).map (fun named => hitsIn memory named.1 named.2 pat) =
        (namedRegion name).bind fun named => .ok (hitsIn memory named.1 named.2 pat) := by
      cases namedRegion name <;> rfl
    rw [hnamed]
    refine (Program.settles_ofExcept (namedRegion name)).bind fun named hname => ?_
    obtain ⟨region, rfl⟩ := region_of_named hname
    intro w hw
    have hstart : Searched CHUNK pat (content memory region) 0 [] [] := searched_start hpat
    constructor
    · refine Program.wp_mono ?_ (MemorySearch.wp_searchChunks (serving_of_settles hread) hpat hstart hw)
      rintro r v ⟨⟨all, tail, hsearched, rfl⟩, hv⟩
      rw [hits_of_searched hpat hsearched]
      exact ⟨rfl, hv⟩
    · exact exists_searchChunks hread (base region) (length region) pat 0 [] [] hw

/-- A region is stored as it is. -/
theorem settles_dumpRegion (region : Region) (path : Str) (disk : Disk) :
    Program.Settles M I I (dumpRegion read (base region) (length region) path disk)
      (.ok (stored disk path (content memory region))) := by
  have hspans : Spans region (base region) (length region) := by
    cases region with
    | mem1 => exact ⟨by decide, by decide, by decide⟩
    | mem2 => exact ⟨by decide, by decide, by decide⟩
  have hpeek : peek memory (base region) (length region) = .ok (content memory region) := peek_spans memory hspans
  have hblob := (hread (base region) (length region)).attempt
  rw [hpeek] at hblob
  refine hblob.bind (g := fun _ => .ok (stored disk path (content memory region))) fun outcome houtcome => ?_
  rw [← Except.ok.inj houtcome]
  unfold stored
  dsimp only
  cases disk.write path (content memory region) with
  | error e => exact Program.settles_ofExcept (.ok _)
  | ok after => exact Program.settles_ofExcept (.ok _)

/-- A snapshot stores both regions. -/
theorem settles_snapshotToDump (isalnum : Char → Bool) (dumpsDir : Option Str) (scenario : Str) (disk : Disk) :
    Program.Settles M I I (snapshotToDump read isalnum dumpsDir scenario disk)
      (.ok (snapshotOf memory isalnum dumpsDir scenario disk)) := by
  unfold snapshotToDump snapshotOf
  cases prepareDump isalnum dumpsDir scenario disk with
  | error e => exact Program.settles_ofExcept (.ok _)
  | ok prepared =>
    obtain ⟨dir, safe⟩ := prepared
    dsimp only
    refine (settles_dumpRegion hread .mem1 (mem1Path dir safe) disk).bind (g := fun _ => .ok _)
      fun outcome houtcome => ?_
    rw [← Except.ok.inj houtcome]
    obtain ⟨first, disk₁⟩ := stored disk (mem1Path dir safe) (content memory .mem1)
    cases first with
    | error e => exact Program.settles_ofExcept (.ok _)
    | ok _ =>
      dsimp only
      refine (settles_dumpRegion hread .mem2 (mem2Path dir safe) disk₁).bind (g := fun _ => .ok _)
        fun outcome houtcome => ?_
      rw [← Except.ok.inj houtcome]
      obtain ⟨second, disk₂⟩ := stored disk₁ (mem2Path dir safe) (content memory .mem2)
      cases second with
      | error e => exact Program.settles_ofExcept (.ok _)
      | ok _ => exact Program.settles_ofExcept (.ok _)

/-- A comparison is made of the file and the memory. -/
theorem settles_diffLiveVsDump (addr size : ℤ) (path : Str) (disk : Disk) :
    Program.Settles M I I (diffLiveVsDump read addr size path disk) (diffOf memory disk addr size path) := by
  unfold diffLiveVsDump diffOf
  cases disk.files path with
  | none => exact Program.settles_ofExcept (.error _)
  | some blob =>
    refine (Program.settles_ofExcept (route addr size)).bind fun routed _ => ?_
    dsimp only
    split_ifs
    · exact Program.settles_ofExcept (.error _)
    · exact (hread addr size).map fun live =>
        differences addr live ((blob.drop routed.offset.toNat).take size.toNat)

end Tools

section Calls

/-- A call of a memory tool. -/
inductive Invocation where
  | readMem (addr size : ℤ)
  | readU8 (addr : ℤ)
  | readU16 (addr : ℤ)
  | readU32 (addr : ℤ)
  | readS32 (addr : ℤ)
  | readF32 (addr : ℤ)
  | readF64 (addr : ℤ)
  | dumpHex (addr size width : ℤ)
  | writeMem (addr : ℤ) (hexData : Str) (confirm : Bool)
  | followPointer (addr : ℤ) (offsets : List ℤ)
  | isValidPtr (addr : ℤ)
  | readStruct (addr : ℤ) (layout : List LayoutEntry)
  | searchMem (patternHex region : Str)
  | snapshotToDump (scenario : Str)
  | diffLiveVsDump (addr size : ℤ) (dumpPath : Str)

/-- The type of an answer. -/
def Invocation.Answer : Invocation → Type
  | .readMem _ _ => ℤ × ℤ × Str
  | .readU8 _ => ℕ
  | .readU16 _ => ℕ
  | .readU32 _ => ℕ
  | .readS32 _ => ℤ
  | .readF32 _ => List UInt8
  | .readF64 _ => List UInt8
  | .dumpHex _ _ _ => HexDump
  | .writeMem _ _ _ => ℤ × ℕ
  | .followPointer _ _ => ℤ
  | .isValidPtr _ => Bool
  | .readStruct _ _ => List (Str × FieldValue)
  | .searchMem _ _ => List ℤ
  | .snapshotToDump _ => Str × Str
  | .diffLiveVsDump _ _ _ => List DiffEntry

/-- The outcome of a tool that leaves the disk alone. -/
def beside {τ α : Type} (disk : Disk) (p : Code τ α) : Code τ (Except PyError α × Disk) :=
  p.attempt.bind fun outcome => .done (outcome, disk)

variable {τ : Type} (isalnum : Char → Bool) (dumpsDir : Option Str)

/-- What a call returns or raises, and the disk after it. -/
def Invocation.code (disk : Disk) : (call : Invocation) → Code τ (Except PyError call.Answer × Disk)
  | .readMem addr size => beside disk (MemoryTools.readMem readMemory addr size)
  | .readU8 addr => beside disk (MemoryTools.readU8 readMemory addr)
  | .readU16 addr => beside disk (MemoryTools.readU16 readMemory addr)
  | .readU32 addr => beside disk (MemoryTools.readU32 readMemory addr)
  | .readS32 addr => beside disk (MemoryTools.readS32 readMemory addr)
  | .readF32 addr => beside disk (MemoryTools.readF32 readMemory addr)
  | .readF64 addr => beside disk (MemoryTools.readF64 readMemory addr)
  | .dumpHex addr size width => beside disk (HexDumps.dumpHex readMemory addr size width)
  | .writeMem addr hexData confirm => beside disk (MemoryTools.writeMem writeMemory addr hexData confirm)
  | .followPointer addr offsets => beside disk (MemoryTools.followPointer readMemory addr offsets)
  | .isValidPtr addr => beside disk (MemoryTools.isValidPtr readMemory addr)
  | .readStruct addr layout => beside disk (MemoryTools.readStruct readMemory addr layout)
  | .searchMem patternHex region => beside disk (MemoryTools.searchMem readMemory patternHex region)
  | .snapshotToDump scenario => MemoryTools.snapshotToDump readMemory isalnum dumpsDir scenario disk
  | .diffLiveVsDump addr size dumpPath => beside disk (MemoryTools.diffLiveVsDump readMemory addr size dumpPath disk)

/-- What a write answers. -/
def writeOf (addr : ℤ) (hexData : Str) (confirm : Bool) : Except PyError (ℤ × ℕ) :=
  if confirm then (fromHexOrRaise hexData).bind fun data => (poke addr data).map fun _ => (addr, data.length)
  else .error (.runtimeError "write_mem requires confirm=True to guard against accidental writes")

/-- A memory and the files of dumps. -/
structure Store where
  /-- The bytes by address. -/
  contents : ℤ → UInt8
  /-- The disk. -/
  disk : Disk

/-- What a store answers to a call. -/
def Store.answer (store : Store) : (call : Invocation) → Except PyError call.Answer
  | .readMem addr size => (peek store.contents addr size).map fun data => (addr, size, toHex data)
  | .readU8 addr => numberAt store.contents addr 1
  | .readU16 addr => numberAt store.contents addr 2
  | .readU32 addr => numberAt store.contents addr 4
  | .readS32 addr => (numberAt store.contents addr 4).map signed32
  | .readF32 addr => peek store.contents addr 4
  | .readF64 addr => peek store.contents addr 8
  | .dumpHex addr size width => dumpOf store.contents addr size width
  | .writeMem addr hexData confirm => writeOf addr hexData confirm
  | .followPointer addr offsets => pointerAt store.contents addr offsets
  | .isValidPtr addr => .ok (route addr 1).isOk
  | .readStruct addr layout => fieldsAt store.contents addr layout []
  | .searchMem patternHex region => searchOf store.contents patternHex region
  | .snapshotToDump scenario => (snapshotOf store.contents isalnum dumpsDir scenario store.disk).1
  | .diffLiveVsDump addr size dumpPath => diffOf store.contents store.disk addr size dumpPath

/-- What a call writes to the memory: the bytes of a confirmed write inside one region, nothing otherwise. -/
def Invocation.written : Invocation → Option (Write UInt8)
  | .writeMem addr hexData true => (fromHex hexData).bind fun data =>
    if (route addr data.length).isOk then some ⟨addr, data⟩ else none
  | _ => none

/-- The disk after a call. -/
def Store.diskAfter (store : Store) : Invocation → Disk
  | .snapshotToDump scenario => (snapshotOf store.contents isalnum dumpsDir scenario store.disk).2
  | _ => store.disk

/-- The store after a call. -/
def Store.after (store : Store) (call : Invocation) : Store :=
  ⟨patched store.contents call.written.toList, store.diskAfter isalnum dumpsDir call⟩

variable {memory : ℤ → UInt8} {store : Store}

/-- A call that leaves the disk alone is settled beside it. -/
theorem settles_beside {α C W : Type} {M : Machine (signature τ) C W} {I J : W → Prop} {p : Code τ α}
    {r : Except PyError α} (hp : Program.Settles M I J p r) (disk : Disk) :
    Program.Settles M I J (beside disk p) (.ok (r, disk)) :=
  hp.attempt.map fun outcome => (outcome, disk)

/-- An accepted write pokes its bytes. -/
theorem poked_eq (contents : ℤ → UInt8) (addr : ℤ) {hexData : Str} {data : List UInt8}
    (h : fromHex hexData = some data) :
    patched contents (Invocation.writeMem addr hexData true).written.toList = poked contents addr data := by
  unfold poked emulate
  simp only [Invocation.written, h, Option.bind_some]
  cases route addr data.length with
  | error e => rfl
  | ok routed => rfl

/-- A write goes through when it is confirmed, its text is hexadecimal and its range lies in one region. -/
theorem settles_writeMem (addr : ℤ) (hexData : Str) (confirm : Bool) :
    Program.Settles (servingMachine memory) (Quiet memory store.contents)
      (Quiet memory (patched store.contents (Invocation.writeMem addr hexData confirm).written.toList))
      (MemoryTools.writeMem writeMemory addr hexData confirm) (writeOf addr hexData confirm) := by
  cases confirm with
  | false => exact Program.settles_ofExcept (.error _)
  | true =>
    unfold MemoryTools.writeMem writeOf
    rw [if_neg (by decide), if_pos rfl]
    cases hdata : fromHex hexData with
    | none =>
      have hraise : fromHexOrRaise hexData =
          .error (.valueError "non-hexadecimal number found in fromhex() arg") := by
        rw [fromHexOrRaise, hdata]
      have hnone : (Invocation.writeMem addr hexData true).written = none := by
        simp only [Invocation.written, hdata, Option.bind_none]
      rw [hraise, hnone]
      exact Program.settles_ofExcept (.error _)
    | some data =>
      have hraise : fromHexOrRaise hexData = .ok data := by rw [fromHexOrRaise, hdata]
      rw [hraise, poked_eq store.contents addr hdata]
      exact (settles_writeMemory addr data).map fun _ => (addr, data.length)

/-- Each call answers as the store does, and leaves what the store is then. -/
theorem settles_call (call : Invocation) :
    Program.Settles (servingMachine memory) (Quiet memory store.contents)
      (Quiet memory (store.after isalnum dumpsDir call).contents) (call.code isalnum dumpsDir store.disk)
      (.ok (store.answer isalnum dumpsDir call, (store.after isalnum dumpsDir call).disk)) := by
  have hread : ∀ addr size, Program.Settles (servingMachine memory) (Quiet memory store.contents)
    (Quiet memory store.contents) (readMemory addr size) (peek store.contents addr size) := settles_readMemory
  cases call with
  | readMem addr size => exact settles_beside ((hread addr size).map fun data => (addr, size, toHex data)) store.disk
  | readU8 addr => exact settles_beside (settles_readU8 hread addr) store.disk
  | readU16 addr => exact settles_beside (settles_readU16 hread addr) store.disk
  | readU32 addr => exact settles_beside (settles_readU32 hread addr) store.disk
  | readS32 addr => exact settles_beside (settles_readS32 hread addr) store.disk
  | readF32 addr => exact settles_beside (settles_unpack hread 4 addr) store.disk
  | readF64 addr => exact settles_beside (settles_unpack hread 8 addr) store.disk
  | dumpHex addr size width => exact settles_beside (settles_dumpHex hread addr size width) store.disk
  | writeMem addr hexData confirm =>
    exact settles_beside (settles_writeMem addr hexData confirm) store.disk
  | followPointer addr offsets => exact settles_beside (settles_followPointer hread addr offsets) store.disk
  | isValidPtr addr => exact settles_beside (settles_isValidPtr hread addr) store.disk
  | readStruct addr layout => exact settles_beside (settles_readEntries hread addr layout []) store.disk
  | searchMem patternHex region => exact settles_beside (settles_searchMem hread patternHex region) store.disk
  | snapshotToDump scenario => exact settles_snapshotToDump hread isalnum dumpsDir scenario store.disk
  | diffLiveVsDump addr size path => exact settles_beside (settles_diffLiveVsDump hread addr size path store.disk) store.disk

end Calls

section Sessions

/-- A call and what it returned or raised. -/
structure Exchange where
  /-- The call. -/
  call : Invocation
  /-- Its outcome. -/
  answer : Except PyError call.Answer

variable (isalnum : Char → Bool) (dumpsDir : Option Str)

/-- One call after the other. -/
inductive Conversation (M : Machine (signature Origin) (Choice Origin TokenNet) TokenWorld) :
    TokenWorld → Disk → List Exchange → TokenWorld → Disk → Prop
  | nil (w : TokenWorld) (disk : Disk) : Conversation M w disk [] w disk
  | cons {call : Invocation} {answer : Except PyError call.Answer} {exchanges : List Exchange} {w u v : TokenWorld}
      {disk between after : Disk}
      (first : (call.code isalnum dumpsDir disk).Reaches M w (.ok (answer, between)) u)
      (others : Conversation M u between exchanges v after) :
      Conversation M w disk (⟨call, answer⟩ :: exchanges) v after

/-- The store after some calls. -/
def Store.afterAll (store : Store) (calls : List Invocation) : Store :=
  calls.foldl (Store.after isalnum dumpsDir) store

variable {memory : ℤ → UInt8} {store : Store} {w v : TokenWorld} {after : Disk} {exchanges : List Exchange}

/-- Each byte is what the last accepted write left there, or what it was. -/
theorem contents_afterAll (store : Store) (calls : List Invocation) (x : ℤ) :
    (store.afterAll isalnum dumpsDir calls).contents x =
      (lastWritten (calls.filterMap Invocation.written) x).getD (store.contents x) := by
  have hpatched : (store.afterAll isalnum dumpsDir calls).contents =
      patched store.contents (calls.filterMap Invocation.written) := by
    induction calls generalizing store with
    | nil => rfl
    | cons call calls ih =>
      have hrest := ih (store.after isalnum dumpsDir call)
      change ((store.after isalnum dumpsDir call).afterAll isalnum dumpsDir calls).contents = _
      rw [hrest]
      change patched (patched store.contents call.written.toList) _ = _
      rw [← patched_append]
      cases hwritten : call.written with
      | none => rw [List.filterMap_cons_none hwritten]; rfl
      | some write => rw [List.filterMap_cons_some hwritten]; rfl
  rw [hpatched, patched_apply]

/-- Every list of calls can be made. -/
theorem exists_conversation (hw : Quiet memory store.contents w) (calls : List Invocation) :
    ∃ exchanges v after, exchanges.map Exchange.call = calls ∧
      Conversation isalnum dumpsDir (servingMachine memory) w store.disk exchanges v after := by
  induction calls generalizing store w with
  | nil => exact ⟨[], w, store.disk, rfl, .nil w store.disk⟩
  | cons call calls ih =>
    obtain ⟨-, outcome, u, hreach⟩ := settles_call isalnum dumpsDir call w hw
    obtain ⟨rfl, hu⟩ := (settles_call isalnum dumpsDir call).ends hw hreach
    obtain ⟨exchanges, v, after, hcalls, hrest⟩ := ih hu
    exact ⟨_ :: exchanges, v, after, by rw [List.map_cons, hcalls], .cons hreach hrest⟩

/-- A call is answered by the store as the calls before it have left it. -/
theorem conversation_answers (hw : Quiet memory store.contents w)
    (h : Conversation isalnum dumpsDir (servingMachine memory) w store.disk exchanges v after) :
    (∀ front exchange back, exchanges = front ++ exchange :: back → exchange.answer =
      (store.afterAll isalnum dumpsDir (front.map Exchange.call)).answer isalnum dumpsDir exchange.call) ∧
    Quiet memory (store.afterAll isalnum dumpsDir (exchanges.map Exchange.call)).contents v ∧
    after = (store.afterAll isalnum dumpsDir (exchanges.map Exchange.call)).disk := by
  generalize hdisk : store.disk = disk at h
  induction h generalizing store with
  | nil w disk =>
    refine ⟨fun front exchange back hsplit => ?_, hw, hdisk.symm⟩
    simp at hsplit
  | @cons call answer exchanges w u v disk between after first others ih =>
    subst hdisk
    obtain ⟨houtcome, hu⟩ := (settles_call isalnum dumpsDir call).ends hw first
    obtain ⟨hanswer, hbetween⟩ := Prod.mk.inj (Except.ok.inj houtcome)
    obtain ⟨hothers, hv, hafter⟩ := ih hu hbetween.symm
    refine ⟨fun front exchange back hsplit => ?_, hv, hafter⟩
    cases front with
    | nil =>
      obtain ⟨rfl, -⟩ := List.cons.inj hsplit
      exact hanswer
    | cons earlier front =>
      obtain ⟨rfl, hrest⟩ := List.cons.inj hsplit
      exact hothers front exchange back hrest

/-- Whatever memory tools are called, in whatever order, next to a stub that serves memory packets on its
bytes: each call is answered from a memory that holds at every address what the last accepted write before it
left there, or what was there, and that memory is what is left in the end. -/
theorem answers_from_last_writes {contents : ℤ → UInt8} {disk : Disk} (hw : Quiet memory contents w) :
    (∀ calls, ∃ exchanges v after, exchanges.map Exchange.call = calls ∧
      Conversation isalnum dumpsDir (servingMachine memory) w disk exchanges v after) ∧
    ∀ exchanges v after, Conversation isalnum dumpsDir (servingMachine memory) w disk exchanges v after →
      (∀ front exchange back, exchanges = front ++ exchange :: back → ∃ now : Store,
        (∀ x, now.contents x =
          (lastWritten ((front.map Exchange.call).filterMap Invocation.written) x).getD (contents x)) ∧
        exchange.answer = now.answer isalnum dumpsDir exchange.call ∧
        now.disk = (Store.afterAll isalnum dumpsDir ⟨contents, disk⟩ (front.map Exchange.call)).disk) ∧
      ∃ last, Quiet memory last v ∧ ∀ x, last x =
        (lastWritten ((exchanges.map Exchange.call).filterMap Invocation.written) x).getD (contents x) := by
  have hstore : Quiet memory (Store.mk contents disk).contents w := hw
  refine ⟨exists_conversation isalnum dumpsDir hstore, fun exchanges v after h => ?_⟩
  obtain ⟨hanswers, hv, -⟩ := conversation_answers isalnum dumpsDir hstore h
  constructor
  · intro front exchange back hsplit
    have hanswer := hanswers front exchange back hsplit
    exact ⟨_, contents_afterAll isalnum dumpsDir _ _, hanswer, rfl⟩
  · exact ⟨_, hv, contents_afterAll isalnum dumpsDir _ _⟩

/-- The sample session is quiet, and its memory zero. -/
theorem quiet_paused : Quiet zeroMemory zeroMemory pausedWorld :=
  ⟨⟨by decide, rfl⟩, rfl, rfl, rfl⟩

/-- A pointer is written, a write is not confirmed, and the pointer is read. -/
theorem answers_from_last_writes_pointer : ∃ first second answer v after,
    Conversation Char.isAlphanum none (servingMachine zeroMemory) pausedWorld openDisk
      [⟨.writeMem 0x80001000 "90000000".toList true, first⟩, ⟨.writeMem 0x80001000 "ff".toList false, second⟩,
        ⟨.readU32 0x80001000, answer⟩] v after ∧ answer = .ok (0x90000000 : ℕ) := by
  obtain ⟨hcalls, hanswers⟩ := answers_from_last_writes Char.isAlphanum none quiet_paused
  obtain ⟨exchanges, v, after, hmap, h⟩ := hcalls [.writeMem 0x80001000 "90000000".toList true,
    .writeMem 0x80001000 "ff".toList false, .readU32 0x80001000]
  rcases exchanges with _ | ⟨⟨first, a⟩, _ | ⟨⟨second, b⟩, _ | ⟨⟨third, c⟩, _ | ⟨_, _⟩⟩⟩⟩ <;> simp at hmap
  obtain ⟨rfl, rfl, rfl⟩ := hmap
  obtain ⟨now, hcontents, hanswer, -⟩ := (hanswers _ v after h).1 [_, _] _ [] rfl
  refine ⟨a, b, c, v, after, h, hanswer.trans ?_⟩
  have hnow : now.contents = fun x => (lastWritten (([.writeMem 0x80001000 "90000000".toList true,
      .writeMem 0x80001000 "ff".toList false] : List Invocation).filterMap Invocation.written) x).getD 0 :=
    funext hcontents
  change numberAt now.contents 0x80001000 4 = (.ok 0x90000000 : Except PyError ℕ)
  rw [hnow]
  decide +kernel

end Sessions

section Changes

variable {isalnum : Char → Bool} {dumpsDir : Option Str} {scenario : Str} {paths : Str × Str} {disk : Disk}

/-- Storing a file leaves the others alone. -/
theorem files_stored (disk : Disk) {path other : Str} (blob : List UInt8) (h : other ≠ path) :
    (stored disk path blob).2.files other = disk.files other := by
  unfold stored
  cases hwrite : disk.write path blob with
  | error e => rfl
  | ok after => exact (write_files hwrite other).trans (if_neg h)

/-- A dump is prepared from the directory and the sanitized name. -/
theorem prepareDump_ok {dir safe : Str} (h : prepareDump isalnum dumpsDir scenario disk = .ok (dir, safe)) :
    dumpDir dumpsDir = .ok dir ∧ safe = safeName isalnum scenario := by
  unfold prepareDump at h
  cases hdir : dumpDir dumpsDir with
  | error e =>
    rw [hdir] at h
    exact absurd h (by simp [bind, Except.bind])
  | ok chosen =>
    rw [hdir] at h
    change (if disk.directory chosen then _ else _) = _ at h
    split_ifs at h with hmade hempty
    obtain ⟨rfl, rfl⟩ := Prod.mk.inj (Except.ok.inj h)
    exact ⟨rfl, rfl⟩

/-- A snapshot writes no files but its own two. -/
theorem files_snapshot (memory : ℤ → UInt8) {other : Str}
    (h : ∀ dir, dumpDir dumpsDir = .ok dir → other ≠ mem1Path dir (safeName isalnum scenario) ∧
      other ≠ mem2Path dir (safeName isalnum scenario)) :
    (snapshotOf memory isalnum dumpsDir scenario disk).2.files other = disk.files other := by
  unfold snapshotOf
  cases hprepared : prepareDump isalnum dumpsDir scenario disk with
  | error e => rfl
  | ok prepared =>
    obtain ⟨dir, safe⟩ := prepared
    obtain ⟨hdir, rfl⟩ := prepareDump_ok hprepared
    obtain ⟨hfirst, hsecond⟩ := h dir hdir
    have hkept := files_stored disk (content memory .mem1) hfirst
    dsimp only
    rcases hstored : stored disk (mem1Path dir (safeName isalnum scenario)) (content memory .mem1) with ⟨first, disk₁⟩
    rw [hstored] at hkept
    cases first with
    | error e => exact hkept
    | ok _ =>
      have hkept' := files_stored disk₁ (content memory .mem2) hsecond
      dsimp only
      rcases hstored' : stored disk₁ (mem2Path dir (safeName isalnum scenario)) (content memory .mem2) with
        ⟨second, disk₂⟩
      rw [hstored'] at hkept'
      cases second with
      | error e => exact hkept'.trans hkept
      | ok _ => exact hkept'.trans hkept

/-- Its two files have names of their own. -/
theorem paths_snapshot {memory : ℤ → UInt8}
    (h : (snapshotOf memory isalnum dumpsDir scenario disk).1 = .ok paths) :
    ∃ dir, dumpDir dumpsDir = .ok dir ∧ paths = (mem1Path dir (safeName isalnum scenario),
      mem2Path dir (safeName isalnum scenario)) := by
  unfold snapshotOf at h
  cases hprepared : prepareDump isalnum dumpsDir scenario disk with
  | error e =>
    rw [hprepared] at h
    simp at h
  | ok prepared =>
    obtain ⟨dir, safe⟩ := prepared
    obtain ⟨hdir, rfl⟩ := prepareDump_ok hprepared
    rw [hprepared] at h
    dsimp only at h
    split at h
    · simp at h
    · split at h
      · simp at h
      · exact ⟨dir, hdir, (Except.ok.inj h).symm⟩

/-- Other names give other files. -/
theorem fileOf_ne {dir safe other : Str} (h : other ≠ safe) (region : Region) :
    fileOf (mem1Path dir safe, mem2Path dir safe) region ≠ mem1Path dir other ∧
      fileOf (mem1Path dir safe, mem2Path dir safe) region ≠ mem2Path dir other := by
  have hends : ∀ one two : Str, one.length = two.length →
      pathFront dir ++ (safe ++ one) ≠ pathFront dir ++ (other ++ two) := by
    intro one two hlength hsame
    have hnames := List.append_cancel_left hsame
    exact h (List.append_inj' hnames hlength).1.symm
  have hlength : ".mem1.raw".toList.length = ".mem2.raw".toList.length := by decide
  cases region with
  | mem1 => exact ⟨hends _ _ rfl, hends _ _ hlength⟩
  | mem2 => exact ⟨hends _ _ hlength.symm, hends _ _ rfl⟩

/-- Calls that snapshot under other names leave the files of a snapshot alone. -/
theorem files_afterAll {dir safe : Str} (hdir : dumpDir dumpsDir = .ok dir) (region : Region) (store : Store)
    (calls : List Invocation)
    (h : ∀ name, .snapshotToDump name ∈ calls → safeName isalnum name ≠ safe) :
    (store.afterAll isalnum dumpsDir calls).disk.files (fileOf (mem1Path dir safe, mem2Path dir safe) region) =
      store.disk.files (fileOf (mem1Path dir safe, mem2Path dir safe) region) := by
  induction calls generalizing store with
  | nil => rfl
  | cons call calls ih =>
    have hrest := ih (store.after isalnum dumpsDir call) fun name hname => h name (List.mem_cons_of_mem call hname)
    refine hrest.trans ?_
    cases call with
    | snapshotToDump name =>
      refine files_snapshot store.contents fun chosen hchosen => ?_
      have hsame : chosen = dir := Except.ok.inj (hchosen.symm.trans hdir)
      rw [hsame]
      exact fileOf_ne (h name List.mem_cons_self) region
    | _ => rfl

variable {live saved : ℤ → UInt8} {region : Region} {addr size : ℤ}

/-- The comparison of a range inside the region lists the differences. -/
theorem lists_diffOf {path : Str} (hfile : disk.files path = some (content saved region))
    (hspans : Spans region addr size) : Lists live saved addr size (diffOf live disk addr size path) := by
  obtain ⟨left, hroute⟩ := route_spans hspans
  have hlength : (content saved region).length = length region := length_window _ _ _
  have hfits : ¬((content saved region).length : ℤ) < addr - base region + size := by
    have hbelow := hspans.below
    rw [hlength]
    omega
  have hvalue : diffOf live disk addr size path =
      .ok (differences addr (window live addr size.toNat) (window saved addr size.toNat)) := by
    unfold diffOf
    rw [hfile, hroute]
    change (if _ then _ else _) = _
    rw [if_neg hfits, peek_spans live hspans]
    change Except.ok (differences addr _ (((content saved region).drop (addr - base region).toNat).take _)) = _
    rw [dumped_part hspans]
  rw [hvalue]
  exact lists_differences addr size live saved

/-- The comparison of any other range raises. -/
theorem diffOf_outside (hout : ∀ region, ¬Spans region addr size) (path : Str) :
    ∃ e, diffOf live disk addr size path = .error e := by
  unfold diffOf
  cases disk.files path with
  | none => exact ⟨_, rfl⟩
  | some blob =>
    cases hroute : route addr size with
    | error e => exact ⟨e, rfl⟩
    | ok routed => exact absurd (spans_of_route hroute).1 (hout _)

/-- A comparison with a dump taken earlier in a session lists exactly the bytes of its range that the accepted
writes since then have changed, in order, whatever else was called in between. -/
theorem diff_lists_what_was_written {memory contents : ℤ → UInt8} {w v : TokenWorld} {after : Disk}
    {front middle back : List Exchange} {r : Except PyError (List DiffEntry)} (hw : Quiet memory contents w)
    (h : Conversation isalnum dumpsDir (servingMachine memory) w disk
      (front ++ ⟨.snapshotToDump scenario, .ok paths⟩ ::
        (middle ++ ⟨.diffLiveVsDump addr size (fileOf paths region), r⟩ :: back)) v after)
    (hkept : ∀ name, .snapshotToDump name ∈ middle.map Exchange.call →
      safeName isalnum name ≠ safeName isalnum scenario) :
    ∃ saved, (∀ x, saved x =
        (lastWritten ((front.map Exchange.call).filterMap Invocation.written) x).getD (contents x)) ∧
      (Spans region addr size → Lists (fun x =>
        (lastWritten ((middle.map Exchange.call).filterMap Invocation.written) x).getD (saved x)) saved addr size r) ∧
      ((∀ region, ¬Spans region addr size) → ∃ e, r = .error e) := by
  have hstore : Quiet memory (Store.mk contents disk).contents w := hw
  obtain ⟨hanswers, -⟩ := conversation_answers isalnum dumpsDir hstore h
  have hsnapshot := hanswers front _ _ rfl
  have hdiff := hanswers (front ++ ⟨.snapshotToDump scenario, .ok paths⟩ :: middle)
    ⟨.diffLiveVsDump addr size (fileOf paths region), r⟩ back (by simp)
  generalize hsaved : Store.afterAll isalnum dumpsDir ⟨contents, disk⟩ (front.map Exchange.call) = saved at hsnapshot
  obtain ⟨dir, hdir, hpaths⟩ := paths_snapshot hsnapshot.symm
  generalize hlive : Store.afterAll isalnum dumpsDir ⟨contents, disk⟩
    ((front ++ ⟨.snapshotToDump scenario, .ok paths⟩ :: middle).map Exchange.call) = live at hdiff
  have hsince : live = (saved.after isalnum dumpsDir (.snapshotToDump scenario)).afterAll isalnum dumpsDir
      (middle.map Exchange.call) := by
    rw [← hlive, ← hsaved]
    simp [Store.afterAll, List.foldl_append]
  have hfile : live.disk.files (fileOf paths region) = some (content saved.contents region) := by
    have hwhole : snapshotOf saved.contents isalnum dumpsDir scenario saved.disk =
        (.ok paths, (saved.after isalnum dumpsDir (.snapshotToDump scenario)).disk) :=
      Prod.ext hsnapshot.symm rfl
    rw [hsince, ← snapshot_files hwhole region, hpaths]
    exact files_afterAll hdir region _ _ hkept
  have hcontents : live.contents = fun x =>
      (lastWritten ((middle.map Exchange.call).filterMap Invocation.written) x).getD (saved.contents x) := by
    rw [hsince]
    exact funext (contents_afterAll isalnum dumpsDir _ _)
  have hanswer : r = diffOf live.contents live.disk addr size (fileOf paths region) := hdiff
  refine ⟨saved.contents, ?_, fun hspans => ?_, fun hout => ?_⟩
  · rw [← hsaved]
    exact contents_afterAll isalnum dumpsDir _ _
  · rw [hanswer, ← hcontents]
    exact lists_diffOf hfile hspans
  · rw [hanswer]
    exact diffOf_outside hout _

/-- One byte is written between a snapshot and a comparison. -/
theorem diff_lists_what_was_written_byte : ∃ (paths : Str × Str) (second : Except PyError (ℤ × ℕ))
    (r : Except PyError (List DiffEntry)) (v : TokenWorld) (after : Disk),
    Conversation Char.isAlphanum (some "dumps".toList) (servingMachine zeroMemory) pausedWorld openDisk
      [⟨.snapshotToDump "before".toList, .ok paths⟩, ⟨.writeMem 0x90000003 "01".toList true, second⟩,
        ⟨.diffLiveVsDump 0x90000000 16 paths.2, r⟩] v after ∧
      ∃ entries, r = .ok entries ∧ ⟨3, 0x90000003, 1, 0⟩ ∈ entries := by
  obtain ⟨paths, hpaths⟩ : ∃ paths, (snapshotOf zeroMemory Char.isAlphanum (some "dumps".toList)
    "before".toList openDisk).1 = .ok paths := ⟨_, rfl⟩
  have hstore : Quiet zeroMemory (Store.mk zeroMemory openDisk).contents pausedWorld := quiet_paused
  obtain ⟨exchanges, v, after, hmap, h⟩ := exists_conversation Char.isAlphanum (some "dumps".toList) hstore
    [.snapshotToDump "before".toList, .writeMem 0x90000003 "01".toList true,
      .diffLiveVsDump 0x90000000 16 paths.2]
  rcases exchanges with _ | ⟨⟨first, a⟩, _ | ⟨⟨second, b⟩, _ | ⟨⟨third, r⟩, _ | ⟨_, _⟩⟩⟩⟩ <;> simp at hmap
  obtain ⟨rfl, rfl, rfl⟩ := hmap
  have hfirst : a = .ok paths := ((conversation_answers Char.isAlphanum _ hstore h).1 [] _ _ rfl).trans hpaths
  subst hfirst
  have hspans : Spans .mem2 0x90000000 16 := ⟨by decide, by decide, by decide⟩
  have hsplit : Conversation Char.isAlphanum (some "dumps".toList) (servingMachine zeroMemory) pausedWorld openDisk
      ([] ++ ⟨.snapshotToDump "before".toList, .ok paths⟩ ::
        ([⟨.writeMem 0x90000003 "01".toList true, b⟩] ++
          ⟨.diffLiveVsDump 0x90000000 16 (fileOf paths .mem2), r⟩ :: [])) v after := h
  obtain ⟨saved, hsaved, hlists, -⟩ := diff_lists_what_was_written quiet_paused hsplit (by simp)
  have hwritten : ([.writeMem 0x90000003 "01".toList true] : List Invocation).filterMap Invocation.written =
      [⟨0x90000003, [1]⟩] := by decide +kernel
  have hzero : saved 0x90000003 = 0 := hsaved 0x90000003
  obtain ⟨entries, hr, -, hmem⟩ := hlists hspans
  refine ⟨paths, b, r, v, after, h, entries, hr, (hmem _).mpr ⟨0x90000003, by decide, by decide, ?_, ?_⟩⟩
  · change (lastWritten (([.writeMem 0x90000003 "01".toList true] : List Invocation).filterMap
      Invocation.written) 0x90000003).getD (saved 0x90000003) ≠ saved 0x90000003
    rw [hwritten, hzero]
    decide
  · change (⟨3, 0x90000003, 1, 0⟩ : DiffEntry) = ⟨_, _, (lastWritten (([.writeMem 0x90000003 "01".toList true] :
      List Invocation).filterMap Invocation.written) 0x90000003).getD (saved 0x90000003), saved 0x90000003⟩
    rw [hwritten, hzero]
    decide

end Changes

end DolphinRe.StoredMemory
