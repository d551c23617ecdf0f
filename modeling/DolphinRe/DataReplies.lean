import DolphinRe.HexNumerals
import DolphinRe.StubBehaviour

/-!
# Data replies and error replies

Data and errors share one space of texts. Block and memory reads take an `E`
with two hexadecimal digits behind it for an error, whatever follows; register
reads take any leading `E` for one. Bytes that a stub prints in upper case may
start with that letter.
-/

namespace DolphinRe.DataReplies

open PythonText GdbPackets GdbWire GdbTokens StopReplies EffectProgram SessionMachine GdbClient
  LinkRefinement StubBehaviour HexNumerals

section Commands

variable {τ N L : Type} {link : Link τ N L}

/-- A packet of the given text arrives. -/
def delivers (text : Str) : Except PyError (Packet τ) → Bool
  | .ok packet => packet.text = text
  | .error _ => false

/-- Every packet is sent and acknowledged, and every packet read has one text. -/
def answersWith (text : Str) : Discipline τ := fun o _ _ answer =>
  match o, answer with
  | .send _, r => r = .ok ()
  | .consumeAck, r => r = .ok ()
  | .readPacketFromWire _, r => delivers text r = true
  | _, _ => True

instance (text : Str) (o : Op τ) (c : Choice τ Unit) (w : World τ Unit) (answer : o.Answer) :
    Decidable (answersWith text o c w answer) := by
  induction o using Op.casesOn with
  | send message => exact inferInstanceAs (Decidable ((_ : Except PyError Unit) = _))
  | consumeAck => exact inferInstanceAs (Decidable ((_ : Except PyError Unit) = _))
  | readPacketFromWire timeout => exact inferInstanceAs (Decidable (_ = true))
  | _ => exact isTrue trivial

variable {text : Str}

/-- Sending succeeds. -/
theorem wp_sendall_answered (message : Sent) (w : World τ L) :
    (sendall message : Code τ Unit).wp (disciplined link (answersWith text))
      (fun r _ => r = .ok ()) w := by
  rw [wp_sendall]
  exact fun c hc => hc.2

/-- The acknowledgement comes. -/
theorem wp_consumeAck_answered (w : World τ L) :
    (consumeAck : Code τ Unit).wp (disciplined link (answersWith text)) (fun r _ => r = .ok ()) w := by
  rw [wp_consumeAck]
  exact fun c hc => hc.2

/-- The packet that is delivered carries the text. -/
theorem delivers_ok {r : Except PyError (Packet τ)} (h : delivers text r = true) :
    ∃ packet, r = .ok packet ∧ packet.text = text := by
  cases r with
  | ok packet => exact ⟨packet, rfl, by simpa [delivers] using h⟩
  | error e => simp [delivers] at h

/-- A command receives the text. -/
theorem wp_cmd_answered (command : Command) (w : World τ L) :
    (cmd command : Code τ (Packet τ)).wp (disciplined link (answersWith text))
      (fun r _ => ∃ packet, r = .ok packet ∧ packet.text = text) w := by
  unfold cmd sendPacket
  rw [Program.bind_eq, Program.bind_eq, Program.wp_bind, Program.wp_bind]
  refine Program.wp_mono ?_ (wp_sendall_answered _ w)
  rintro r v rfl
  rw [Program.onValue_ok]
  refine Program.wp_mono ?_ (wp_consumeAck_answered v)
  rintro r u rfl
  rw [Program.onValue_ok, wp_readPacketFromWire]
  exact fun c hc => delivers_ok hc.2

/-- What `read_mem` and `read_registers` make of a reply. -/
def dataReply (context text : Str) : Except PyError (List UInt8) :=
  match raiseIfError text context with
  | .ok () => fromHexOrRaise text
  | .error e => .error e

/-- What the two register reads make of a reply. -/
def registerReply (text : Str) : Option (List UInt8) :=
  if text = [] ∨ startsWith "E".toList text then none else fromHex text

/-- A check of the reply and its decoding. -/
theorem wp_dataReply (command : Command) (context : Str) (w : World τ L) :
    ((cmd command).bind fun reply => (Program.ofExcept (raiseIfError reply.text context)).bind fun _ =>
        Program.ofExcept (fromHexOrRaise reply.text) : Code τ (List UInt8)).wp
      (disciplined link (answersWith text)) (fun r _ => r = dataReply context text) w := by
  rw [Program.wp_bind]
  refine Program.wp_mono ?_ (wp_cmd_answered command w)
  rintro r v ⟨packet, rfl, rfl⟩
  rw [Program.onValue_ok, Program.wp_bind, Program.wp_ofExcept]
  unfold dataReply
  cases raiseIfError packet.text context with
  | error e => rfl
  | ok u =>
    rw [Program.onValue_ok, Program.wp_ofExcept]

/-- A read of memory decodes the text. -/
theorem wp_readMem_answered (addr size : ℤ) (w : World τ L) :
    (readMem addr size : Code τ (List UInt8)).wp (disciplined link (answersWith text))
      (fun r _ => r = dataReply (Command.readMem addr size).payload text) w :=
  wp_dataReply _ _ w

/-- So does a read of all registers. -/
theorem wp_readRegisters_answered (w : World τ L) :
    (readRegisters : Code τ (List UInt8)).wp (disciplined link (answersWith text))
      (fun r _ => r = dataReply "g".toList text) w :=
  wp_dataReply _ _ w

/-- So does a read of the bytes of one. -/
theorem wp_readRegisterBytes_answered (regnum : ℕ) (w : World τ L) :
    (readRegisterBytes regnum : Code τ (Option (List UInt8))).wp (disciplined link (answersWith text))
      (fun r _ => r = .ok (registerReply text)) w := by
  unfold readRegisterBytes
  rw [Program.bind_eq, Program.wp_bind]
  refine Program.wp_mono ?_ (wp_cmd_answered _ w)
  rintro r v ⟨packet, rfl, rfl⟩
  rfl

/-- A read of a register makes a number of them. -/
theorem wp_readRegister_answered (regnum : ℕ) (w : World τ L) :
    (readRegister regnum : Code τ (Option ℕ)).wp (disciplined link (answersWith text))
      (fun r _ => r = .ok ((registerReply text).map fromBytesBig)) w := by
  unfold readRegister
  rw [Program.bind_eq, Program.wp_bind]
  refine Program.wp_mono ?_ (wp_cmd_answered _ w)
  rintro r v ⟨packet, rfl, rfl⟩
  rw [Program.onValue_ok]
  change Except.ok _ = Except.ok _
  unfold registerReply
  split_ifs <;> rfl

end Commands

section Texts

variable {blob : List UInt8} {text : Str}

/-- An error reply: `E` with exactly two hexadecimal digits behind it. -/
def IsErrorReply (text : Str) : Prop :=
  ∃ c d, text = ['E', c, d] ∧ (hexValue c).isSome = true ∧ (hexValue d).isSome = true

/-- An error is raised as one. -/
theorem dataReply_of_error (h : IsErrorReply text) (context : Str) :
    ∃ message, dataReply context text = .error (.gdbStubError message) := by
  obtain ⟨c, d, rfl, hc, hd⟩ := h
  have herror : 'E' = 'E' ∧ 2 ≤ [c, d].length ∧ ([c, d].take 2).all fun x => (hexValue x).isSome := by
    simp [hc, hd]
  exact ⟨_, by rw [dataReply, raiseIfError, if_pos herror]⟩

/-- Of a register it leaves nothing. -/
theorem registerReply_of_error (h : IsErrorReply text) : registerReply text = none := by
  obtain ⟨c, d, rfl, -, -⟩ := h
  have herror : startsWith "E".toList ['E', c, d] = true := by simp [startsWith]
  rw [registerReply, if_pos (Or.inr herror)]

/-- Several bytes whose text starts with `E` are taken for an error. -/
theorem raiseIfError_renders (hblob : blob ≠ []) (h : Renders blob text) (context : Str) :
    raiseIfError text context = .ok () ↔ (text.head? = some 'E' → blob.length = 1) := by
  obtain ⟨c, rest, rfl, hlength, hdigits⟩ := h.exists_cons hblob
  have hpos : 0 < blob.length := List.length_pos_iff.mpr hblob
  have hall : (rest.take 2).all (fun x => (hexValue x).isSome) = true :=
    List.all_eq_true.mpr fun x hx => hdigits x (List.mem_of_mem_take hx)
  rw [raiseIfError, List.head?_cons, Option.some.injEq]
  by_cases herror : c = 'E' ∧ 2 ≤ rest.length ∧ (rest.take 2).all fun x => (hexValue x).isSome
  · rw [if_pos herror]
    have hlong : blob.length ≠ 1 := by
      have htwo := herror.2.1
      omega
    exact iff_of_false (by simp) fun hone => hlong (hone herror.1)
  · rw [if_neg herror]
    refine iff_of_true rfl fun hc => ?_
    have hshort : ¬2 ≤ rest.length := fun htwo => herror ⟨hc, htwo, hall⟩
    omega

/-- Digits are decoded exactly unless they look like an error. -/
theorem dataReply_iff (hblob : blob ≠ []) (h : Renders blob text) (context : Str) :
    dataReply context text = .ok blob ↔ (text.head? = some 'E' → blob.length = 1) := by
  rw [← raiseIfError_renders hblob h context, dataReply, fromHexOrRaise, fromHex_of_renders h]
  cases raiseIfError text context with
  | ok u => exact iff_of_true rfl rfl
  | error e => simp

/-- A leading `E` is taken for an error. -/
theorem registerReply_of_upper (h : text.head? = some 'E') : registerReply text = none := by
  have herror : startsWith "E".toList text = true := by
    cases text with
    | nil => simp at h
    | cons c rest =>
      rw [List.head?_cons, Option.some.injEq] at h
      simp [startsWith, h]
  rw [registerReply, if_pos (Or.inr herror)]

/-- So are the digits of a register. -/
theorem registerReply_iff (hblob : blob ≠ []) (h : Renders blob text) :
    registerReply text = some blob ↔ text.head? ≠ some 'E' := by
  by_cases hhead : text.head? = some 'E'
  · rw [registerReply_of_upper hhead]
    exact iff_of_false (by simp) fun hne => hne hhead
  · have hread := fromHex_of_renders h
    obtain ⟨c, rest, rfl, -, -⟩ := h.exists_cons hblob
    have hc : c ≠ 'E' := by simpa using hhead
    have hdata : ¬(c :: rest = [] ∨ startsWith "E".toList (c :: rest) = true) := by
      simp [startsWith, Ne.symm hc]
    rw [registerReply, if_neg hdata, hread]
    exact iff_of_true rfl hhead

end Texts

section Main

variable {τ N L : Type} {link : Link τ N L} {blob : List UInt8} {text : Str}

/-- Errors are never taken for data. -/
structure ErrorsKnown (link : Link τ N L) (w : World τ L) (text : Str) : Prop where
  /-- A read of memory raises. -/
  mem : ∀ addr size r v, (readMem addr size).Reaches (disciplined link (answersWith text)) w r v →
    ∃ message, r = .error (.gdbStubError message)
  /-- A read of all registers raises. -/
  registers : ∀ r v, readRegisters.Reaches (disciplined link (answersWith text)) w r v →
    ∃ message, r = .error (.gdbStubError message)
  /-- A read of a register answers with nothing. -/
  register : ∀ regnum r v,
    (readRegister regnum).Reaches (disciplined link (answersWith text)) w r v → r = .ok none
  /-- So does a read of the bytes of a register. -/
  registerBytes : ∀ regnum r v,
    (readRegisterBytes regnum).Reaches (disciplined link (answersWith text)) w r v → r = .ok none

/-- No error is taken for data. -/
theorem errorsKnown (h : IsErrorReply text) (w : World τ L) : ErrorsKnown link w text where
  mem addr size r v hreach := by
    rw [Program.reaches_of_wp (wp_readMem_answered addr size w) hreach]
    exact dataReply_of_error h _
  registers r v hreach := by
    rw [Program.reaches_of_wp (wp_readRegisters_answered w) hreach]
    exact dataReply_of_error h _
  register regnum r v hreach := by
    rw [Program.reaches_of_wp (wp_readRegister_answered regnum w) hreach, registerReply_of_error h]
    rfl
  registerBytes regnum r v hreach := by
    rw [Program.reaches_of_wp (wp_readRegisterBytes_answered regnum w) hreach, registerReply_of_error h]

/-- Bytes printed in digits of either case are read back by the block and memory reads exactly
when the text does not start with an upper-case `E` or shows one byte only, and by the register
reads exactly when it does not start with an upper-case `E`; error replies are always known. -/
theorem replies_decode_iff (hblob : blob ≠ []) (hshown : Renders blob text) (w : World τ L) :
    (∀ addr size r v, (readMem addr size).Reaches (disciplined link (answersWith text)) w r v →
      (r = .ok blob ↔ (text.head? = some 'E' → blob.length = 1))) ∧
    (∀ r v, readRegisters.Reaches (disciplined link (answersWith text)) w r v →
      (r = .ok blob ↔ (text.head? = some 'E' → blob.length = 1))) ∧
    (∀ regnum r v, (readRegister regnum).Reaches (disciplined link (answersWith text)) w r v →
      (r = .ok (some (fromBytesBig blob)) ↔ text.head? ≠ some 'E')) ∧
    (∀ regnum r v, (readRegisterBytes regnum).Reaches (disciplined link (answersWith text)) w r v →
      (r = .ok (some blob) ↔ text.head? ≠ some 'E')) ∧
    ∀ error, IsErrorReply error → ErrorsKnown link w error := by
  refine ⟨fun addr size r v hreach => ?_, fun r v hreach => ?_, fun regnum r v hreach => ?_,
    fun regnum r v hreach => ?_, fun error herror => errorsKnown herror w⟩
  · rw [Program.reaches_of_wp (wp_readMem_answered addr size w) hreach]
    exact dataReply_iff hblob hshown _
  · rw [Program.reaches_of_wp (wp_readRegisters_answered w) hreach]
    exact dataReply_iff hblob hshown _
  · rw [Program.reaches_of_wp (wp_readRegister_answered regnum w) hreach]
    by_cases hhead : text.head? = some 'E'
    · rw [registerReply_of_upper hhead]
      exact iff_of_false (by simp) fun hne => hne hhead
    · rw [(registerReply_iff hblob hshown).mpr hhead]
      exact iff_of_true rfl hhead
  · rw [Program.reaches_of_wp (wp_readRegisterBytes_answered regnum w) hreach, Except.ok.injEq]
    exact registerReply_iff hblob hshown

end Main

section Samples

/-- A command that is answered with a text. -/
def answeredWith (body : Body) : List (Choice Origin TokenNet) :=
  [{net := default, response := [.ack (.reply 0), .frame body (.reply 0)]}, {net := default},
    {net := default}]

/-- Two bytes, the first of which starts with the digit fourteen. -/
def sampleBytes : List UInt8 := [0xE1, 0x23]

/-- The sample bytes in lower case. -/
theorem renders_sample_lower : Renders sampleBytes "e123".toList :=
  .cons (.inl rfl) (.inl rfl) (.cons (.inl rfl) (.inl rfl) .nil)

/-- The same bytes in upper case. -/
theorem renders_sample_upper : Renders sampleBytes "E123".toList :=
  .cons (.inr rfl) (.inr rfl) (.cons (.inr rfl) (.inr rfl) .nil)

/-- In lower case they are decoded. -/
theorem replies_decode_iff_sample : ∃ v,
    (readMem 0x80000000 2).Reaches (disciplined (tokenLink Origin) (answersWith "e123".toList))
      pausedWorld (.ok sampleBytes) v ∧
    ((Except.ok sampleBytes : Except PyError (List UInt8)) = .ok sampleBytes ↔
      ("e123".toList.head? = some 'E' → sampleBytes.length = 1)) := by
  have hreach : (readMem 0x80000000 2).Reaches
      (disciplined (tokenLink Origin) (answersWith "e123".toList)) pausedWorld (.ok sampleBytes)
      ((readMem 0x80000000 2).run (disciplined (tokenLink Origin) (answersWith "e123".toList))
        (answeredWith ⟨asciiBytes "e123".toList, by decide⟩) pausedWorld).2.1 :=
    Program.reaches_along (by decide +kernel) (by decide +kernel)
  exact ⟨_, hreach, (replies_decode_iff (by simp [sampleBytes]) renders_sample_lower pausedWorld).1
    _ _ _ _ hreach⟩

/-- The same bytes in upper case: the memory read raises and the register read answers nothing. -/
theorem upper_case_is_taken_for_an_error : Renders sampleBytes "E123".toList ∧
    (∃ message v, (readMem 0x80000000 2).Reaches
      (disciplined (tokenLink Origin) (answersWith "E123".toList)) pausedWorld
      (.error (.gdbStubError message)) v) ∧
    ∃ v, (readRegister 0x40).Reaches (disciplined (tokenLink Origin) (answersWith "E123".toList))
      pausedWorld (.ok none) v := by
  refine ⟨renders_sample_upper, ⟨"m80000000,2: stub error E123",
    ((readMem 0x80000000 2).run (disciplined (tokenLink Origin) (answersWith "E123".toList))
      (answeredWith ⟨asciiBytes "E123".toList, by decide⟩) pausedWorld).2.1, ?_⟩,
    ((readRegister 0x40).run (disciplined (tokenLink Origin) (answersWith "E123".toList))
      (answeredWith ⟨asciiBytes "E123".toList, by decide⟩) pausedWorld).2.1, ?_⟩
  · exact Program.reaches_along (by decide +kernel) (by decide +kernel)
  · exact Program.reaches_along (by decide +kernel) (by decide +kernel)

end Samples

end DolphinRe.DataReplies
