import DolphinRe.GdbClient
import DolphinRe.MemoryWindows
import DolphinRe.PacketNumerals

/-!
# Memory packets

The stub reads `m` and `M` packets by the protocol grammar and serves them on
a memory. What the client formats is read back as it was meant, and what is
served is read back by the client.
-/

namespace DolphinRe.MemoryPackets

open PythonText GdbPackets GdbClient PacketNumerals MemoryWindows

section Requests

/-- A request on the memory behind the stub. -/
inductive Request where
  | read (addr size : ℕ)
  | write (addr : ℕ) (data : List UInt8)
  deriving DecidableEq, Repr

/-- Split at the first colon. -/
def splitColon (s : Str) : Str × Str := (s.takeWhile (· ≠ ':'), (s.dropWhile (· ≠ ':')).drop 1)

/-- Read a memory packet by the protocol grammar; the length field of a write
counts its bytes. -/
def readRequest (payload : Str) : Option Request :=
  match payload with
  | 'm' :: fields =>
    match readNumeral (splitComma fields).1, readNumeral (splitComma fields).2 with
    | some addr, some size => some (.read addr size)
    | _, _ => none
  | 'M' :: fields =>
    let length := splitColon (splitComma fields).2
    match readNumeral (splitComma fields).1, readNumeral length.1, fromHex length.2 with
    | some addr, some size, some data => if data.length = size then some (.write addr data) else none
    | _, _, _ => none
  | _ => none

/-- Serve a request: the memory left behind, and the text of the reply. -/
def serve (memory : ℤ → UInt8) : Request → (ℤ → UInt8) × Str
  | .read addr size => (memory, toHex (window memory addr size))
  | .write addr data => (patch memory addr data, "OK".toList)

end Requests

section HexText

theorem hexByte_digits (b : UInt8) : ∀ c ∈ hexByte b.toNat, ∃ d < 16, c = Nat.digitChar d := by
  intro c hc
  have hb : b.toNat < 256 := UInt8.toNat_lt b
  rcases List.mem_cons.mp hc with hhigh | hlow
  · exact ⟨b.toNat / 16, by omega, hhigh⟩
  · exact ⟨b.toNat % 16, by omega, List.mem_singleton.mp hlow⟩

/-- What holds of the sixteen digits holds of every character of a hexadecimal text. -/
theorem forall_toHex {P : Char → Prop} (h : ∀ d < 16, P (Nat.digitChar d)) (blob : List UInt8) :
    ∀ c ∈ toHex blob, P c := by
  intro c hc
  obtain ⟨b, -, hcb⟩ := List.mem_flatMap.mp hc
  obtain ⟨d, hd, rfl⟩ := hexByte_digits b c hcb
  exact h d hd

theorem not_space_digitChar : ∀ d < 16, isAsciiSpace (Nat.digitChar d) = false := by decide

/-- A hexadecimal text is read back. -/
theorem fromHex_toHex (blob : List UInt8) : fromHex (toHex blob) = some blob := by
  induction blob with
  | nil => rfl
  | cons b blob ih =>
    have hb : b.toNat < 256 := UInt8.toNat_lt b
    have hhigh : b.toNat / 16 < 16 := by omega
    have hlow : b.toNat % 16 < 16 := by omega
    have hbyte : 16 * (b.toNat / 16) + b.toNat % 16 = b.toNat := by omega
    change fromHex (Nat.digitChar (b.toNat / 16) :: Nat.digitChar (b.toNat % 16) :: toHex blob) = _
    rw [fromHex, not_space_digitChar _ hhigh, if_neg Bool.false_ne_true, hexValue_digitChar _ hhigh,
      hexValue_digitChar _ hlow, ih]
    simp only [Option.map_some, hbyte, UInt8.ofNat_toNat]

/-- ASCII text survives the wire. -/
theorem decodeReplace_asciiBytes {s : Str} (h : ∀ c ∈ s, c.toNat < 128) :
    decodeReplace (asciiBytes s) = s := by
  induction s with
  | nil => rfl
  | cons c s ih =>
    have hc : c.toNat < 128 := h c List.mem_cons_self
    have hbyte : (UInt8.ofNat c.toNat).toNat = c.toNat := by
      rw [UInt8.toNat_ofNat']
      omega
    have hsmall : UInt8.ofNat c.toNat < 0x80 := by
      rw [UInt8.lt_iff_toNat_lt, hbyte]
      exact hc
    change decodeReplace (UInt8.ofNat c.toNat :: asciiBytes s) = c :: s
    rw [decodeReplace.eq_def]
    dsimp only
    rw [if_pos hsmall, hbyte, ih fun d hd => h d (List.mem_cons_of_mem c hd), Char.ofNat_toNat]

theorem ascii_digitChar : ∀ d < 16, (Nat.digitChar d).toNat < 128 := by decide

/-- A served text is the text the client decodes. -/
theorem decodeReplace_serve (memory : ℤ → UInt8) (request : Request) :
    decodeReplace (asciiBytes (serve memory request).2) = (serve memory request).2 := by
  cases request with
  | read addr size => exact decodeReplace_asciiBytes (forall_toHex (P := (·.toNat < 128)) ascii_digitChar _)
  | write addr data =>
    have hok : ∀ c ∈ "OK".toList, c.toNat < 128 := by simp
    exact decodeReplace_asciiBytes hok

end HexText

section Payloads

theorem ne_colon_digitChar : ∀ d < 16, Nat.digitChar d ≠ ':' := by decide

theorem splitColon_append {s : Str} (h : ':' ∉ s) (t : Str) : splitColon (s ++ ':' :: t) = (s, t) := by
  have hall : ∀ c ∈ s, decide (c ≠ ':') = true := by
    intro c hc
    simp only [decide_eq_true_eq]
    rintro rfl
    exact h hc
  unfold splitColon
  rw [List.takeWhile_append_of_pos hall, List.dropWhile_append_of_pos hall]
  simp

theorem readNumeral_hexDigits (n : ℕ) : readNumeral (hexDigits n) = some n := by
  have hread := readNumeral_formatHex (n : ℤ)
  have hneg : ¬(n : ℤ) < 0 := by omega
  rw [formatHex, if_neg hneg, if_neg hneg] at hread
  exact hread

theorem readNumeral_of_nonneg {n : ℤ} (h : 0 ≤ n) : readNumeral (formatHex n) = some n.toNat := by
  have habs : n.natAbs = n.toNat := by omega
  rw [readNumeral_formatHex, if_neg (by omega), habs]

/-- The stub reads the request the client means, unless a number is negative. -/
theorem readRequest_readMem {addr size : ℤ} (haddr : 0 ≤ addr) (hsize : 0 ≤ size) :
    readRequest (Command.readMem addr size).payload = some (.read addr.toNat size.toNat) := by
  have hpayload : (Command.readMem addr size).payload =
      'm' :: (formatHex addr ++ ',' :: formatHex size) := rfl
  rw [hpayload, readRequest, splitComma_append (comma_not_mem_formatHex addr)]
  dsimp only
  rw [readNumeral_of_nonneg haddr, readNumeral_of_nonneg hsize]

theorem readRequest_writeMem {addr : ℤ} (haddr : 0 ≤ addr) (data : List UInt8) :
    readRequest (Command.writeMem addr data).payload = some (.write addr.toNat data) := by
  have hpayload : (Command.writeMem addr data).payload =
      'M' :: (formatHex addr ++ ',' :: (hexDigits data.length ++ ':' :: toHex data)) := by
    change ('M' :: formatHex addr) ++ (',' :: hexDigits data.length) ++ (':' :: toHex data) = _
    simp only [List.cons_append, List.append_assoc]
  have hcolon : ':' ∉ hexDigits data.length := fun h =>
    forall_toDigits (P := (· ≠ ':')) ne_colon_digitChar data.length ':' h rfl
  rw [hpayload, readRequest, splitComma_append (comma_not_mem_formatHex addr)]
  dsimp only
  rw [splitColon_append hcolon]
  dsimp only
  rw [readNumeral_of_nonneg haddr, readNumeral_hexDigits, fromHex_toHex]
  dsimp only
  rw [if_pos rfl]

end Payloads

section Replies

theorem ne_upperE_digitChar : ∀ d < 16, Nat.digitChar d ≠ 'E' := by decide

/-- A served text that is not empty is not taken for an error. -/
theorem raiseIfError_toHex {blob : List UInt8} (h : blob ≠ []) (context : Str) :
    raiseIfError (toHex blob) context = .ok () := by
  obtain ⟨b, blob, rfl⟩ := List.exists_cons_of_ne_nil h
  have hb : b.toNat < 256 := UInt8.toNat_lt b
  change raiseIfError (Nat.digitChar (b.toNat / 16) :: Nat.digitChar (b.toNat % 16) :: toHex blob) _ = _
  rw [raiseIfError, if_neg]
  exact fun herror => ne_upperE_digitChar _ (by omega) herror.1

theorem fromHexOrRaise_toHex (blob : List UInt8) : fromHexOrRaise (toHex blob) = .ok blob := by
  rw [fromHexOrRaise, fromHex_toHex]

end Replies

end DolphinRe.MemoryPackets
