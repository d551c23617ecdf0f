import DolphinRe.PythonText

/-!
# Remote serial protocol packets

Commands keep the payload text the client formats. What the stub sends is a
sequence of tokens: acknowledgements, framed packets and stray bytes. Every
token carries a tag chosen by the sender, and every byte of its rendering
carries the same tag. The client is generic in the tag type, so tags record
where bytes come from without influencing what the client does.
-/

namespace DolphinRe.GdbPackets

open PythonText

/-- The five breakpoint kinds, in the order of their packet numbers. -/
inductive BpKind where
  | swBp
  | hwBp
  | writeWp
  | readWp
  | accessWp
  deriving DecidableEq, Repr

/-- The digit after `Z` or `z`. -/
def BpKind.code : BpKind → Char
  | .swBp => '0'
  | .hwBp => '1'
  | .writeWp => '2'
  | .readWp => '3'
  | .accessWp => '4'

/-- The kind announced by a packet digit. -/
def BpKind.ofCode : Char → Option BpKind
  | '0' => some .swBp
  | '1' => some .hwBp
  | '2' => some .writeWp
  | '3' => some .readWp
  | '4' => some .accessWp
  | _ => none

theorem BpKind.ofCode_code (kind : BpKind) : BpKind.ofCode kind.code = some kind := by
  cases kind <;> rfl

/-- Packets the client sends. -/
inductive Command where
  /-- `c`: resume the target; acknowledged, not answered. -/
  | resume
  /-- `s`: execute one instruction. -/
  | step
  /-- `qC`: current thread, used as a heartbeat and as a fence. -/
  | currentThread
  /-- `?`: why the target is halted. -/
  | whyHalted
  /-- `g`: the thirty-two general registers. -/
  | readRegisters
  /-- `p<n>`: one register. -/
  | readRegister (regnum : ℕ)
  /-- `m<addr>,<size>`. -/
  | readMem (addr size : ℤ)
  /-- `M<addr>,<size>:<hex>`. -/
  | writeMem (addr : ℤ) (data : List UInt8)
  /-- `Z<n>` inserts and `z<n>` deletes a breakpoint. -/
  | setBreak (insert : Bool) (kind : BpKind) (addr size : ℤ)
  /-- `qSupported`: the features of the stub. -/
  | querySupported
  /-- `D`: let the target run and stop debugging it. -/
  | detach
  deriving DecidableEq, Repr

/-- The payload text of a command; the size of a breakpoint packet is printed
in decimal, every other number in base sixteen. -/
def Command.payload : Command → Str
  | .resume => "c".toList
  | .step => "s".toList
  | .currentThread => "qC".toList
  | .whyHalted => "?".toList
  | .readRegisters => "g".toList
  | .readRegister n => 'p' :: hexDigits n
  | .readMem addr size => 'm' :: formatHex addr ++ ',' :: formatHex size
  | .writeMem addr data => 'M' :: formatHex addr ++ ',' :: hexDigits data.length ++ ':' :: toHex data
  | .setBreak insert kind addr size =>
    (if insert then 'Z' else 'z') :: kind.code :: ',' :: formatHex addr ++ ',' :: formatDec size
  | .querySupported => "qSupported:multiprocess+;swbreak+;hwbreak+".toList
  | .detach => "D".toList

/-- Only `c` is not followed by a reply frame. -/
def Command.answered : Command → Bool
  | .resume => false
  | _ => true

/-- What leaves the client: a framed command or the interrupt byte `0x03`. -/
inductive Sent where
  | packet (command : Command)
  | interrupt
  deriving DecidableEq, Repr

/-- A numeral as the protocol reads it: at least one digit, base sixteen. -/
def readNumeral (s : Str) : Option ℕ :=
  if s = [] then none else s.foldlM (fun value c => (hexValue c).map (16 * value + ·)) 0

/-- Split at the first comma. -/
def splitComma (s : Str) : Str × Str := (s.takeWhile (· ≠ ','), (s.dropWhile (· ≠ ',')).drop 1)

/-- A breakpoint as the stub stores it. -/
structure Point where
  /-- Breakpoint kind. -/
  kind : BpKind
  /-- First covered address. -/
  addr : ℤ
  /-- Number of covered bytes. -/
  size : ℤ
  deriving DecidableEq, Repr

/-- Read a breakpoint packet by the protocol grammar, where both numeric fields
are base-sixteen numerals. -/
def readPoint (payload : Str) : Option (Bool × Point) :=
  match payload with
  | op :: code :: ',' :: fields =>
    match BpKind.ofCode code, readNumeral (splitComma fields).1,
        readNumeral (splitComma fields).2 with
    | some kind, some addr, some size =>
      if op = 'Z' then some (true, ⟨kind, addr, size⟩)
      else if op = 'z' then some (false, ⟨kind, addr, size⟩)
      else none
    | _, _, _ => none
  | _ => none

/-- A received payload, decoded to text, with the tag of its frame. -/
structure Packet (τ : Type) where
  /-- Decoded payload. -/
  text : Str
  /-- Where the frame came from. -/
  tag : τ
  deriving DecidableEq, Repr

/-- A frame body: the delimiter `#` is escaped, so it never occurs. -/
abbrev Body := {bytes : List UInt8 // 35 ∉ bytes}

/-- A byte that starts neither a frame nor an acknowledgement. -/
abbrev StrayByte := {byte : UInt8 // byte ≠ 36 ∧ byte ≠ 43}

/-- What the stub puts on the wire. -/
inductive Token (τ : Type) where
  /-- The acknowledgement `+`. -/
  | ack (tag : τ)
  /-- A framed payload `$body#xx`. -/
  | frame (body : Body) (tag : τ)
  /-- Any other byte, such as the refusal `-`. -/
  | stray (byte : StrayByte) (tag : τ)
  deriving DecidableEq, Repr

/-- Where a token came from. -/
def Token.tag {τ : Type} : Token τ → τ
  | .ack tag | .frame _ tag | .stray _ tag => tag

/-- Only frames deliver a payload. -/
def Token.isFrame {τ : Type} : Token τ → Bool
  | .frame _ _ => true
  | _ => false

/-- The replacement character of lenient decoding. -/
def replacement : Char := Char.ofNat 0xfffd

/-- Continuation bytes of a multi-byte sequence. -/
def isContinuation (b : UInt8) : Bool := 0x80 ≤ b && b ≤ 0xbf

/-- Bytes allowed second in a three-byte sequence. -/
def isSecondOfThree (lead b : UInt8) : Bool :=
  (if lead = 0xe0 then 0xa0 ≤ b else 0x80 ≤ b) && (if lead = 0xed then b ≤ 0x9f else b ≤ 0xbf)

/-- Bytes allowed second in a four-byte sequence. -/
def isSecondOfFour (lead b : UInt8) : Bool :=
  (if lead = 0xf0 then 0x90 ≤ b else 0x80 ≤ b) && (if lead = 0xf4 then b ≤ 0x8f else b ≤ 0xbf)

/-- `body.decode(errors="replace")`: each maximal ill-formed prefix becomes one
replacement character. -/
def decodeReplace : List UInt8 → Str
  | [] => []
  | a :: rest =>
    if a < 0x80 then Char.ofNat a.toNat :: decodeReplace rest
    else if 0xc2 ≤ a && a ≤ 0xdf then
      match rest with
      | [] => [replacement]
      | b :: rest' =>
        if isContinuation b then
          Char.ofNat ((a.toNat - 0xc0) * 64 + (b.toNat - 0x80)) :: decodeReplace rest'
        else replacement :: decodeReplace (b :: rest')
    else if 0xe0 ≤ a && a ≤ 0xef then
      match rest with
      | [] => [replacement]
      | b :: rest' =>
        if isSecondOfThree a b then
          match rest' with
          | [] => [replacement]
          | c :: rest'' =>
            if isContinuation c then
              Char.ofNat ((a.toNat - 0xe0) * 4096 + (b.toNat - 0x80) * 64 + (c.toNat - 0x80)) ::
                decodeReplace rest''
            else replacement :: decodeReplace (c :: rest'')
        else replacement :: decodeReplace (b :: rest')
    else if 0xf0 ≤ a && a ≤ 0xf4 then
      match rest with
      | [] => [replacement]
      | b :: rest' =>
        if isSecondOfFour a b then
          match rest' with
          | [] => [replacement]
          | c :: rest'' =>
            if isContinuation c then
              match rest'' with
              | [] => [replacement]
              | d :: rest''' =>
                if isContinuation d then
                  Char.ofNat ((a.toNat - 0xf0) * 262144 + (b.toNat - 0x80) * 4096 +
                    (c.toNat - 0x80) * 64 + (d.toNat - 0x80)) :: decodeReplace rest'''
                else replacement :: decodeReplace (d :: rest''')
            else replacement :: decodeReplace (c :: rest'')
        else replacement :: decodeReplace (b :: rest')
    else replacement :: decodeReplace rest

/-- The bytes of ASCII text. -/
def asciiBytes (s : Str) : List UInt8 := s.map fun c => UInt8.ofNat c.toNat

/-- Sum of the payload bytes modulo 256. -/
def checksum (body : List UInt8) : ℕ := body.foldl (fun sum b => sum + b.toNat) 0 % 256

section Rendering

variable {τ : Type}

/-- The packet a frame delivers. -/
def framePacket (body : Body) (tag : τ) : Packet τ := ⟨decodeReplace body.val, tag⟩

/-- One byte on the wire with the tag of its token. -/
structure Cell (τ : Type) where
  /-- The byte. -/
  byte : UInt8
  /-- Where it came from. -/
  tag : τ
  deriving DecidableEq, Repr

/-- Bytes that share one tag. -/
def cells (tag : τ) (bytes : List UInt8) : List (Cell τ) := bytes.map fun b => ⟨b, tag⟩

/-- The checksum field of a frame: two lowercase hexadecimal digits. -/
def checksumField (body : List UInt8) : List UInt8 := asciiBytes (hexByte (checksum body))

/-- The bytes of one token. -/
def Token.render : Token τ → List (Cell τ)
  | .ack tag => [⟨43, tag⟩]
  | .frame body tag => ⟨36, tag⟩ :: cells tag body.val ++ ⟨35, tag⟩ :: cells tag (checksumField body.val)
  | .stray byte tag => [⟨byte.val, tag⟩]

/-- The bytes of a token sequence. -/
def renderAll (tokens : List (Token τ)) : List (Cell τ) := tokens.flatMap Token.render

@[simp] theorem renderAll_nil : renderAll ([] : List (Token τ)) = [] := rfl

@[simp] theorem renderAll_cons (t : Token τ) (ts : List (Token τ)) :
    renderAll (t :: ts) = t.render ++ renderAll ts := rfl

@[simp] theorem renderAll_append (ts us : List (Token τ)) :
    renderAll (ts ++ us) = renderAll ts ++ renderAll us := by
  simp [renderAll]

/-- Tokens without a frame render without the byte `$`. -/
theorem dollar_free_render {ts : List (Token τ)} (h : ∀ t ∈ ts, t.isFrame = false) :
    ∀ c ∈ renderAll ts, c.byte ≠ 36 := by
  intro c hc
  obtain ⟨t, ht, hct⟩ := List.mem_flatMap.mp hc
  have hf := h t ht
  cases t with
  | ack tag =>
    simp only [Token.render, List.mem_singleton] at hct
    subst hct
    exact (by decide : (43 : UInt8) ≠ 36)
  | frame body tag => simp [Token.isFrame] at hf
  | stray byte tag =>
    simp only [Token.render, List.mem_singleton] at hct
    subst hct
    exact byte.property.1

end Rendering

end DolphinRe.GdbPackets
