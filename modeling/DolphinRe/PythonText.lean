import Mathlib.Data.List.Basic
import Mathlib.Data.Int.Notation

/-!
# Text primitives of the host language

Strings are lists of characters. Number formatting, base-sixteen parsing and
hexadecimal byte strings follow the documented behaviour of `format`, `int`
and `bytes.fromhex`, including the whitespace, sign, prefix and underscore
rules that the callers never restrict.
-/

namespace DolphinRe.PythonText

/-- A text value. -/
abbrev Str := List Char

/-- Lower-case base-sixteen digits of a natural number. -/
def hexDigits (n : ℕ) : Str := Nat.toDigits 16 n

/-- `f"{n:x}"`. -/
def formatHex (n : ℤ) : Str := if n < 0 then '-' :: hexDigits n.natAbs else hexDigits n.natAbs

/-- `f"{n:08x}"`; a sign is one of the eight characters. -/
def formatHex8 (n : ℤ) : Str :=
  if n < 0 then '-' :: List.leftpad 7 '0' (hexDigits n.natAbs)
  else List.leftpad 8 '0' (hexDigits n.natAbs)

/-- `f"{n}"`. -/
def formatDec (n : ℤ) : Str :=
  if n < 0 then '-' :: Nat.toDigits 10 n.natAbs else Nat.toDigits 10 n.natAbs

/-- `f"{n:02x}"` for a byte. -/
def hexByte (n : ℕ) : Str := [Nat.digitChar (n / 16), Nat.digitChar (n % 16)]

/-- Value of a digit character in bases up to thirty-six. -/
def digitValue (c : Char) : Option ℕ :=
  if '0' ≤ c ∧ c ≤ '9' then some (c.toNat - 48)
  else if 'a' ≤ c ∧ c ≤ 'z' then some (c.toNat - 87)
  else if 'A' ≤ c ∧ c ≤ 'Z' then some (c.toNat - 55)
  else none

/-- Code points of the zeros of the decimal digit blocks of Unicode 15. -/
def decimalZeros : List ℕ :=
  [0x30, 0x660, 0x6f0, 0x7c0, 0x966, 0x9e6, 0xa66, 0xae6, 0xb66, 0xbe6, 0xc66, 0xce6, 0xd66,
    0xde6, 0xe50, 0xed0, 0xf20, 0x1040, 0x1090, 0x17e0, 0x1810, 0x1946, 0x19d0, 0x1a80, 0x1a90,
    0x1b50, 0x1bb0, 0x1c40, 0x1c50, 0xa620, 0xa8d0, 0xa900, 0xa9d0, 0xa9f0, 0xaa50, 0xabf0,
    0xff10, 0x104a0, 0x10d30, 0x11066, 0x110f0, 0x11136, 0x111d0, 0x112f0, 0x11450, 0x114d0,
    0x11650, 0x116c0, 0x11730, 0x118e0, 0x11950, 0x11c50, 0x11d50, 0x11da0, 0x11f50, 0x16a60,
    0x16ac0, 0x16b50, 0x1d7ce, 0x1d7d8, 0x1d7e2, 0x1d7ec, 0x1d7f6, 0x1e140, 0x1e2f0, 0x1e4f0, 0x1e950,
    0x1fbf0]

/-- Characters outside ASCII that count as whitespace. -/
def wideSpaces : List ℕ :=
  [0x85, 0xa0, 0x1680, 0x2000, 0x2001, 0x2002, 0x2003, 0x2004, 0x2005, 0x2006, 0x2007, 0x2008,
    0x2009, 0x200a, 0x2028, 0x2029, 0x202f, 0x205f, 0x3000]

/-- One character of a non-ASCII numeral: wide spaces become blanks, decimal
digits become ASCII digits and every other wide character is unreadable. -/
def narrowChar (c : Char) : Char :=
  if c.toNat < 127 then c
  else if c.toNat ∈ wideSpaces then ' '
  else match decimalZeros.find? (fun z => z ≤ c.toNat && c.toNat < z + 10) with
    | some z => Nat.digitChar (c.toNat - z)
    | none => '?'

/-- Narrow a numeral to ASCII; pure ASCII text is left as it is. -/
def narrow (s : Str) : Str := if s.all (fun c => c.toNat < 128) then s else s.map narrowChar

/-- Whitespace skipped around a numeral and between hexadecimal bytes. -/
def isAsciiSpace (c : Char) : Bool := c = ' ' || (9 ≤ c.toNat && c.toNat ≤ 13)

/-- Digits with single underscores between them; `afterUnderscore` records
that the previous character was an underscore. -/
def scanDigits (base : ℕ) : Bool → ℕ → Str → Option (ℕ × Str)
  | afterUnderscore, value, [] => if afterUnderscore then none else some (value, [])
  | afterUnderscore, value, c :: rest =>
    if c = '_' then if afterUnderscore then none else scanDigits base true value rest
    else match digitValue c with
      | some d =>
        if d < base then scanDigits base false (value * base + d) rest
        else if afterUnderscore then none else some (value, c :: rest)
      | none => if afterUnderscore then none else some (value, c :: rest)

/-- A non-empty run of digits that starts with a digit. -/
def scanNumeral (base : ℕ) (s : Str) : Option (ℕ × Str) :=
  match s with
  | [] => none
  | c :: _ =>
    match digitValue c with
    | some d => if d < base then scanDigits base false 0 s else none
    | none => none

/-- Drop a `0x` prefix and the one underscore allowed after it. -/
def dropHexPrefix : Str → Str
  | '0' :: 'x' :: '_' :: rest => rest
  | '0' :: 'X' :: '_' :: rest => rest
  | '0' :: 'x' :: rest => rest
  | '0' :: 'X' :: rest => rest
  | s => s

/-- An optional sign. -/
def splitSign : Str → Bool × Str
  | '+' :: rest => (false, rest)
  | '-' :: rest => (true, rest)
  | s => (false, s)

/-- `int(s, 16)`; `none` models the raised `ValueError`. -/
def parseHexInt (s : Str) : Option ℤ :=
  let (negative, unsigned) := splitSign ((narrow s).dropWhile isAsciiSpace)
  match scanNumeral 16 (dropHexPrefix unsigned) with
  | some (value, rest) =>
    if rest.all isAsciiSpace then some (if negative then -(value : ℤ) else value) else none
  | none => none

/-- A hexadecimal digit of either case. -/
def hexValue (c : Char) : Option ℕ := (digitValue c).filter (· < 16)

/-- `bytes.fromhex(s)`; whitespace may separate bytes, never the two digits of
one byte. -/
def fromHex : Str → Option (List UInt8)
  | [] => some []
  | [c] => if isAsciiSpace c then some [] else none
  | c :: d :: rest =>
    if isAsciiSpace c then fromHex (d :: rest)
    else match hexValue c, hexValue d with
      | some hi, some lo => (fromHex rest).map (UInt8.ofNat (16 * hi + lo) :: ·)
      | _, _ => none

/-- `blob.hex()`. -/
def toHex (blob : List UInt8) : Str := blob.flatMap fun b => hexByte b.toNat

/-- `int.from_bytes(blob, "big")`. -/
def fromBytesBig (blob : List UInt8) : ℕ := blob.foldl (fun value b => value * 256 + b.toNat) 0

/-- `repr` of a one-byte `bytes` value. -/
def reprByte (b : UInt8) : Str :=
  if b = 39 then "b\"'\"".toList
  else if b = 92 then "b'\\\\'".toList
  else if b = 9 then "b'\\t'".toList
  else if b = 10 then "b'\\n'".toList
  else if b = 13 then "b'\\r'".toList
  else if 32 ≤ b ∧ b < 127 then "b'".toList ++ [Char.ofNat b.toNat] ++ "'".toList
  else "b'\\x".toList ++ hexByte b.toNat ++ "'".toList

end DolphinRe.PythonText
