import DolphinRe.PacketNumerals

/-!
# Hexadecimal texts of either case

Numerals of any width and byte strings, each digit in upper or lower case, are
read by the host language as the numbers and bytes they denote.
-/

namespace DolphinRe.HexNumerals

open PythonText GdbPackets PacketNumerals

/-- A character that is the digit `d` in one of the two cases. -/
def DigitOf (d : ℕ) (c : Char) : Prop := c = Nat.digitChar d ∨ c = (Nat.digitChar d).toUpper

/-- Upper-case digits have their values. -/
theorem hexValue_upper : ∀ d < 16, hexValue (Nat.digitChar d).toUpper = some d := by decide

/-- So has every spelling of a digit. -/
theorem DigitOf.hexValue {d : ℕ} {c : Char} (h : DigitOf d c) (hd : d < 16) : hexValue c = some d := by
  obtain rfl | rfl := h
  · exact hexValue_digitChar d hd
  · exact hexValue_upper d hd

section Bytes

/-- A text that shows bytes, two digits each, every digit in either case. -/
inductive Renders : List UInt8 → Str → Prop where
  | nil : Renders [] []
  | cons {b : UInt8} {high low : Char} {blob : List UInt8} {text : Str}
    (hhigh : DigitOf (b.toNat / 16) high) (hlow : DigitOf (b.toNat % 16) low)
    (hrest : Renders blob text) : Renders (b :: blob) (high :: low :: text)

variable {blob : List UInt8} {text : Str}

/-- Two digits are written for each byte. -/
theorem Renders.length (h : Renders blob text) : text.length = 2 * blob.length := by
  induction h with
  | nil => rfl
  | cons hhigh hlow hrest ih =>
    simp only [List.length_cons]
    omega

/-- Every character is a digit. -/
theorem Renders.digits (h : Renders blob text) : ∀ c ∈ text, (hexValue c).isSome = true := by
  induction h with
  | nil => simp
  | @cons b high low blob text hhigh hlow hrest ih =>
    have hb : b.toNat < 256 := UInt8.toNat_lt b
    have hfirst := hhigh.hexValue (by omega)
    have hsecond := hlow.hexValue (by omega)
    intro c hc
    rcases List.mem_cons.mp hc with rfl | hc
    · rw [hfirst]
      rfl
    · rcases List.mem_cons.mp hc with rfl | hc
      · rw [hsecond]
        rfl
      · exact ih c hc

/-- The first of two digits per byte. -/
theorem Renders.exists_cons (hblob : blob ≠ []) (h : Renders blob text) :
    ∃ c rest, text = c :: rest ∧ rest.length + 1 = 2 * blob.length ∧
      ∀ x ∈ rest, (hexValue x).isSome = true := by
  cases h with
  | nil => exact absurd rfl hblob
  | @cons b high low blob text hhigh hlow hrest =>
    have hlength := (Renders.cons hhigh hlow hrest).length
    have hdigits := (Renders.cons hhigh hlow hrest).digits
    refine ⟨high, low :: text, rfl, hlength, fun x hx => ?_⟩
    exact hdigits x (List.mem_cons_of_mem high hx)

/-- Digits start at code point 48. -/
theorem digitValue_of_lt {c : Char} (h : c.toNat < 48) : digitValue c = none := by
  have hdigit : ¬('0' ≤ c ∧ c ≤ '9') := by
    rintro ⟨hlow, -⟩
    have hle : '0'.toNat ≤ c.toNat := hlow
    have hzero : '0'.toNat = 48 := rfl
    omega
  have hlower : ¬('a' ≤ c ∧ c ≤ 'z') := by
    rintro ⟨hlow, -⟩
    have hle : 'a'.toNat ≤ c.toNat := hlow
    have ha : 'a'.toNat = 97 := rfl
    omega
  have hupper : ¬('A' ≤ c ∧ c ≤ 'Z') := by
    rintro ⟨hlow, -⟩
    have hle : 'A'.toNat ≤ c.toNat := hlow
    have hA : 'A'.toNat = 65 := rfl
    omega
  rw [digitValue, if_neg hdigit, if_neg hlower, if_neg hupper]

/-- Digits do not come before zero. -/
theorem le_of_hexValue {c : Char} (h : (hexValue c).isSome = true) : 48 ≤ c.toNat := by
  by_contra hlow
  have hnone := digitValue_of_lt (c := c) (by omega)
  simp [hexValue, hnone] at h

/-- Digits are not whitespace. -/
theorem not_space_of_hexValue {c : Char} (h : (hexValue c).isSome = true) : isAsciiSpace c = false := by
  have hle := le_of_hexValue h
  by_contra hspace
  rw [Bool.not_eq_false, isAsciiSpace, Bool.or_eq_true, decide_eq_true_eq, Bool.and_eq_true,
    decide_eq_true_eq, decide_eq_true_eq] at hspace
  rcases hspace with rfl | hcontrol
  · exact absurd hle (by decide)
  · omega

/-- `bytes.fromhex` reads the bytes a text shows. -/
theorem fromHex_of_renders (h : Renders blob text) : fromHex text = some blob := by
  induction h with
  | nil => rfl
  | @cons b high low blob text hhigh hlow hrest ih =>
    have hb : b.toNat < 256 := UInt8.toNat_lt b
    have hfirst := hhigh.hexValue (by omega)
    have hsecond := hlow.hexValue (by omega)
    have hspace := not_space_of_hexValue (c := high) (by rw [hfirst]; rfl)
    have hbyte : 16 * (b.toNat / 16) + b.toNat % 16 = b.toNat := by omega
    rw [fromHex, hspace, if_neg Bool.false_ne_true, hfirst, hsecond, ih]
    simp only [Option.map_some, hbyte, UInt8.ofNat_toNat]

end Bytes

section Numerals

/-- A text that shows a number: one digit or more, each in either case. -/
def Numeral (base n : ℕ) (text : Str) : Prop :=
  ∃ digits : List ℕ, digits ≠ [] ∧ (∀ d ∈ digits, d < base) ∧ List.Forall₂ DigitOf digits text ∧
    digits.foldl (fun value d => value * base + d) 0 = n

variable {base n : ℕ} {text : Str}

/-- Digits that are shown are digits. -/
theorem hexValue_of_shown {digits : List ℕ} (h : List.Forall₂ DigitOf digits text)
    (hdigits : ∀ d ∈ digits, d < 16) : ∀ c ∈ text, (hexValue c).isSome = true := by
  induction h with
  | nil => simp
  | @cons d c digits text hd _ ih =>
    intro x hx
    rcases List.mem_cons.mp hx with rfl | hx
    · rw [hd.hexValue (hdigits d List.mem_cons_self)]
      rfl
    · exact ih (fun e he => hdigits e (List.mem_cons_of_mem d he)) x hx

/-- Every character is a digit. -/
theorem Numeral.digits (hbase : base ≤ 16) (h : Numeral base n text) :
    ∀ c ∈ text, (hexValue c).isSome = true := by
  obtain ⟨digits, -, hlt, hshown, -⟩ := h
  exact hexValue_of_shown hshown fun d hd => Nat.lt_of_lt_of_le (hlt d hd) hbase

/-- No other character stands in a numeral. -/
theorem Numeral.not_mem (hbase : base ≤ 16) (h : Numeral base n text) {x : Char}
    (hx : hexValue x = none) : x ∉ text := by
  intro hmem
  have hsome := h.digits hbase x hmem
  rw [hx] at hsome
  exact absurd hsome Bool.false_ne_true

/-- A numeral has a first digit. -/
theorem Numeral.exists_cons (h : Numeral base n text) : ∃ c rest, text = c :: rest := by
  obtain ⟨digits, hne, -, hshown, -⟩ := h
  cases hshown with
  | nil => exact absurd rfl hne
  | @cons d c digits text hd hrest => exact ⟨c, text, rfl⟩

/-- A hexadecimal digit has its value in any numeral. -/
theorem digitValue_of_hexValue {c : Char} {d : ℕ} (h : hexValue c = some d) : digitValue c = some d :=
  (Option.filter_eq_some_iff.mp h).1

/-- Digits have no code point beyond ASCII. -/
theorem ascii_of_hexValue {c : Char} (h : (hexValue c).isSome = true) : c.toNat < 128 := by
  obtain ⟨d, hd⟩ := Option.isSome_iff_exists.mp h
  have hvalue := digitValue_of_hexValue hd
  unfold digitValue at hvalue
  split_ifs at hvalue with hdigit hlower hupper
  · have hle : c.toNat ≤ '9'.toNat := hdigit.2
    have hnine : '9'.toNat = 57 := rfl
    omega
  · have hle : c.toNat ≤ 'z'.toNat := hlower.2
    have hz : 'z'.toNat = 122 := rfl
    omega
  · have hle : c.toNat ≤ 'Z'.toNat := hupper.2
    have hZ : 'Z'.toNat = 90 := rfl
    omega

/-- Digits are scanned to the end. -/
theorem scanDigits_shown {digits : List ℕ} (hbase : base ≤ 16) (h : List.Forall₂ DigitOf digits text)
    (hdigits : ∀ d ∈ digits, d < base) (value : ℕ) :
    scanDigits base false value text =
      some (digits.foldl (fun value d => value * base + d) value, []) := by
  induction h generalizing value with
  | nil => rfl
  | @cons d c digits text hd _ ih =>
    have hlt := hdigits d List.mem_cons_self
    have hvalue := hd.hexValue (Nat.lt_of_lt_of_le hlt hbase)
    have hne : c ≠ '_' := by
      rintro rfl
      have hnone : hexValue '_' = none := by decide
      rw [hnone] at hvalue
      exact absurd hvalue (Option.some_ne_none d).symm
    rw [scanDigits, if_neg hne, digitValue_of_hexValue hvalue]
    simp only [hlt, if_true]
    rw [ih fun e he => hdigits e (List.mem_cons_of_mem d he)]
    rfl

/-- A numeral is scanned to its number. -/
theorem scanNumeral_numeral (hbase : base ≤ 16) (h : Numeral base n text) :
    scanNumeral base text = some (n, []) := by
  obtain ⟨digits, hne, hlt, hshown, hvalue⟩ := h
  have hscan := scanDigits_shown hbase hshown hlt 0
  cases hshown with
  | nil => exact absurd rfl hne
  | @cons d c digits text hd hrest =>
    have hsmall := hlt d List.mem_cons_self
    have hfirst := digitValue_of_hexValue (hd.hexValue (Nat.lt_of_lt_of_le hsmall hbase))
    rw [scanNumeral, hfirst]
    simp only [hsmall, if_true]
    rw [hscan, hvalue]

/-- It is narrow already. -/
theorem narrow_numeral (hbase : base ≤ 16) (h : Numeral base n text) : narrow text = text := by
  rw [narrow, if_pos]
  rw [List.all_eq_true]
  intro c hc
  exact decide_eq_true (ascii_of_hexValue (h.digits hbase c hc))

/-- It does not start with a blank. -/
theorem dropWhile_space_numeral (hbase : base ≤ 16) (h : Numeral base n text) :
    text.dropWhile isAsciiSpace = text := by
  obtain ⟨c, rest, rfl⟩ := h.exists_cons
  have hc := not_space_of_hexValue (h.digits hbase c List.mem_cons_self)
  rw [List.dropWhile_cons_of_neg (by simp [hc])]

/-- It has no sign. -/
theorem splitSign_numeral (hbase : base ≤ 16) (h : Numeral base n text) :
    splitSign text = (false, text) := by
  have hplus := h.not_mem hbase (x := '+') (by decide)
  have hminus := h.not_mem hbase (x := '-') (by decide)
  unfold splitSign
  split
  · simp at hplus
  · simp at hminus
  · rfl

/-- It has no prefix. -/
theorem dropHexPrefix_numeral (hbase : base ≤ 16) (h : Numeral base n text) :
    dropHexPrefix text = text := by
  have hlower := h.not_mem hbase (x := 'x') (by decide)
  have hupper := h.not_mem hbase (x := 'X') (by decide)
  unfold dropHexPrefix
  split
  · simp at hlower
  · simp at hupper
  · simp at hlower
  · simp at hupper
  · rfl

/-- A numeral in base sixteen is read as its number. -/
theorem parseHexInt_numeral (h : Numeral 16 n text) : parseHexInt text = some (n : ℤ) := by
  unfold parseHexInt
  rw [narrow_numeral (Nat.le_refl 16) h, dropWhile_space_numeral (Nat.le_refl 16) h,
    splitSign_numeral (Nat.le_refl 16) h]
  dsimp only
  rw [dropHexPrefix_numeral (Nat.le_refl 16) h, scanNumeral_numeral (Nat.le_refl 16) h]
  rfl

end Numerals

end DolphinRe.HexNumerals
