import Mathlib.Algebra.Group.Int.Defs
import Mathlib.Algebra.Group.Nat.Defs
import DolphinRe.PythonLines

/-!
# Integer literals of the host language

`int(s, 0)` takes its base from the prefix of the numeral. Signs, underscores
between digits, three prefixes and the decimal digits of every script are read;
a decimal numeral other than zero has no zero in front. What is read is exactly
what the grammar of integer literals derives.
-/

namespace DolphinRe.RadixNumerals

open PythonText HexNumerals PacketNumerals PythonLines

/-- The interpreter's limit on the digits of a decimal numeral; zero is no limit, and no limit
under 640 can be set. -/
structure DigitLimit where
  /-- Number of digits. -/
  digits : ℕ
  /-- It is one that can be set. -/
  admitted : digits = 0 ∨ 640 ≤ digits

/-- The limit that is set at start. -/
def defaultLimit : DigitLimit := ⟨4300, Or.inr (by decide)⟩

section Parsing

/-- The base of a prefix letter. -/
def radixOf (c : Char) : Option ℕ :=
  if c = 'x' ∨ c = 'X' then some 16
  else if c = 'o' ∨ c = 'O' then some 8
  else if c = 'b' ∨ c = 'B' then some 2
  else none

/-- One underscore may stand behind the prefix. -/
def dropUnderscore : Str → Str
  | '_' :: rest => rest
  | s => s

/-- The number behind a sign and a prefix; powers of two know no digit limit. -/
def prefixedValue (base : ℕ) (negative : Bool) (digits : Str) : Option ℤ :=
  match scanNumeral base (dropUnderscore digits) with
  | some (value, rest) =>
    if rest.all isAsciiSpace then some (if negative then -(value : ℤ) else value) else none
  | none => none

/-- The number behind a sign; a decimal numeral with a zero in front must be zero. -/
def literalValue (limit : DigitLimit) (negative : Bool) : Str → Option ℤ
  | '0' :: c :: rest =>
    match radixOf c with
    | some base => prefixedValue base negative rest
    | none => (decimalValue limit.digits negative ('0' :: c :: rest)).filter (· = 0)
  | unsigned => decimalValue limit.digits negative unsigned

/-- `int(s, 0)`; `none` models the raised `ValueError`. -/
def parseInt (limit : DigitLimit) (s : Str) : Option ℤ :=
  let (negative, unsigned) := splitSign ((narrow s).dropWhile isAsciiSpace)
  literalValue limit negative unsigned

end Parsing

section Grammar

/-- The text continues a numeral of one value to a numeral of another, with single underscores
between digits. -/
inductive Continues (base : ℕ) : ℕ → Str → ℕ → Prop where
  | done (value : ℕ) : Continues base value [] value
  | digit {value n d : ℕ} {c : Char} {rest : Str} (hd : digitValue c = some d) (hlt : d < base)
    (h : Continues base (value * base + d) rest n) : Continues base value (c :: rest) n
  | grouped {value n d : ℕ} {c : Char} {rest : Str} (hd : digitValue c = some d) (hlt : d < base)
    (h : Continues base (value * base + d) rest n) : Continues base value ('_' :: c :: rest) n

/-- The text starts with a digit and goes on to a numeral. -/
def Starts (base value : ℕ) (text : Str) (n : ℕ) : Prop :=
  ∃ c d rest, text = c :: rest ∧ digitValue c = some d ∧ d < base ∧
    Continues base (value * base + d) rest n

/-- An integer literal without a sign. -/
inductive Literal : ℕ → Str → Prop where
  | radix {n base : ℕ} {c : Char} {digits : Str} (hc : radixOf c = some base)
    (h : Starts base 0 digits n) : Literal n ('0' :: c :: digits)
  | grouped {n base : ℕ} {c : Char} {digits : Str} (hc : radixOf c = some base)
    (h : Starts base 0 digits n) : Literal n ('0' :: c :: '_' :: digits)
  | decimal {n : ℕ} {digits : Str} (h : Starts 10 0 digits n) (hzero : digits.head? = some '0' → n = 0) :
    Literal n digits

/-- An integer literal. -/
inductive SignedLiteral : ℤ → Str → Prop where
  | plain {n : ℕ} {text : Str} (h : Literal n text) : SignedLiteral n text
  | plus {n : ℕ} {text : Str} (h : Literal n text) : SignedLiteral n ('+' :: text)
  | minus {n : ℕ} {text : Str} (h : Literal n text) : SignedLiteral (-n) ('-' :: text)

/-- Whether a numeral has a prefix. -/
def isPrefixed : Str → Bool
  | '0' :: c :: _ => (radixOf c).isSome
  | _ => false

/-- A decimal numeral of more digits than the limit admits, behind its sign if it has one. -/
def TooLong (limit : DigitLimit) (text : Str) : Prop :=
  isPrefixed (splitSign text).2 = false ∧
    OverLimit limit.digits ((splitSign text).2.countP (· ≠ '_'))

instance (limit : DigitLimit) (text : Str) : Decidable (TooLong limit text) :=
  inferInstanceAs (Decidable (_ ∧ _))

end Grammar

section Scanning

variable {base n value : ℕ} {text : Str}

/-- An underscore is no digit. -/
theorem digitValue_underscore : digitValue '_' = none := by decide

/-- A numeral ends where the text does. -/
theorem continues_nil_iff : Continues base value [] n ↔ value = n := by
  constructor
  · intro h
    cases h
    rfl
  · intro hvalue
    rw [hvalue]
    exact Continues.done n

/-- Behind an underscore comes a digit. -/
theorem continues_underscore_iff : Continues base value ('_' :: text) n ↔ Starts base value text n := by
  constructor
  · intro h
    cases h with
    | digit hd hlt h => exact absurd hd (by simp [digitValue_underscore])
    | grouped hd hlt h => exact ⟨_, _, _, rfl, hd, hlt, h⟩
  · rintro ⟨c, d, rest, rfl, hd, hlt, h⟩
    exact Continues.grouped hd hlt h

/-- The first character is a digit of the base. -/
theorem starts_cons_iff {c : Char} : Starts base value (c :: text) n ↔
    ∃ d, digitValue c = some d ∧ d < base ∧ Continues base (value * base + d) text n := by
  constructor
  · rintro ⟨c', d, rest, heq, hd, hlt, h⟩
    obtain ⟨rfl, rfl⟩ := List.cons.inj heq
    exact ⟨d, hd, hlt, h⟩
  · rintro ⟨d, hd, hlt, h⟩
    exact ⟨c, d, text, rfl, hd, hlt, h⟩

/-- A numeral that goes on without an underscore goes on as it starts. -/
theorem continues_cons_iff {c : Char} (hunder : c ≠ '_') :
    Continues base value (c :: text) n ↔ Starts base value (c :: text) n := by
  rw [starts_cons_iff]
  constructor
  · intro h
    cases h with
    | digit hd hlt h => exact ⟨_, hd, hlt, h⟩
    | grouped hd hlt h => exact absurd rfl hunder
  · rintro ⟨d, hd, hlt, h⟩
    exact Continues.digit hd hlt h

/-- A scan to the end reads what the grammar derives. -/
theorem scanDigits_iff (base n : ℕ) (text : Str) (value : ℕ) :
    (scanDigits base false value text = some (n, []) ↔ Continues base value text n) ∧
      (scanDigits base true value text = some (n, []) ↔ Starts base value text n) := by
  induction text generalizing value with
  | nil =>
    have hnone : ¬Starts base value [] n := by
      rintro ⟨c, d, rest, hnil, -⟩
      exact absurd hnil (List.cons_ne_nil c rest).symm
    rw [continues_nil_iff]
    exact ⟨by simp [scanDigits], iff_of_false (by simp [scanDigits]) hnone⟩
  | cons c rest ih =>
    by_cases hunder : c = '_'
    · subst hunder
      have hnone : ¬Starts base value ('_' :: rest) n := by
        rw [starts_cons_iff]
        rintro ⟨d, hd, -⟩
        exact absurd hd (by simp [digitValue_underscore])
      rw [continues_underscore_iff, scanDigits, scanDigits, if_pos rfl, if_pos rfl, if_neg Bool.false_ne_true,
        if_pos rfl]
      exact ⟨(ih value).2, iff_of_false (by simp) hnone⟩
    · rw [continues_cons_iff hunder, starts_cons_iff, scanDigits, scanDigits, if_neg hunder, if_neg hunder]
      cases hvalue : digitValue c with
      | none => simp
      | some d =>
        by_cases hlt : d < base
        · simp only [hlt, if_true, Option.some.injEq, exists_eq_left', true_and]
          exact ⟨(ih _).1, (ih _).1⟩
        · simp [hlt]

/-- A scan leaves the end of the text. -/
theorem scanDigits_suffix {rest : Str} {after : Bool}
    (h : scanDigits base after value text = some (n, rest)) : rest <:+ text := by
  induction text generalizing value after with
  | nil =>
    cases after with
    | true => exact absurd h (by simp [scanDigits])
    | false =>
      have hnil : rest = [] := (congrArg Prod.snd (Option.some.inj h)).symm
      exact ⟨[], hnil⟩
  | cons c text ih =>
    have hstop : (if after = true then none else some (value, c :: text)) = some (n, rest) →
        rest <:+ c :: text := by
      intro hleft
      split_ifs at hleft
      have hall : c :: text = rest := congrArg Prod.snd (Option.some.inj hleft)
      exact ⟨[], hall.symm⟩
    rw [scanDigits] at h
    by_cases hunder : c = '_'
    · rw [if_pos hunder] at h
      split_ifs at h
      exact (ih h).trans (List.suffix_cons c text)
    · rw [if_neg hunder] at h
      cases hvalue : digitValue c with
      | none =>
        rw [hvalue] at h
        exact hstop h
      | some d =>
        rw [hvalue] at h
        dsimp only at h
        by_cases hlt : d < base
        · rw [if_pos hlt] at h
          exact (ih h).trans (List.suffix_cons c text)
        · rw [if_neg hlt] at h
          exact hstop h

/-- A text that is a numeral to its end. -/
theorem scanNumeral_iff : scanNumeral base text = some (n, []) ↔ Starts base 0 text n := by
  cases text with
  | nil =>
    constructor
    · intro h
      exact absurd h (by simp [scanNumeral])
    · rintro ⟨c, d, rest, hnil, -⟩
      exact absurd hnil (List.cons_ne_nil c rest).symm
  | cons c text =>
    have hscan := (scanDigits_iff base n (c :: text) 0).1
    unfold scanNumeral
    dsimp only
    cases hvalue : digitValue c with
    | none =>
      constructor
      · intro h
        exact absurd h (by simp)
      · rintro ⟨c', d, rest, heq, hd, -⟩
        rw [← (List.cons.inj heq).1, hvalue] at hd
        exact absurd hd (by simp)
    | some d =>
      dsimp only
      by_cases hlt : d < base
      · rw [if_pos hlt, hscan]
        constructor
        · intro h
          cases h with
          | digit hd hlt' h => exact ⟨_, _, _, rfl, hd, hlt', h⟩
          | grouped hd hlt' h => exact absurd hvalue (by simp [digitValue_underscore])
        · rintro ⟨c', d', rest, heq, hd, hlt', h⟩
          rw [(List.cons.inj heq).1, (List.cons.inj heq).2]
          exact Continues.digit hd hlt' h
      · rw [if_neg hlt]
        constructor
        · intro h
          exact absurd h (by simp)
        · rintro ⟨c', d', rest, heq, hd, hlt', h⟩
          rw [← (List.cons.inj heq).1, hvalue, Option.some.injEq] at hd
          exact absurd (hd ▸ hlt') hlt

/-- No whitespace ends the text. -/
def EndsPlain (text : Str) : Prop := ∀ c ∈ text.getLast?, isAsciiSpace c = false

/-- What ends plainly does so behind any cut. -/
theorem EndsPlain.of_suffix {rest : Str} (h : EndsPlain text) (hsuffix : rest <:+ text) : EndsPlain rest := by
  obtain ⟨front, rfl⟩ := hsuffix
  intro c hc
  have hne : rest ≠ [] := by
    rintro rfl
    exact absurd hc (by simp)
  refine h c ?_
  rw [List.getLast?_append_of_ne_nil front hne]
  exact hc

/-- Where no whitespace ends the text, none follows the numeral. -/
theorem rest_of_spaced {rest : Str} (hplain : EndsPlain text)
    (hscan : scanNumeral base text = some (n, rest)) (hspace : rest.all isAsciiSpace = true) : rest = [] := by
  have hsuffix : rest <:+ text := by
    unfold scanNumeral at hscan
    split at hscan
    · exact absurd hscan (by simp)
    · split at hscan
      · split_ifs at hscan
        exact scanDigits_suffix hscan
      · exact absurd hscan (by simp)
  by_contra hne
  have hlast := hplain.of_suffix hsuffix _ (List.getLast?_eq_some_getLast hne)
  rw [List.all_eq_true.mp hspace _ (List.getLast_mem hne)] at hlast
  exact absurd hlast (by simp)

end Scanning

section Reading

variable {limit : DigitLimit} {negative : Bool} {text : Str} {z : ℤ}

/-- A number with a sign. -/
def signed (negative : Bool) (n : ℕ) : ℤ := if negative then -(n : ℤ) else n

/-- Only zero is zero with a sign. -/
theorem signed_eq_zero {n : ℕ} : signed negative n = 0 ↔ n = 0 := by
  unfold signed
  split_ifs
  · omega
  · omega

/-- Behind a prefix the digits make the number. -/
theorem prefixedValue_iff {base : ℕ} (hplain : EndsPlain (dropUnderscore text)) :
    prefixedValue base negative text = some z ↔
      ∃ n, Starts base 0 (dropUnderscore text) n ∧ z = signed negative n := by
  unfold prefixedValue
  constructor
  · intro h
    split at h
    · rename_i value rest hscan
      by_cases hspace : rest.all isAsciiSpace = true
      · have hnil := rest_of_spaced hplain hscan hspace
        rw [if_pos hspace] at h
        rw [hnil] at hscan
        exact ⟨value, scanNumeral_iff.mp hscan, (Option.some.inj h).symm⟩
      · rw [if_neg hspace] at h
        exact absurd h (by simp)
    · exact absurd h (by simp)
  · rintro ⟨n, hstarts, rfl⟩
    rw [scanNumeral_iff.mpr hstarts]
    rfl

/-- Without one they make it in base ten, up to the limit. -/
theorem decimalValue_iff {maxStrDigits : ℕ} (hplain : EndsPlain text) :
    decimalValue maxStrDigits negative text = some z ↔
      ∃ n, Starts 10 0 text n ∧ ¬OverLimit maxStrDigits (text.countP (· ≠ '_')) ∧ z = signed negative n := by
  unfold decimalValue
  constructor
  · intro h
    split at h
    · rename_i value rest hscan
      dsimp only at h
      by_cases hspace : rest.all isAsciiSpace = true
      · have hnil := rest_of_spaced hplain hscan hspace
        rw [hnil] at hscan h
        rw [List.length_nil, Nat.sub_zero, List.take_length, List.all_nil, if_pos rfl] at h
        by_cases hlimit : OverLimit maxStrDigits (text.countP (· ≠ '_'))
        · rw [if_pos hlimit] at h
          exact absurd h (by simp)
        · rw [if_neg hlimit] at h
          exact ⟨value, scanNumeral_iff.mp hscan, hlimit, (Option.some.inj h).symm⟩
      · rw [if_neg hspace, ite_self] at h
        exact absurd h (by simp)
    · exact absurd h (by simp)
  · rintro ⟨n, hstarts, hlimit, rfl⟩
    rw [scanNumeral_iff.mpr hstarts]
    dsimp only
    rw [List.length_nil, Nat.sub_zero, List.take_length, if_neg hlimit]
    rfl

/-- A numeral without a sign whose digits are not too many. -/
def Limited (limit : DigitLimit) (unsigned : Str) : Prop :=
  isPrefixed unsigned = true ∨ ¬OverLimit limit.digits (unsigned.countP (· ≠ '_'))

/-- A sign does not count as a digit. -/
theorem limited_splitSign : Limited limit (splitSign text).2 ↔ ¬TooLong limit text := by
  unfold Limited TooLong
  cases isPrefixed (splitSign text).2 with
  | true => simp
  | false => simp

/-- Prefix letters are no decimal digits. -/
theorem letter_of_radix {c : Char} {base : ℕ} (hc : radixOf c = some base) :
    c ≠ '_' ∧ ∃ d, digitValue c = some d ∧ 10 ≤ d := by
  unfold radixOf at hc
  split_ifs at hc with hx ho hb
  · rcases hx with rfl | rfl
    · exact ⟨by decide, 33, by decide, by decide⟩
    · exact ⟨by decide, 33, by decide, by decide⟩
  · rcases ho with rfl | rfl
    · exact ⟨by decide, 24, by decide, by decide⟩
    · exact ⟨by decide, 24, by decide, by decide⟩
  · rcases hb with rfl | rfl
    · exact ⟨by decide, 11, by decide, by decide⟩
    · exact ⟨by decide, 11, by decide, by decide⟩

/-- A prefix is no decimal numeral. -/
theorem not_starts_radix {n base : ℕ} {c : Char} {rest : Str} (hc : radixOf c = some base) :
    ¬Starts 10 0 ('0' :: c :: rest) n := by
  obtain ⟨hunder, value, hvalue, hbig⟩ := letter_of_radix hc
  rintro ⟨c', d, rest', heq, hd, hlt, h⟩
  rw [← (List.cons.inj heq).2] at h
  cases h with
  | digit hd' hlt' h =>
    rw [hvalue, Option.some.injEq] at hd'
    omega
  | grouped hd' hlt' h => exact absurd rfl hunder

/-- Without its underscore a text is an end of itself. -/
theorem suffix_dropUnderscore (s : Str) : dropUnderscore s <:+ s := by
  unfold dropUnderscore
  split
  · exact List.suffix_cons _ _
  · exact List.suffix_refl _

/-- A literal with a prefix. -/
theorem literal_radix_iff {n base : ℕ} {c : Char} {rest : Str} (hc : radixOf c = some base) :
    Literal n ('0' :: c :: rest) ↔ Starts base 0 (dropUnderscore rest) n := by
  constructor
  · intro h
    cases h with
    | radix hc' h =>
      rw [hc, Option.some.injEq] at hc'
      have hsame : dropUnderscore rest = rest := by
        obtain ⟨c', d, rest', rfl, hd, -⟩ := h
        unfold dropUnderscore
        split
        · rename_i heq
          rw [(List.cons.inj heq).1, digitValue_underscore] at hd
          exact absurd hd (by simp)
        · rfl
      rw [hsame, hc']
      exact h
    | grouped hc' h =>
      rw [hc, Option.some.injEq] at hc'
      rw [hc']
      exact h
    | decimal h hzero => exact absurd h (not_starts_radix hc)
  · intro h
    unfold dropUnderscore at h
    split at h
    · exact Literal.grouped hc h
    · exact Literal.radix hc h

/-- A literal without a prefix. -/
theorem literal_decimal_iff {n : ℕ} (hmarked : isPrefixed text = false) :
    Literal n text ↔ Starts 10 0 text n ∧ (text.head? = some '0' → n = 0) := by
  constructor
  · intro h
    cases h with
    | radix hc h => exact absurd hmarked (by simp [isPrefixed, hc])
    | grouped hc h => exact absurd hmarked (by simp [isPrefixed, hc])
    | decimal h hzero => exact ⟨h, hzero⟩
  · rintro ⟨h, hzero⟩
    exact Literal.decimal h hzero

/-- What is read behind a sign and a prefix. -/
theorem literalValue_prefixed_iff (hplain : EndsPlain text) (hmarked : isPrefixed text = true) :
    literalValue limit negative text = some z ↔ ∃ n, Literal n text ∧ z = signed negative n := by
  obtain ⟨c, rest, base, rfl, hc⟩ : ∃ c rest base, text = '0' :: c :: rest ∧ radixOf c = some base := by
    unfold isPrefixed at hmarked
    split at hmarked
    · obtain ⟨base, hc⟩ := Option.isSome_iff_exists.mp hmarked
      exact ⟨_, _, base, rfl, hc⟩
    · exact absurd hmarked (by simp)
  have hrest : EndsPlain (dropUnderscore rest) := by
    have hsuffix : rest <:+ '0' :: c :: rest := ⟨['0', c], rfl⟩
    exact hplain.of_suffix ((suffix_dropUnderscore rest).trans hsuffix)
  have hvalue : literalValue limit negative ('0' :: c :: rest) = prefixedValue base negative rest := by
    simp only [literalValue, hc]
  rw [hvalue, prefixedValue_iff hrest]
  simp only [literal_radix_iff hc]

/-- Without a prefix a decimal numeral is read; a zero in front is that of a zero. -/
theorem literalValue_plain (hmarked : isPrefixed text = false) :
    literalValue limit negative text = some z ↔
      decimalValue limit.digits negative text = some z ∧ ((∃ c rest, text = '0' :: c :: rest) → z = 0) := by
  by_cases hlong : ∃ c rest, text = '0' :: c :: rest
  · obtain ⟨c, rest, rfl⟩ := hlong
    have hc : radixOf c = none := by simpa [isPrefixed] using hmarked
    have hvalue : literalValue limit negative ('0' :: c :: rest) =
        (decimalValue limit.digits negative ('0' :: c :: rest)).filter (· = 0) := by
      simp only [literalValue, hc]
    rw [hvalue, Option.filter_eq_some_iff]
    constructor
    · exact fun h => ⟨h.1, fun _ => of_decide_eq_true h.2⟩
    · exact fun h => ⟨h.1, decide_eq_true (h.2 ⟨c, rest, rfl⟩)⟩
  · have hvalue : literalValue limit negative text = decimalValue limit.digits negative text := by
      unfold literalValue
      split
      · exact absurd ⟨_, _, rfl⟩ hlong
      · rfl
    rw [hvalue]
    exact ⟨fun h => ⟨h, fun hpair => absurd hpair hlong⟩, fun h => h.1⟩

/-- A single zero is zero. -/
theorem starts_zero {n : ℕ} (h : Starts 10 0 text n) (hhead : text.head? = some '0') :
    n = 0 ∨ ∃ c rest, text = '0' :: c :: rest := by
  obtain ⟨c, d, rest, rfl, hd, hlt, h⟩ := h
  have hc : c = '0' := Option.some.inj hhead
  subst hc
  have hzero : 0 = d := Option.some.inj hd
  subst hzero
  cases rest with
  | nil => exact Or.inl (continues_nil_iff.mp h).symm
  | cons c rest => exact Or.inr ⟨c, rest, rfl⟩

/-- What is read behind a sign are the literals within the limit. -/
theorem literalValue_iff (hplain : EndsPlain text) : literalValue limit negative text = some z ↔
    ∃ n, Literal n text ∧ Limited limit text ∧ z = signed negative n := by
  cases hmarked : isPrefixed text with
  | true =>
    rw [literalValue_prefixed_iff hplain hmarked]
    simp only [Limited, hmarked, true_or, true_and]
  | false =>
    simp only [literal_decimal_iff hmarked, Limited, hmarked, Bool.false_eq_true, false_or]
    rw [literalValue_plain hmarked, decimalValue_iff hplain]
    constructor
    · rintro ⟨⟨n, hstarts, hlimit, rfl⟩, hpair⟩
      refine ⟨n, ⟨hstarts, fun hhead => ?_⟩, hlimit, rfl⟩
      rcases starts_zero hstarts hhead with hzero | hlong
      · exact hzero
      · exact signed_eq_zero.mp (hpair hlong)
    · rintro ⟨n, ⟨hstarts, hzero⟩, hlimit, rfl⟩
      refine ⟨⟨n, hstarts, hlimit, rfl⟩, ?_⟩
      rintro ⟨c, rest, rfl⟩
      exact signed_eq_zero.mpr (hzero rfl)

/-- A literal starts with a digit. -/
theorem literal_head {n : ℕ} (h : Literal n text) : ∃ c rest d, text = c :: rest ∧ digitValue c = some d := by
  cases h with
  | radix hc h => exact ⟨'0', _, 0, rfl, by decide⟩
  | grouped hc h => exact ⟨'0', _, 0, rfl, by decide⟩
  | decimal h hzero =>
    obtain ⟨c, d, rest, rfl, hd, -⟩ := h
    exact ⟨c, rest, d, rfl, hd⟩

/-- A literal is a literal without a sign behind its sign. -/
theorem signedLiteral_iff : SignedLiteral z text ↔
    ∃ n, Literal n (splitSign text).2 ∧ z = signed (splitSign text).1 n := by
  have hplus : digitValue '+' = none := by decide
  have hminus : digitValue '-' = none := by decide
  constructor
  · intro h
    cases h with
    | plain h =>
      obtain ⟨c, rest, d, rfl, hd⟩ := literal_head h
      have hsplit : splitSign (c :: rest) = (false, c :: rest) := by
        unfold splitSign
        split
        · rename_i heq
          rw [(List.cons.inj heq).1, hplus] at hd
          exact absurd hd (by simp)
        · rename_i heq
          rw [(List.cons.inj heq).1, hminus] at hd
          exact absurd hd (by simp)
        · rfl
      rw [hsplit]
      exact ⟨_, h, rfl⟩
    | plus h => exact ⟨_, h, rfl⟩
    | minus h => exact ⟨_, h, rfl⟩
  · rintro ⟨n, h, rfl⟩
    unfold splitSign at h ⊢
    split at h
    · exact SignedLiteral.plus h
    · exact SignedLiteral.minus h
    · exact SignedLiteral.plain h

/-- So it is without its sign. -/
theorem suffix_splitSign (s : Str) : (splitSign s).2 <:+ s := by
  unfold splitSign
  split
  · exact List.suffix_cons _ _
  · exact List.suffix_cons _ _
  · exact List.suffix_refl _

/-- Narrowing makes no whitespace. -/
theorem narrowChar_plain {c : Char} (h : isSpace c = false) : isAsciiSpace (narrowChar c) = false := by
  unfold isSpace at h
  rw [Bool.or_eq_false_iff, Bool.or_eq_false_iff] at h
  obtain ⟨⟨hascii, -⟩, hwide⟩ := h
  have hwide : c.toNat ∉ wideSpaces := by simpa using hwide
  unfold narrowChar
  rw [if_neg hwide]
  by_cases hsmall : c.toNat < 127
  · rw [if_pos hsmall]
    exact hascii
  · rw [if_neg hsmall]
    split
    · rename_i first hfind
      have hrange := List.find?_some hfind
      simp only [Bool.and_eq_true, decide_eq_true_eq] at hrange
      have hdigit : ∀ d < 10, isAsciiSpace (Nat.digitChar d) = false := by decide
      exact hdigit _ (by omega)
    · decide

/-- A text without whitespace at its ends has none when it is narrowed. -/
theorem narrow_trimmed {s : Str} (h : Trimmed s) :
    (narrow s).dropWhile isAsciiSpace = narrow s ∧ EndsPlain (narrow s) := by
  have hplain : ∀ c, isSpace c = false → isAsciiSpace c = false := by
    intro c hc
    unfold isSpace at hc
    rw [Bool.or_eq_false_iff, Bool.or_eq_false_iff] at hc
    exact hc.1.1
  unfold narrow
  by_cases hascii : (s.all fun c => decide (c.toNat < 128)) = true
  · rw [if_pos hascii]
    constructor
    · cases s with
      | nil => rfl
      | cons c s => exact List.dropWhile_cons_of_neg (by simp [hplain c (h.1 c rfl)])
    · intro c hc
      exact hplain c (h.2 c hc)
  · rw [if_neg hascii]
    constructor
    · cases s with
      | nil => rfl
      | cons c s => exact List.dropWhile_cons_of_neg (by simp [narrowChar_plain (h.1 c rfl)])
    · intro c hc
      rw [List.getLast?_map, Option.mem_def, Option.map_eq_some_iff] at hc
      obtain ⟨last, hlast, rfl⟩ := hc
      exact narrowChar_plain (h.2 last hlast)

/-- `int(s, 0)` reads the integer literals within the limit, digits of any script counting as ASCII
digits, and nothing else. -/
theorem parseInt_iff {s : Str} (hs : Trimmed s) :
    parseInt limit s = some z ↔ SignedLiteral z (narrow s) ∧ ¬TooLong limit (narrow s) := by
  obtain ⟨hdrop, hplain⟩ := narrow_trimmed hs
  have hunsigned : EndsPlain (splitSign (narrow s)).2 := hplain.of_suffix (suffix_splitSign _)
  unfold parseInt
  rw [hdrop]
  dsimp only
  rw [literalValue_iff hunsigned, signedLiteral_iff, limited_splitSign]
  constructor
  · rintro ⟨n, hliteral, hlimit, hz⟩
    exact ⟨⟨n, hliteral, hz⟩, hlimit⟩
  · rintro ⟨⟨n, hliteral, hz⟩, hlimit⟩
    exact ⟨n, hliteral, hlimit, hz⟩

/-- No zero stands in front of a decimal numeral, unless it is zero. -/
theorem toDigits_head (n : ℕ) : (Nat.toDigits 10 n).head? = some '0' → Nat.toDigits 10 n = ['0'] := by
  have hpositive : ∀ n, 0 < n → (Nat.toDigits 10 n).head? ≠ some '0' := by
    intro n
    induction n using Nat.strongRecOn with
    | ind n ih =>
      intro hn
      rw [Nat.toDigits_eq_if (by omega)]
      split_ifs with hlt
      · have hdigit : ∀ d < 10, 0 < d → Nat.digitChar d ≠ '0' := by decide
        simpa using hdigit n hlt hn
      · have hfront := ih (n / 10) (by omega) (by omega)
        rwa [List.head?_append_of_ne_nil _ Nat.toDigits_ne_nil]
  intro hhead
  have hzero : n = 0 := by
    by_contra hne
    exact hpositive n (by omega) hhead
  rw [hzero]
  decide

end Reading

section Writing

variable {limit : DigitLimit} {base n : ℕ} {text : Str} {z : ℤ}

/-- `f"{n:#x}"`. -/
def formatPrefixed (n : ℤ) : Str :=
  if n < 0 then '-' :: '0' :: 'x' :: hexDigits n.natAbs else '0' :: 'x' :: hexDigits n.natAbs

/-- The two ways to print a number. -/
inductive Printed : ℤ → Str → Prop where
  | dec (n : ℤ) : Printed n (formatDec n)
  | hex (n : ℤ) : Printed n (formatPrefixed n)

/-- Plain digits are derived by the grammar. -/
theorem starts_of_numeral (hbase : base ≤ 16) (h : Numeral base n text) : Starts base 0 text n :=
  scanNumeral_iff.mp (scanNumeral_numeral hbase h)

/-- Decimal digits without superfluous zeros are a literal. -/
theorem literal_decimal (h : Numeral 10 n text) (hzero : text.head? = some '0' → text = ['0']) :
    Literal n text := by
  have hstarts := starts_of_numeral (by omega) h
  refine Literal.decimal hstarts fun hhead => ?_
  rw [hzero hhead] at hstarts
  have hscan := scanNumeral_iff.mpr hstarts
  have hvalue : scanNumeral 10 ['0'] = some (0, []) := by decide
  rw [hvalue, Option.some.injEq] at hscan
  exact (congrArg Prod.fst hscan).symm

/-- Prefixed hexadecimal digits are a literal. -/
theorem literal_hex {x : Char} (hx : x = 'x' ∨ x = 'X') (h : Numeral 16 n text) :
    Literal n ('0' :: x :: text) :=
  Literal.radix (if_pos hx) (starts_of_numeral (Nat.le_refl 16) h)

/-- A number has no more digits than its bound. -/
theorem length_toDigits_le {n k : ℕ} (hk : 0 < k) (h : n < 10 ^ k) : (Nat.toDigits 10 n).length ≤ k :=
  (Nat.length_toDigits_le_iff (by decide) hk).mpr h

/-- A machine word has ten digits at most. -/
theorem word_lt {n k : ℕ} (hk : 10 ≤ k) (h : n < 2 ^ 32) : n < 10 ^ k := by
  have hdigits : 2 ^ 32 ≤ 10 ^ 10 := by decide
  have hlimit : 10 ^ 10 ≤ 10 ^ k := Nat.pow_le_pow_right (by decide) hk
  exact Nat.lt_of_lt_of_le h (Nat.le_trans hdigits hlimit)

/-- A printed number is a literal that no limit stops. -/
theorem Printed.literal (h : Printed z text) (hsmall : z.natAbs < 10 ^ 640) :
    SignedLiteral z text ∧ ¬TooLong limit text := by
  cases h with
  | dec =>
    have hnumeral : Numeral 10 z.natAbs (Nat.toDigits 10 z.natAbs) :=
      numeral_toDigits (by omega) (by omega) z.natAbs
    have hliteral := literal_decimal hnumeral (toDigits_head z.natAbs)
    have hlength : (Nat.toDigits 10 z.natAbs).length ≤ 640 := length_toDigits_le (by decide) hsmall
    have hshort : ¬OverLimit limit.digits ((Nat.toDigits 10 z.natAbs).countP (· ≠ '_')) := by
      have hadmitted := limit.admitted
      rw [countP_numeral (by omega) hnumeral]
      unfold OverLimit
      omega
    unfold formatDec
    split_ifs with hneg
    · have hminus := SignedLiteral.minus hliteral
      have hvalue : -(z.natAbs : ℤ) = z := by omega
      rw [hvalue] at hminus
      exact ⟨hminus, fun hlong => hshort hlong.2⟩
    · have hplain := SignedLiteral.plain hliteral
      have hvalue : (z.natAbs : ℤ) = z := by omega
      rw [hvalue] at hplain
      refine ⟨hplain, fun hlong => ?_⟩
      rw [TooLong, splitSign_numeral (by omega) hnumeral] at hlong
      exact hshort hlong.2
  | hex =>
    have hnumeral : Numeral 16 z.natAbs (hexDigits z.natAbs) :=
      numeral_toDigits (by omega) (Nat.le_refl 16) z.natAbs
    have hliteral := literal_hex (Or.inl rfl) hnumeral
    unfold formatPrefixed
    split_ifs with hneg
    · have hminus := SignedLiteral.minus hliteral
      have hvalue : -(z.natAbs : ℤ) = z := by omega
      rw [hvalue] at hminus
      exact ⟨hminus, fun hlong => Bool.noConfusion hlong.1⟩
    · have hplain := SignedLiteral.plain hliteral
      have hvalue : (z.natAbs : ℤ) = z := by omega
      rw [hvalue] at hplain
      exact ⟨hplain, fun hlong => Bool.noConfusion hlong.1⟩

/-- The characters of a printed number. -/
theorem Printed.chars (h : Printed z text) :
    ∀ c ∈ text, (hexValue c).isSome = true ∨ c = '-' ∨ c = 'x' := by
  have hdec : ∀ c ∈ Nat.toDigits 10 z.natAbs, (hexValue c).isSome = true := by
    have hnumeral : Numeral 10 z.natAbs (Nat.toDigits 10 z.natAbs) :=
      numeral_toDigits (by omega) (by omega) z.natAbs
    exact hnumeral.digits (by omega)
  have hhex : ∀ c ∈ hexDigits z.natAbs, (hexValue c).isSome = true := by
    have hnumeral : Numeral 16 z.natAbs (hexDigits z.natAbs) :=
      numeral_toDigits (by omega) (Nat.le_refl 16) z.natAbs
    exact hnumeral.digits (Nat.le_refl 16)
  have hmarked : ∀ c ∈ '0' :: 'x' :: hexDigits z.natAbs, (hexValue c).isSome = true ∨ c = '-' ∨ c = 'x' := by
    intro c hc
    rcases List.mem_cons.mp hc with rfl | hc
    · exact Or.inl (by decide)
    · rcases List.mem_cons.mp hc with rfl | hc
      · exact Or.inr (Or.inr rfl)
      · exact Or.inl (hhex c hc)
  intro c hc
  cases h with
  | dec =>
    unfold formatDec at hc
    split_ifs at hc
    · rcases List.mem_cons.mp hc with rfl | hc
      · exact Or.inr (Or.inl rfl)
      · exact Or.inl (hdec c hc)
    · exact Or.inl (hdec c hc)
  | hex =>
    unfold formatPrefixed at hc
    split_ifs at hc
    · rcases List.mem_cons.mp hc with rfl | hc
      · exact Or.inr (Or.inl rfl)
      · exact hmarked c hc
    · exact hmarked c hc

/-- What is printed is not empty. -/
theorem Printed.ne_nil (h : Printed z text) : text ≠ [] := by
  cases h with
  | dec =>
    unfold formatDec
    split_ifs
    · exact List.cons_ne_nil _ _
    · exact Nat.toDigits_ne_nil
  | hex =>
    unfold formatPrefixed
    split_ifs
    · exact List.cons_ne_nil _ _
    · exact List.cons_ne_nil _ _

/-- No printed number has a blank. -/
theorem Printed.unspaced (h : Printed z text) : ∀ c ∈ text, isSpace c = false := by
  intro c hc
  rcases h.chars c hc with hdigit | rfl | rfl
  · exact not_isSpace_of_hexValue hdigit
  · decide
  · decide

/-- A text without blanks is trimmed. -/
theorem trimmed_of_unspaced (h : ∀ c ∈ text, isSpace c = false) : Trimmed text :=
  ⟨fun c hc => h c (List.mem_of_head? hc), fun c hc => h c (List.mem_of_getLast? hc)⟩

/-- A printed number is read back. -/
theorem Printed.parseInt_eq (h : Printed z text) (hsmall : z.natAbs < 10 ^ 640) :
    parseInt limit text = some z := by
  have hascii : narrow text = text := by
    rw [narrow, if_pos]
    refine List.all_eq_true.mpr fun c hc => decide_eq_true ?_
    rcases h.chars c hc with hdigit | rfl | rfl
    · exact ascii_of_hexValue hdigit
    · decide
    · decide
  rw [parseInt_iff (trimmed_of_unspaced h.unspaced), hascii]
  exact h.literal hsmall

/-- In particular a number of a machine word. -/
theorem Printed.parseInt_word (h : Printed z text) (hsmall : z.natAbs < 2 ^ 32) :
    parseInt limit text = some z :=
  h.parseInt_eq (word_lt (by decide) hsmall)

end Writing

end DolphinRe.RadixNumerals
