import DolphinRe.RadixNumerals

/-!
# Address arguments of the tools

Addresses are documented as prefixed hexadecimal and plain decimal texts. The
parser strips the text and leaves the rest to `int(s, 0)`, which reads more:
signs, underscores, two further prefixes, several zeros and the digits of every
script.
-/

namespace DolphinRe.AddressTexts

open PythonText HexNumerals PacketNumerals PythonLines RadixNumerals

/-- What a caller may pass for an address. -/
inductive AddressArg where
  | int (n : ℤ)
  | bool (b : Bool)
  | text (s : Str)
  /-- A value of another type, by the name of the type. -/
  | other (typeName : String)
  deriving DecidableEq, Repr

/-- What the parser raises. -/
inductive AddressError where
  | typeError (message : String)
  | valueError (message : String)
  deriving DecidableEq, Repr

/-- `repr` of a text without quotes and escapes. -/
def plainRepr (s : Str) : Str := "'".toList ++ (s ++ "'".toList)

/-- `coerce_addr`; `repr` is the host language's. -/
def coerceAddr (limit : DigitLimit) (repr : Str → Str) : AddressArg → Except AddressError ℤ
  | .int n => .ok n
  | .bool _ => .error (.typeError "address must be a string or int, got bool")
  | .other typeName => .error (.typeError ("address must be a string or int, got " ++ typeName))
  | .text x =>
    let s := strip x
    if s = [] then .error (.valueError "address string is empty")
    else match parseInt limit s with
      | some n => .ok n
      | none => .error (.valueError ("address " ++ String.ofList (repr x) ++
          " not parseable; use '0x...' hex or plain decimal"))

/-- The documented texts: prefixed hexadecimal, and decimal without superfluous zeros. -/
inductive Documented : ℕ → Str → Prop where
  | hex {n : ℕ} {x : Char} {digits : Str} (hx : x = 'x' ∨ x = 'X') (h : Numeral 16 n digits) :
    Documented n ('0' :: x :: digits)
  | decimal {n : ℕ} {digits : Str} (h : Numeral 10 n digits)
    (hzero : digits.head? = some '0' → digits = ['0']) : Documented n digits

/-- A text is parsed as documented: to the address that it denotes, and otherwise not at all. -/
structure ParsedAsDocumented (limit : DigitLimit) (repr : Str → Str) (s : Str) : Prop where
  /-- It is parsed to a number exactly when it denotes that number. -/
  accepts : ∀ n : ℤ, coerceAddr limit repr (.text s) = .ok n ↔ ∃ k : ℕ, n = k ∧ Documented k (strip s)
  /-- A text that denotes no address raises. -/
  rejects : (¬∃ k : ℕ, Documented k (strip s)) →
    ∃ message, coerceAddr limit repr (.text s) = .error (.valueError message)

/-- A sign, an underscore, a character outside ASCII, or a zero in front of anything but a hexadecimal
prefix. -/
def Undocumented (s : Str) : Prop :=
  (∃ c ∈ s, c = '+' ∨ c = '-' ∨ c = '_' ∨ 128 ≤ c.toNat) ∨
    ∃ x rest, s = '0' :: x :: rest ∧ x ≠ 'x' ∧ x ≠ 'X'

section Spellings

variable {base n v : ℕ} {text : Str}

theorem radixOf_hex {x : Char} (hx : x = 'x' ∨ x = 'X') : radixOf x = some 16 := if_pos hx

/-- A digit of either case shows its value. -/
theorem digitOf_of_digitValue {c : Char} {d : ℕ} (h : digitValue c = some d) (hd : d < 16) : DigitOf d c := by
  have hc : Char.ofNat c.toNat = c := Char.ofNat_toNat c
  unfold digitValue at h
  split_ifs at h with hdigit hlower hupper
  · have hlow : '0'.toNat ≤ c.toNat := hdigit.1
    have hhigh : c.toNat ≤ '9'.toNat := hdigit.2
    have hzero : '0'.toNat = 48 := rfl
    have hnine : '9'.toNat = 57 := rfl
    have hvalue : c.toNat - 48 = d := Option.some.inj h
    have hcode : c.toNat = 48 + d := by omega
    have hshown : ∀ d < 10, Char.ofNat (48 + d) = Nat.digitChar d := by decide
    rw [hcode, hshown d (by omega)] at hc
    exact Or.inl hc.symm
  · have hlow : 'a'.toNat ≤ c.toNat := hlower.1
    have ha : 'a'.toNat = 97 := rfl
    have hvalue : c.toNat - 87 = d := Option.some.inj h
    have hcode : c.toNat = 87 + d := by omega
    have hshown : ∀ d < 16, 10 ≤ d → Char.ofNat (87 + d) = Nat.digitChar d := by decide
    rw [hcode, hshown d hd (by omega)] at hc
    exact Or.inl hc.symm
  · have hlow : 'A'.toNat ≤ c.toNat := hupper.1
    have hA : 'A'.toNat = 65 := rfl
    have hvalue : c.toNat - 55 = d := Option.some.inj h
    have hcode : c.toNat = 55 + d := by omega
    have hshown : ∀ d < 16, 10 ≤ d → Char.ofNat (55 + d) = (Nat.digitChar d).toUpper := by decide
    rw [hcode, hshown d hd (by omega)] at hc
    exact Or.inr hc.symm

/-- Without underscores the grammar derives plain digits. -/
theorem shown_of_continues (hbase : base ≤ 16) (h : Continues base v text n) (hplain : '_' ∉ text) :
    ∃ digits : List ℕ, (∀ d ∈ digits, d < base) ∧ List.Forall₂ DigitOf digits text ∧
      digits.foldl (fun value d => value * base + d) v = n := by
  induction h with
  | done value => exact ⟨[], by simp, List.Forall₂.nil, rfl⟩
  | @digit value n d c rest hd hlt h ih =>
    obtain ⟨digits, hsmall, hshown, hvalue⟩ := ih (fun hmem => hplain (List.mem_cons_of_mem c hmem))
    have hdigit := digitOf_of_digitValue hd (Nat.lt_of_lt_of_le hlt hbase)
    exact ⟨d :: digits, List.forall_mem_cons.mpr ⟨hlt, hsmall⟩, List.Forall₂.cons hdigit hshown, hvalue⟩
  | grouped hd hlt h ih => exact absurd List.mem_cons_self hplain

theorem numeral_of_starts (hbase : base ≤ 16) (h : Starts base 0 text n) (hplain : '_' ∉ text) :
    Numeral base n text := by
  obtain ⟨c, d, rest, rfl, hd, hlt, hrest⟩ := h
  obtain ⟨digits, hsmall, hshown, hvalue⟩ :=
    shown_of_continues hbase hrest (fun hmem => hplain (List.mem_cons_of_mem c hmem))
  have hdigit := digitOf_of_digitValue hd (Nat.lt_of_lt_of_le hlt hbase)
  exact ⟨d :: digits, List.cons_ne_nil d digits, List.forall_mem_cons.mpr ⟨hlt, hsmall⟩,
    List.Forall₂.cons hdigit hshown, hvalue⟩

/-- A digit is neither a sign nor an underscore nor outside ASCII. -/
theorem plain_of_hexValue {c : Char} (h : (hexValue c).isSome = true) :
    ¬(c = '+' ∨ c = '-' ∨ c = '_' ∨ 128 ≤ c.toNat) := by
  have hascii := ascii_of_hexValue h
  rintro (rfl | rfl | rfl | hwide)
  · exact absurd h (by decide)
  · exact absurd h (by decide)
  · exact absurd h (by decide)
  · omega

end Spellings

section Acceptance

variable {limit : DigitLimit} {repr : Str → Str} {s : Str} {z : ℤ}

/-- A documented text is a literal in ASCII without further features. -/
theorem literal_of_documented {k : ℕ} (h : Documented k s) :
    SignedLiteral k (narrow s) ∧ narrow s = s ∧ ¬Undocumented s := by
  have hascii : ∀ {text : Str}, (∀ c ∈ text, c.toNat < 128) → narrow text = text := by
    intro text htext
    rw [narrow, if_pos (List.all_eq_true.mpr fun c hc => decide_eq_true (htext c hc))]
  cases h with
  | @hex x digits hx h =>
    have hdigits := h.digits (Nat.le_refl 16)
    have hx128 : x.toNat < 128 := by
      rcases hx with rfl | rfl
      · decide
      · decide
    have hsame : narrow ('0' :: x :: digits) = '0' :: x :: digits := by
      refine hascii fun c hc => ?_
      rcases List.mem_cons.mp hc with rfl | hc
      · decide
      · rcases List.mem_cons.mp hc with rfl | hc
        · exact hx128
        · exact ascii_of_hexValue (hdigits c hc)
    refine ⟨?_, hsame, ?_⟩
    · rw [hsame]
      exact SignedLiteral.plain (literal_hex hx h)
    · rintro (⟨c, hc, hfeature⟩ | ⟨y, rest, heq, hlower, hupper⟩)
      · rcases List.mem_cons.mp hc with rfl | hc
        · exact absurd hfeature (by decide)
        · rcases List.mem_cons.mp hc with rfl | hc
          · rcases hx with rfl | rfl
            · exact absurd hfeature (by decide)
            · exact absurd hfeature (by decide)
          · exact plain_of_hexValue (hdigits c hc) hfeature
      · have hxy : x = y := (List.cons.inj (List.cons.inj heq).2).1
        rw [hxy] at hx
        exact hx.elim hlower hupper
  | decimal h hzero =>
    have hdigits := h.digits (by omega)
    have hsame : narrow s = s := narrow_numeral (by omega) h
    refine ⟨?_, hsame, ?_⟩
    · rw [hsame]
      exact SignedLiteral.plain (literal_decimal h hzero)
    · rintro (⟨c, hc, hfeature⟩ | ⟨y, rest, rfl, -, -⟩)
      · exact plain_of_hexValue (hdigits c hc) hfeature
      · exact absurd (hzero rfl) (by simp)

/-- A literal without further features is a documented text. -/
theorem documented_of_literal (h : SignedLiteral z (narrow s)) (hplain : ¬Undocumented s) :
    ∃ k : ℕ, z = k ∧ Documented k s := by
  unfold Undocumented at hplain
  rw [not_or] at hplain
  obtain ⟨hchars, hzeros⟩ := hplain
  have hsame : narrow s = s := by
    rw [narrow, if_pos]
    refine List.all_eq_true.mpr fun c hc => decide_eq_true ?_
    by_contra hwide
    exact hchars ⟨c, hc, Or.inr (Or.inr (Or.inr (by omega)))⟩
  have hunder : '_' ∉ s := fun hmem => hchars ⟨'_', hmem, by decide⟩
  rw [hsame] at h
  cases h with
  | plus h => exact absurd ⟨'+', List.mem_cons_self, Or.inl rfl⟩ hchars
  | minus h => exact absurd ⟨'-', List.mem_cons_self, Or.inr (Or.inl rfl)⟩ hchars
  | @plain n text h =>
    cases h with
    | @radix base c digits hc h =>
      have hx : c = 'x' ∨ c = 'X' := by
        by_contra hne
        rw [not_or] at hne
        exact hzeros ⟨c, digits, rfl, hne.1, hne.2⟩
      rw [radixOf_hex hx, Option.some.injEq] at hc
      rw [← hc] at h
      have hdigits : '_' ∉ digits := fun hmem =>
        hunder (List.mem_cons_of_mem _ (List.mem_cons_of_mem _ hmem))
      exact ⟨n, rfl, Documented.hex hx (numeral_of_starts (Nat.le_refl 16) h hdigits)⟩
    | grouped hc h => exact absurd (by simp) hunder
    | decimal h hzero =>
      refine ⟨n, rfl, Documented.decimal (numeral_of_starts (by omega) h hunder) fun hhead => ?_⟩
      obtain ⟨c, d, rest, rfl, hd, hlt, hrest⟩ := h
      have hc : c = '0' := Option.some.inj hhead
      subst hc
      cases rest with
      | nil => rfl
      | cons x rest =>
        have hx : x = 'x' ∨ x = 'X' := by
          by_contra hne
          rw [not_or] at hne
          exact hzeros ⟨x, rest, rfl, hne.1, hne.2⟩
        exact absurd ⟨'0', d, x :: rest, rfl, hd, hlt, hrest⟩ (not_starts_radix (radixOf_hex hx))

/-- What is accepted are the literals within the limit. -/
theorem coerceAddr_iff : coerceAddr limit repr (.text s) = .ok z ↔
    SignedLiteral z (narrow (strip s)) ∧ ¬TooLong limit (narrow (strip s)) := by
  rw [← parseInt_iff (trimmed_strip s)]
  unfold coerceAddr
  dsimp only
  by_cases hempty : strip s = []
  · rw [if_pos hempty, hempty]
    constructor
    · intro h
      exact absurd h (by simp)
    · intro h
      have hnone : parseInt limit [] = none := rfl
      rw [hnone] at h
      exact absurd h (by simp)
  · rw [if_neg hempty]
    cases parseInt limit (strip s) with
    | some n =>
      dsimp only
      rw [Except.ok.injEq, Option.some.injEq]
    | none => simp

/-- What is not accepted raises a `ValueError`. -/
theorem coerceAddr_rejects (h : ∀ z, coerceAddr limit repr (.text s) ≠ .ok z) :
    ∃ message, coerceAddr limit repr (.text s) = .error (.valueError message) := by
  unfold coerceAddr at h ⊢
  dsimp only at h ⊢
  by_cases hempty : strip s = []
  · rw [if_pos hempty]
    exact ⟨_, rfl⟩
  · rw [if_neg hempty] at h ⊢
    cases hparse : parseInt limit (strip s) with
    | some n =>
      rw [hparse] at h
      exact absurd rfl (h n)
    | none => exact ⟨_, rfl⟩

/-- A text whose ends are digits is not changed by stripping. -/
theorem strip_of_digits {text : Str} (hhead : ∀ c ∈ text.head?, (hexValue c).isSome = true)
    (hlast : ∀ c ∈ text.getLast?, (hexValue c).isSome = true) : strip text = text := by
  have htrimmed : Trimmed text :=
    ⟨fun c hc => not_isSpace_of_hexValue (hhead c hc), fun c hc => not_isSpace_of_hexValue (hlast c hc)⟩
  have hblank : Blank [] := fun c hc => absurd hc List.not_mem_nil
  have hpadded := strip_padded hblank hblank htrimmed
  rw [List.append_nil, List.nil_append] at hpadded
  exact hpadded

/-- The hexadecimal rendering of a number is read back. -/
theorem coerceAddr_hex (n : ℕ) : coerceAddr limit repr (.text ("0x".toList ++ formatHex n)) = .ok (n : ℤ) := by
  have hnumeral : Numeral 16 n (formatHex n) := numeral_toDigits (by omega) (Nat.le_refl 16) n
  have hdigits := hnumeral.digits (Nat.le_refl 16)
  have hne : formatHex n ≠ [] := Nat.toDigits_ne_nil
  obtain ⟨hliteral, hsame, -⟩ := literal_of_documented (Documented.hex (Or.inl rfl) hnumeral)
  have hstrip : strip ('0' :: 'x' :: formatHex n) = '0' :: 'x' :: formatHex n := by
    refine strip_of_digits (fun c hc => ?_) (fun c hc => ?_)
    · have hzero : '0' = c := Option.some.inj hc
      rw [← hzero]
      decide
    · rw [List.getLast?_cons_cons, List.getLast?_cons_of_ne_nil hne] at hc
      exact hdigits c (List.mem_of_getLast? hc)
  have hshort : ¬TooLong limit ('0' :: 'x' :: formatHex n) := fun hlong => Bool.noConfusion hlong.1
  have htext : "0x".toList ++ formatHex n = '0' :: 'x' :: formatHex n := rfl
  rw [htext, coerceAddr_iff, hstrip]
  rw [hsame] at hliteral ⊢
  exact ⟨hliteral, hshort⟩

/-- The decimal rendering of a number is read back. -/
theorem coerceAddr_dec {n : ℕ} {text : Str} (htext : writeDec limit.digits n = some text) :
    coerceAddr limit repr (.text text) = .ok (n : ℤ) := by
  unfold writeDec at htext
  split_ifs at htext with hlimit
  have hshown : Nat.toDigits 10 n = text := Option.some.inj htext
  subst hshown
  have hnumeral : Numeral 10 n (Nat.toDigits 10 n) := numeral_toDigits (by omega) (by omega) n
  have hdigits := hnumeral.digits (by omega)
  obtain ⟨hliteral, hsame, -⟩ := literal_of_documented (Documented.decimal hnumeral (toDigits_head n))
  have hstrip : strip (Nat.toDigits 10 n) = Nat.toDigits 10 n :=
    strip_of_digits (fun c hc => hdigits c (List.mem_of_head? hc))
      (fun c hc => hdigits c (List.mem_of_getLast? hc))
  have hshort : ¬TooLong limit (Nat.toDigits 10 n) := by
    rintro ⟨-, hlong⟩
    rw [splitSign_numeral (by omega) hnumeral, countP_numeral (by omega) hnumeral] at hlong
    exact hlimit hlong
  rw [coerceAddr_iff, hstrip]
  rw [hsame] at hliteral ⊢
  exact ⟨hliteral, hshort⟩

/-- A text is parsed as documented unless it is a literal of the host language outside the documented
ones that the digit limit lets through, or a documented one that it stops. -/
theorem parsedAsDocumented_iff : ParsedAsDocumented limit repr s ↔
    ∀ z, SignedLiteral z (narrow (strip s)) → (Undocumented (strip s) ↔ TooLong limit (narrow (strip s))) := by
  constructor
  · intro hparsed z hliteral
    constructor
    · intro hfeature
      by_contra hshort
      obtain ⟨k, hk, hdocumented⟩ := (hparsed.accepts z).mp (coerceAddr_iff.mpr ⟨hliteral, hshort⟩)
      exact (literal_of_documented hdocumented).2.2 hfeature
    · intro hlong
      by_contra hplain
      have haccepted := (hparsed.accepts z).mpr (documented_of_literal hliteral hplain)
      exact (coerceAddr_iff.mp haccepted).2 hlong
  · intro hliterals
    have haccepts : ∀ n : ℤ, coerceAddr limit repr (.text s) = .ok n ↔
        ∃ k : ℕ, n = k ∧ Documented k (strip s) := by
      intro n
      rw [coerceAddr_iff]
      constructor
      · rintro ⟨hliteral, hshort⟩
        have hplain : ¬Undocumented (strip s) := fun h => hshort ((hliterals n hliteral).mp h)
        exact documented_of_literal hliteral hplain
      · rintro ⟨k, rfl, hdocumented⟩
        obtain ⟨hliteral, -, hplain⟩ := literal_of_documented hdocumented
        exact ⟨hliteral, fun h => hplain ((hliterals k hliteral).mpr h)⟩
    refine ⟨haccepts, fun hnone => coerceAddr_rejects fun z hz => ?_⟩
    obtain ⟨k, -, hdocumented⟩ := (haccepts z).mp hz
    exact hnone ⟨k, hdocumented⟩

end Acceptance

/-- Addresses are read by their documented grammar exactly where the host language has no other literal
for the text, and what programs print for a number is read back. -/
theorem coerce_addr_grammar (limit : DigitLimit) (repr : Str → Str) :
    (∀ s, ParsedAsDocumented limit repr s ↔ ∀ z, SignedLiteral z (narrow (strip s)) →
      (Undocumented (strip s) ↔ TooLong limit (narrow (strip s)))) ∧
    ∀ n : ℕ, coerceAddr limit repr (.text ("0x".toList ++ formatHex n)) = .ok (n : ℤ) ∧
      ∀ text, writeDec limit.digits n = some text → coerceAddr limit repr (.text text) = .ok (n : ℤ) :=
  ⟨fun _ => parsedAsDocumented_iff, fun n => ⟨coerceAddr_hex n, fun _ => coerceAddr_dec⟩⟩

/-- A signed text is read as a negative address. -/
theorem negative_address_is_read :
    coerceAddr defaultLimit plainRepr (.text "-0x4".toList) = .ok (-4) ∧
      ¬ParsedAsDocumented defaultLimit plainRepr "-0x4".toList := by
  have hread : coerceAddr defaultLimit plainRepr (.text "-0x4".toList) = .ok (-4) := by decide +kernel
  refine ⟨hread, fun hparsed => ?_⟩
  obtain ⟨k, hk, -⟩ := (hparsed.accepts (-4)).mp hread
  omega

end DolphinRe.AddressTexts
