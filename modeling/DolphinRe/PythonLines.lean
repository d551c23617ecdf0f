import Mathlib.Data.List.DropRight
import Mathlib.Data.List.Forall2
import DolphinRe.HexNumerals

/-!
# Lines, words and decimal numerals of the host language

`str.splitlines`, `str.strip`, `str.split(None, n)`, `str.rsplit(None, 1)` and
`int(s)` as documented. Whitespace and line breaks are those of Unicode; a
decimal numeral longer than the interpreter's digit limit is refused, and a
limit of zero refuses none.
-/

namespace DolphinRe.PythonLines

open PythonText HexNumerals PacketNumerals

/-- `c.isspace()`. -/
def isSpace (c : Char) : Bool :=
  isAsciiSpace c || (28 ≤ c.toNat && c.toNat ≤ 31) || wideSpaces.contains c.toNat

/-- The characters at which `str.splitlines` breaks. -/
def isLineBreak (c : Char) : Bool :=
  (10 ≤ c.toNat && c.toNat ≤ 13) || (28 ≤ c.toNat && c.toNat ≤ 30) ||
    [0x85, 0x2028, 0x2029].contains c.toNat

/-- `s.splitlines()`; a break at the end opens no further line. -/
def splitlines : Str → List Str
  | [] => []
  | '\r' :: '\n' :: rest => [] :: splitlines rest
  | c :: rest =>
    if isLineBreak c then [] :: splitlines rest
    else match splitlines rest with
      | [] => [[c]]
      | line :: lines => (c :: line) :: lines

/-- `s.lstrip()`. -/
def lstrip (s : Str) : Str := s.dropWhile isSpace

/-- `s.rstrip()`. -/
def rstrip (s : Str) : Str := s.rdropWhile isSpace

/-- `s.strip()`. -/
def strip (s : Str) : Str := rstrip (lstrip s)

/-- `s.split(None, n)`; what is left after `n` words keeps its inner and trailing whitespace. -/
def splitWords : ℕ → Str → List Str
  | 0, s => if lstrip s = [] then [] else [lstrip s]
  | n + 1, s =>
    if lstrip s = [] then []
    else (lstrip s).takeWhile (fun c => !isSpace c) ::
      splitWords n ((lstrip s).dropWhile fun c => !isSpace c)

/-- `s.rsplit(None, 1)`. -/
def rsplitWord (s : Str) : List Str :=
  let word := (rstrip s).rtakeWhile fun c => !isSpace c
  let front := rstrip ((rstrip s).rdropWhile fun c => !isSpace c)
  if word = [] then [] else if front = [] then [word] else [front, word]

/-- `"\n".join(lines)`. -/
def joinLines : List Str → Str
  | [] => []
  | [line] => line
  | line :: next :: lines => line ++ '\n' :: joinLines (next :: lines)

/-- A numeral of so many digits is over the interpreter's limit. -/
def OverLimit (maxStrDigits digits : ℕ) : Prop := 0 < maxStrDigits ∧ maxStrDigits < digits

instance (maxStrDigits digits : ℕ) : Decidable (OverLimit maxStrDigits digits) :=
  inferInstanceAs (Decidable (_ ∧ _))

/-- The number behind the sign of a decimal numeral; the digit limit does not count underscores. -/
def decimalValue (maxStrDigits : ℕ) (negative : Bool) (unsigned : Str) : Option ℤ :=
  match scanNumeral 10 unsigned with
  | some (value, rest) =>
    let digits := (unsigned.take (unsigned.length - rest.length)).countP (· ≠ '_')
    if OverLimit maxStrDigits digits then none
    else if rest.all isAsciiSpace then some (if negative then -(value : ℤ) else value) else none
  | none => none

/-- `int(s)`; `none` models the raised `ValueError`. -/
def parseDecInt (maxStrDigits : ℕ) (s : Str) : Option ℤ :=
  let (negative, unsigned) := splitSign ((narrow s).dropWhile isAsciiSpace)
  decimalValue maxStrDigits negative unsigned

/-- `str(n)`; `none` models the `ValueError` of a number over the digit limit. -/
def writeDec (maxStrDigits : ℕ) (n : ℤ) : Option Str :=
  if OverLimit maxStrDigits (Nat.toDigits 10 n.natAbs).length then none else some (formatDec n)

section Lines

theorem isSpace_of_isLineBreak {c : Char} (h : isLineBreak c = true) : isSpace c = true := by
  unfold isLineBreak at h
  unfold isSpace isAsciiSpace wideSpaces
  simp only [List.contains_eq_mem, List.mem_cons, List.not_mem_nil, or_false, Bool.or_eq_true,
    Bool.and_eq_true, decide_eq_true_eq] at h ⊢
  omega

/-- A line ends at its break. -/
theorem splitlines_line {line : Str} (hline : ∀ c ∈ line, isLineBreak c = false) (rest : Str) :
    splitlines (line ++ '\n' :: rest) = line :: splitlines rest := by
  induction line with
  | nil =>
    have hbreak : isLineBreak '\n' = true := by decide
    rw [List.nil_append, splitlines, if_pos hbreak]
    simp
  | cons c line ih =>
    have hc := hline c List.mem_cons_self
    have hcr : c ≠ '\r' := by
      rintro rfl
      exact absurd hc (by decide)
    rw [List.cons_append, splitlines, ih fun d hd => hline d (List.mem_cons_of_mem c hd), hc]
    · simp
    · intro tail heq
      exact absurd heq hcr

/-- The last line needs no break; an empty one is not seen. -/
theorem splitlines_last {line : Str} (hline : ∀ c ∈ line, isLineBreak c = false) :
    splitlines line = if line = [] then [] else [line] := by
  induction line with
  | nil => simp [splitlines]
  | cons c line ih =>
    have hc := hline c List.mem_cons_self
    have hcr : c ≠ '\r' := by
      rintro rfl
      exact absurd hc (by decide)
    rw [splitlines, ih fun d hd => hline d (List.mem_cons_of_mem c hd), hc]
    · by_cases hempty : line = []
      · simp [hempty]
      · simp [hempty]
    · intro tail heq
      exact absurd heq hcr

end Lines

section Whitespace

/-- No whitespace at either end. -/
def Trimmed (s : Str) : Prop :=
  (∀ c ∈ s.head?, isSpace c = false) ∧ ∀ c ∈ s.getLast?, isSpace c = false

instance (s : Str) : Decidable (Trimmed s) :=
  decidable_of_iff
    ((s.head?.all fun c => !isSpace c) = true ∧ (s.getLast?.all fun c => !isSpace c) = true)
    (by simp [Trimmed, Option.all_eq_true])

/-- Whitespace only. -/
def Blank (s : Str) : Prop := ∀ c ∈ s, isSpace c = true

instance (s : Str) : Decidable (Blank s) := decidable_of_iff (s.all isSpace = true) List.all_eq_true

variable {s front back : Str}

theorem lstrip_blank (h : Blank front) (s : Str) : lstrip (front ++ s) = lstrip s :=
  List.dropWhile_append_of_pos h

theorem lstrip_of_blank (h : Blank s) : lstrip s = [] := by
  have hnil := lstrip_blank h []
  rw [List.append_nil] at hnil
  exact hnil

theorem lstrip_of_head (h : ∀ c ∈ s.head?, isSpace c = false) : lstrip s = s := by
  cases s with
  | nil => rfl
  | cons c s =>
    have hc := h c rfl
    rw [lstrip, List.dropWhile_cons_of_neg (by simp [hc])]

/-- Nothing is dropped in front of a character that stays. -/
theorem rstrip_append (h : ∀ c ∈ s.getLast?, isSpace c = false) (back : Str) :
    rstrip (s ++ back) = s ++ rstrip back := by
  induction back using List.reverseRecOn with
  | nil =>
    have hself : rstrip s = s := by
      refine List.rdropWhile_eq_self_iff.mpr fun hne => ?_
      rw [h _ (List.getLast_mem_getLast? hne)]
      exact Bool.false_ne_true
    simpa [rstrip] using hself
  | append_singleton back c ih =>
    unfold rstrip at ih ⊢
    rw [← List.append_assoc, List.rdropWhile_concat, List.rdropWhile_concat, ih]
    split_ifs
    · rfl
    · rw [List.append_assoc]

/-- A trimmed text comes back without what stands around it. -/
theorem strip_padded (hfront : Blank front) (hback : Blank back) (h : Trimmed s) :
    strip (front ++ (s ++ back)) = s := by
  unfold strip
  rw [lstrip_blank hfront]
  cases s with
  | nil =>
    rw [List.nil_append, lstrip_of_blank hback]
    rfl
  | cons c s =>
    have hhead : ∀ d ∈ (c :: s ++ back).head?, isSpace d = false := h.1
    rw [lstrip_of_head hhead, rstrip_append h.2]
    have hrest : rstrip back = [] := List.rdropWhile_eq_nil_iff.mpr hback
    rw [hrest, List.append_nil]

theorem strip_blank (h : Blank s) : strip s = [] := by
  unfold strip
  rw [lstrip_of_blank h]
  rfl

/-- Stripping leaves no whitespace at either end. -/
theorem trimmed_strip (s : Str) : Trimmed (strip s) := by
  constructor
  · intro c hc
    have hprefix : strip s <+: lstrip s := List.rdropWhile_prefix _ _
    have hhead : (lstrip s).head? = some c := by
      obtain ⟨back, hback⟩ := hprefix
      have hne : strip s ≠ [] := by
        intro hnil
        rw [hnil] at hc
        exact absurd hc (by simp)
      rw [← hback, List.head?_append_of_ne_nil _ hne]
      exact hc
    have hnot := List.head?_dropWhile_not isSpace s
    unfold lstrip at hhead
    rw [hhead] at hnot
    exact hnot
  · intro c hc
    have hne : strip s ≠ [] := by
      intro hnil
      rw [hnil] at hc
      exact absurd hc (by simp)
    have hlast : (strip s).getLast hne = c := by
      rw [List.getLast?_eq_some_getLast hne] at hc
      exact Option.some.inj hc
    have hnot := List.rdropWhile_last_not isSpace (lstrip s) hne
    rw [← hlast]
    exact Bool.not_eq_true _ ▸ hnot

/-- A word at the front stays at the front. -/
theorem prefix_strip {word : Str} (hword : word ≠ []) (h : Trimmed word) (hfront : Blank front)
    (back : Str) : word <+: strip (front ++ (word ++ back)) := by
  unfold strip
  have hhead : ∀ c ∈ (word ++ back).head?, isSpace c = false := by
    intro c hc
    rw [List.head?_append_of_ne_nil word hword] at hc
    exact h.1 c hc
  rw [lstrip_blank hfront, lstrip_of_head hhead, rstrip_append h.2]
  exact List.prefix_append word _

/-- A word at the back stays at the back. -/
theorem suffix_strip {word : Str} (hword : word ≠ []) (h : Trimmed word) (hback : Blank back)
    (front : Str) : word <:+ strip (front ++ (word ++ back)) := by
  have hkept : lstrip (front ++ (word ++ back)) = lstrip front ++ (word ++ back) := by
    have hhead : lstrip (word ++ back) = word ++ back := by
      refine lstrip_of_head fun c hc => ?_
      rw [List.head?_append_of_ne_nil word hword] at hc
      exact h.1 c hc
    induction front with
    | nil => exact hhead
    | cons c front ih =>
      unfold lstrip at ih ⊢
      rw [List.cons_append, List.dropWhile_cons, List.dropWhile_cons]
      split_ifs
      · exact ih
      · rfl
  have hlast : ∀ c ∈ (lstrip front ++ word).getLast?, isSpace c = false := by
    intro c hc
    rw [List.getLast?_append_of_ne_nil _ hword] at hc
    exact h.2 c hc
  have hrest : rstrip back = [] := List.rdropWhile_eq_nil_iff.mpr hback
  unfold strip
  rw [hkept, ← List.append_assoc, rstrip_append hlast, hrest, List.append_nil]
  exact List.suffix_append _ word

end Whitespace

section Words

variable {word gap rest : Str}

/-- One word is split off at the gap behind it. -/
theorem splitWords_word (n : ℕ) (hword : word ≠ []) (hplain : ∀ c ∈ word, isSpace c = false)
    (hgap : gap ≠ []) (hblank : Blank gap) :
    splitWords (n + 1) (word ++ (gap ++ rest)) = word :: splitWords n (gap ++ rest) := by
  have hhead : lstrip (word ++ (gap ++ rest)) = word ++ (gap ++ rest) := by
    refine lstrip_of_head fun c hc => ?_
    rw [List.head?_append_of_ne_nil word hword] at hc
    exact hplain c (List.mem_of_mem_head? hc)
  have hne : word ++ (gap ++ rest) ≠ [] := List.append_ne_nil_of_left_ne_nil hword _
  have hall : ∀ c ∈ word, (!isSpace c) = true := by
    intro c hc
    rw [hplain c hc]
    rfl
  rw [splitWords, hhead, if_neg hne, List.takeWhile_append_of_pos hall,
    List.dropWhile_append_of_pos hall]
  cases gap with
  | nil => exact absurd rfl hgap
  | cons c gap =>
    have hc := hblank c List.mem_cons_self
    rw [List.cons_append, List.takeWhile_cons_of_neg (by simp [hc]),
      List.dropWhile_cons_of_neg (by simp [hc]), List.append_nil]

/-- Whitespace in front is not seen. -/
theorem splitWords_blank (n : ℕ) (hblank : Blank gap) (rest : Str) :
    splitWords n (gap ++ rest) = splitWords n rest := by
  cases n with
  | zero => rw [splitWords, splitWords, lstrip_blank hblank]
  | succ n => rw [splitWords, splitWords, lstrip_blank hblank]

/-- What is left is kept whole. -/
theorem splitWords_rest (hrest : rest ≠ []) (hhead : ∀ c ∈ rest.head?, isSpace c = false) :
    splitWords 0 rest = [rest] := by
  rw [splitWords, lstrip_of_head hhead, if_neg hrest]

end Words

section Decimal

variable {base n : ℕ} {text : Str}

/-- Digits are not whitespace. -/
theorem not_isSpace_of_hexValue {c : Char} (h : (hexValue c).isSome = true) : isSpace c = false := by
  have hascii := ascii_of_hexValue h
  have hnarrow := not_space_of_hexValue h
  have hlow := le_of_hexValue h
  have hwide : c.toNat ∉ wideSpaces := by
    intro hmem
    have hle : ∀ w ∈ wideSpaces, 128 ≤ w := by decide
    have hbig := hle _ hmem
    omega
  rw [isSpace, hnarrow, Bool.false_or, Bool.or_eq_false_iff]
  constructor
  · rw [Bool.and_eq_false_iff, decide_eq_false_iff_not, decide_eq_false_iff_not]
    omega
  · simpa using hwide

/-- The digits of a number show it. -/
theorem numeral_toDigits (hone : 1 < base) (hbase : base ≤ 16) (n : ℕ) :
    Numeral base n (Nat.toDigits base n) := by
  induction n using Nat.strongRecOn with
  | ind n ih =>
    rw [Nat.toDigits_eq_if hone]
    split_ifs with hlt
    · exact ⟨[n], List.cons_ne_nil n [], by simpa using hlt,
        List.Forall₂.cons (Or.inl rfl) List.Forall₂.nil, by simp⟩
    · have hdiv : n / base < n := Nat.div_lt_self (by omega) hone
      obtain ⟨digits, hne, hsmall, hshown, hvalue⟩ := ih (n / base) hdiv
      refine ⟨digits ++ [n % base], by simp, ?_, ?_, ?_⟩
      · intro d hd
        rcases List.mem_append.mp hd with hd | hd
        · exact hsmall d hd
        · rw [List.mem_singleton.mp hd]
          exact Nat.mod_lt n (by omega)
      · exact List.rel_append hshown (List.Forall₂.cons (Or.inl rfl) List.Forall₂.nil)
      · rw [List.foldl_append, hvalue, List.foldl_cons, List.foldl_nil]
        exact Nat.div_add_mod' n base

/-- Zeros in front change nothing. -/
theorem numeral_leftpad (width : ℕ) (h : Numeral base n text) :
    Numeral base n (List.leftpad width '0' text) := by
  obtain ⟨digits, hne, hsmall, hshown, hvalue⟩ := h
  have hpositive : 0 < base := by
    obtain ⟨d, hd⟩ := List.exists_mem_of_ne_nil digits hne
    exact Nat.lt_of_le_of_lt (Nat.zero_le d) (hsmall d hd)
  have hzeros : ∀ k, (List.replicate k 0).foldl (fun value d => value * base + d) 0 = 0 := by
    intro k
    induction k with
    | zero => rfl
    | succ k ih =>
      rw [List.replicate_succ, List.foldl_cons, Nat.zero_mul]
      exact ih
  refine ⟨List.replicate (width - text.length) 0 ++ digits, ?_, ?_, ?_, ?_⟩
  · exact List.append_ne_nil_of_right_ne_nil _ hne
  · intro d hd
    rcases List.mem_append.mp hd with hd | hd
    · rw [List.eq_of_mem_replicate hd]
      exact hpositive
    · exact hsmall d hd
  · refine List.rel_append ?_ hshown
    rw [List.forall₂_iff_get]
    refine ⟨by simp, fun i _ _ => Or.inl ?_⟩
    simp
  · rw [List.foldl_append, hzeros, hvalue]

/-- Numerals have no underscores to be left out of a count. -/
theorem countP_numeral (hbase : base ≤ 16) (h : Numeral base n text) :
    text.countP (· ≠ '_') = text.length := by
  have hunder : '_' ∉ text := h.not_mem hbase (by decide)
  rw [List.countP_eq_length]
  intro c hc
  exact decide_eq_true fun heq => hunder (heq ▸ hc)

theorem decimalValue_toDigits {maxStrDigits n : ℕ}
    (hlimit : ¬OverLimit maxStrDigits (Nat.toDigits 10 n).length) (negative : Bool) :
    decimalValue maxStrDigits negative (Nat.toDigits 10 n) =
      some (if negative then -(n : ℤ) else n) := by
  have hnumeral : Numeral 10 n (Nat.toDigits 10 n) := numeral_toDigits (by omega) (by omega) n
  have hscan := scanNumeral_numeral (by omega) hnumeral
  have hcount := countP_numeral (by omega) hnumeral
  unfold decimalValue
  rw [hscan]
  dsimp only
  rw [List.length_nil, Nat.sub_zero, List.take_length, hcount, if_neg hlimit, List.all_nil, if_pos rfl]

/-- What is written within the digit limit is read back. -/
theorem parseDecInt_writeDec {maxStrDigits : ℕ} {a : ℤ} (h : writeDec maxStrDigits a = some text) :
    parseDecInt maxStrDigits text = some a := by
  unfold writeDec at h
  split_ifs at h with hlimit
  have htext : formatDec a = text := Option.some.inj h
  have hnumeral : Numeral 10 a.natAbs (Nat.toDigits 10 a.natAbs) :=
    numeral_toDigits (by omega) (by omega) a.natAbs
  subst htext
  unfold parseDecInt formatDec
  split_ifs with hneg
  · have hascii : narrow ('-' :: Nat.toDigits 10 a.natAbs) = '-' :: Nat.toDigits 10 a.natAbs := by
      rw [narrow, if_pos]
      rw [List.all_cons, Bool.and_eq_true, List.all_eq_true]
      exact ⟨by decide, fun c hc => decide_eq_true (ascii_of_hexValue (hnumeral.digits (by omega) c hc))⟩
    have hminus : isAsciiSpace '-' = false := by decide
    have hvalue : -(a.natAbs : ℤ) = a := by omega
    rw [hascii, List.dropWhile_cons_of_neg (by simp [hminus]), splitSign]
    dsimp only
    rw [decimalValue_toDigits hlimit, if_pos rfl, hvalue]
  · have hvalue : (a.natAbs : ℤ) = a := by omega
    rw [narrow_numeral (by omega) hnumeral, dropWhile_space_numeral (by omega) hnumeral,
      splitSign_numeral (by omega) hnumeral]
    dsimp only
    rw [decimalValue_toDigits hlimit, if_neg Bool.false_ne_true, hvalue]

end Decimal

end DolphinRe.PythonLines
