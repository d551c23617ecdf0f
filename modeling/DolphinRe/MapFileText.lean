import DolphinRe.MapSymbols

/-!
# Writing and parsing map files

A map file has one line for each symbol, between blank lines, separators and
section headings. Parsing a written file gives the symbols back in order, less
the repetitions of a start and name, and skips no line.
-/

namespace DolphinRe.MapFileText

open PythonText HexNumerals PythonLines MapSymbols

section KeepFirst

variable {α κ : Type} [DecidableEq κ]

/-- Only the first element with each key. -/
def keepFirst (key : α → κ) : List α → List α
  | [] => []
  | a :: rest => a :: (keepFirst key rest).filter fun b => key b ≠ key a

/-- One more element is kept when its key is new. -/
theorem keepFirst_append (key : α → κ) (l : List α) (a : α) :
    keepFirst key (l ++ [a]) =
      if key a ∈ l.map key then keepFirst key l else keepFirst key l ++ [a] := by
  induction l with
  | nil => rfl
  | cons b l ih =>
    rw [List.cons_append, keepFirst, ih, keepFirst, List.map_cons]
    by_cases hold : key a ∈ l.map key
    · rw [if_pos hold, if_pos (List.mem_cons_of_mem _ hold)]
    · rw [if_neg hold, List.filter_append]
      by_cases hsame : key a = key b
      · simp [hsame]
      · simp [hold, hsame]

end KeepFirst

section Writing

/-- The whole text is one line. -/
def OneLine (text : Str) : Prop := ∀ c ∈ text, isLineBreak c = false

instance (text : Str) : Decidable (OneLine text) :=
  decidable_of_iff ((text.all fun c => !isLineBreak c) = true) (by simp [OneLine])

/-- A name that a map file can carry. -/
structure PlainName (name : Str) : Prop where
  /-- It is not empty. -/
  nonempty : name ≠ []
  /-- It neither starts nor ends with a blank. -/
  trimmed : Trimmed name
  /-- It has no tab. -/
  untabbed : '\t' ∉ name
  /-- It has no line break. -/
  oneLine : OneLine name

/-- The section column. -/
inductive Place where
  | global
  | loc
  | weak
  | common

/-- The word in the section column. -/
def Place.word : Place → Str
  | .global => "Global".toList
  | .loc => "Local".toList
  | .weak => "Weak".toList
  | .common => "Common".toList

/-- A symbol that can be written, with its alignment and section. -/
structure Row where
  /-- The symbol. -/
  sym : Symbol
  /-- Its alignment. -/
  align : ℤ
  /-- The word of its section column. -/
  place : Place
  /-- Its address can be written. -/
  addr_nonneg : 0 ≤ sym.addr
  /-- So can its size. -/
  size_nonneg : 0 ≤ sym.size
  /-- So can its name. -/
  plain : PlainName sym.name

/-- `f"{size:06x}"` for a size that is not negative. -/
def formatHex6 (size : ℤ) : Str := List.leftpad 6 '0' (hexDigits size.natAbs)

/-- The columns of a row behind its indentation. -/
def Row.columns (row : Row) (align : Str) : Str :=
  [formatHex8 row.sym.addr, [' '], formatHex6 row.sym.size, [' '], formatHex8 row.sym.addr, [' ', ' '],
    align, [' '], row.sym.name, [' ', '\t'], row.place.word].flatten

/-- Lines that carry no symbol: blank ones, separators and the two kinds of heading. -/
inductive Passed : Str → Prop where
  | blank {text : Str} (h : Blank text) : Passed text
  | separator {indent : Str} (h : Blank indent) (rest : Str) : Passed (indent ++ ("---".toList ++ rest))
  | starting {indent : Str} (h : Blank indent) (rest : Str) :
    Passed (indent ++ ("Starting".toList ++ rest))
  | layout {trail : Str} (h : Blank trail) (front : Str) :
    Passed (front ++ ("section layout".toList ++ trail))

/-- A line of a map file. -/
inductive MapLine where
  | row (row : Row)
  | other (text : Str) (passed : Passed text) (oneLine : OneLine text)

/-- The text of a line, unless its alignment is over the interpreter's digit limit. -/
def MapLine.text (maxStrDigits : ℕ) : MapLine → Option Str
  | .row entry => (writeDec maxStrDigits entry.align).map fun align => ' ' :: ' ' :: entry.columns align
  | .other text _ _ => some text

/-- The texts of all lines. -/
def lineTexts (maxStrDigits : ℕ) : List MapLine → Option (List Str)
  | [] => some []
  | line :: lines =>
    match line.text maxStrDigits, lineTexts maxStrDigits lines with
    | some text, some texts => some (text :: texts)
    | _, _ => none

/-- The text of a map file. -/
def writeMap (maxStrDigits : ℕ) (lines : List MapLine) : Option Str :=
  (lineTexts maxStrDigits lines).map joinLines

/-- The symbols of the rows. -/
def symbolsOf (lines : List MapLine) : List Symbol :=
  lines.filterMap fun
    | .row row => some row.sym
    | .other _ _ _ => none

end Writing

section Columns

variable {row : Row} {align : Str} {maxStrDigits : ℕ}

/-- An empty text is blank. -/
theorem blank_nil : Blank [] := by decide

/-- So is a space. -/
theorem blank_space : Blank [' '] := by decide

/-- So are two. -/
theorem blank_spaces : Blank [' ', ' '] := by decide

/-- A space breaks no line. -/
theorem oneLine_space : OneLine [' '] := by decide

/-- Neither do two. -/
theorem oneLine_spaces : OneLine [' ', ' '] := by decide

/-- Nor does a tab. -/
theorem oneLine_tab : OneLine [' ', '\t'] := by decide

/-- The address column is a hexadecimal numeral. -/
theorem numeral_formatHex8 {n : ℤ} (hn : 0 ≤ n) : Numeral 16 n.natAbs (formatHex8 n) := by
  have hneg : ¬n < 0 := not_lt.mpr hn
  rw [formatHex8, if_neg hneg]
  exact numeral_leftpad 8 (numeral_toDigits (by omega) (Nat.le_refl 16) n.natAbs)

/-- So is the size column. -/
theorem numeral_formatHex6 (n : ℤ) : Numeral 16 n.natAbs (formatHex6 n) :=
  numeral_leftpad 6 (numeral_toDigits (by omega) (Nat.le_refl 16) n.natAbs)

/-- A word of the columns. -/
structure Word (text : Str) : Prop where
  /-- It is not empty. -/
  nonempty : text ≠ []
  /-- It has no blanks. -/
  unspaced : ∀ c ∈ text, isSpace c = false

/-- A word has no line break. -/
theorem Word.oneLine {text : Str} (h : Word text) : OneLine text := by
  intro c hc
  by_contra hbreak
  rw [Bool.not_eq_false] at hbreak
  have hspace := isSpace_of_isLineBreak hbreak
  rw [h.unspaced c hc] at hspace
  exact absurd hspace Bool.false_ne_true

/-- A numeral is a word. -/
theorem word_of_numeral {base n : ℕ} {text : Str} (hbase : base ≤ 16) (h : Numeral base n text) :
    Word text := by
  constructor
  · obtain ⟨c, rest, rfl⟩ := h.exists_cons
    exact List.cons_ne_nil c rest
  · exact fun c hc => not_isSpace_of_hexValue (h.digits hbase c hc)

/-- So is a decimal number. -/
theorem word_of_writeDec {a : ℤ} (h : writeDec maxStrDigits a = some align) : Word align := by
  unfold writeDec at h
  split_ifs at h
  have htext : formatDec a = align := Option.some.inj h
  have hdigits : Word (Nat.toDigits 10 a.natAbs) :=
    word_of_numeral (by omega) (numeral_toDigits (by omega) (by omega) a.natAbs)
  subst htext
  unfold formatDec
  split_ifs
  · constructor
    · exact List.cons_ne_nil _ _
    · intro c hc
      rcases List.mem_cons.mp hc with rfl | hc
      · decide
      · exact hdigits.unspaced c hc
  · exact hdigits

/-- So is what stands in the section column. -/
theorem word_place (place : Place) : Word place.word := by
  have hall : (place.word.all fun c => !isSpace c) = true := by cases place <;> decide
  constructor
  · cases place <;> decide
  · intro c hc
    have hc := List.all_eq_true.mp hall c hc
    rwa [Bool.not_eq_true'] at hc

/-- The columns, one behind the other. -/
theorem Row.columns_eq (row : Row) (align : Str) :
    row.columns align = formatHex8 row.sym.addr ++ ([' '] ++ (formatHex6 row.sym.size ++ ([' '] ++
      (formatHex8 row.sym.addr ++ ([' ', ' '] ++ (align ++ ([' '] ++
        (row.sym.name ++ ([' ', '\t'] ++ row.place.word))))))))) := by
  simp [Row.columns]

/-- Four columns in front of a name are split off. -/
theorem splitWords_fields {first size third name : Str} (hfirst : Word first) (hsize : Word size)
    (hthird : Word third) (halign : Word align) (hname : PlainName name) (last : Str) :
    splitWords 4 (first ++ ([' '] ++ (size ++ ([' '] ++ (third ++ ([' ', ' '] ++ (align ++ ([' '] ++
      (name ++ ([' ', '\t'] ++ last)))))))))) =
      [first, size, third, align, name ++ ([' ', '\t'] ++ last)] := by
  have hne := hname.nonempty
  have hhead : ∀ c ∈ (name ++ ([' ', '\t'] ++ last)).head?, isSpace c = false := by
    intro c hc
    rw [List.head?_append_of_ne_nil _ hne] at hc
    exact hname.trimmed.1 c hc
  rw [splitWords_word 3 hfirst.nonempty hfirst.unspaced (List.cons_ne_nil _ _) blank_space,
    splitWords_blank _ blank_space,
    splitWords_word 2 hsize.nonempty hsize.unspaced (List.cons_ne_nil _ _) blank_space,
    splitWords_blank _ blank_space,
    splitWords_word 1 hthird.nonempty hthird.unspaced (List.cons_ne_nil _ _) blank_spaces,
    splitWords_blank _ blank_spaces,
    splitWords_word 0 halign.nonempty halign.unspaced (List.cons_ne_nil _ _) blank_space,
    splitWords_blank _ blank_space, splitWords_rest (List.append_ne_nil_of_left_ne_nil hne _) hhead]

/-- The name is what stands in front of the tab. -/
theorem nameColumn_tab {name : Str} (hname : PlainName name) (last : Str) :
    nameColumn (name ++ ([' ', '\t'] ++ last)) = name := by
  have htab : '\t' ∈ name ++ ([' ', '\t'] ++ last) := by simp
  have hplain : ∀ c ∈ name, decide (c ≠ '\t') = true := by
    intro c hc
    exact decide_eq_true fun heq => hname.untabbed (heq ▸ hc)
  have hfront : (name ++ ([' ', '\t'] ++ last)).takeWhile (· ≠ '\t') = name ++ [' '] := by
    rw [List.takeWhile_append_of_pos hplain]
    simp
  rw [nameColumn, if_pos htab, hfront]
  exact strip_padded blank_nil blank_space hname.trimmed

/-- The first two columns and the name are read, the third column is not. -/
theorem parseLine_fields {addr size a : ℤ} {third name : Str} (haddr : 0 ≤ addr) (hsize : 0 ≤ size)
    (hthird : Word third) (halign : writeDec maxStrDigits a = some align) (hname : PlainName name)
    (last : Str) :
    parseLine maxStrDigits (formatHex8 addr ++ ([' '] ++ (formatHex6 size ++ ([' '] ++ (third ++
      ([' ', ' '] ++ (align ++ ([' '] ++ (name ++ ([' ', '\t'] ++ last)))))))))) =
      some ⟨addr, size, name⟩ := by
  have haddrValue := Int.natAbs_of_nonneg haddr
  have hsizeValue := Int.natAbs_of_nonneg hsize
  have haddrText := parseHexInt_numeral (numeral_formatHex8 haddr)
  have hsizeText := parseHexInt_numeral (numeral_formatHex6 size)
  have haddrWord := word_of_numeral (Nat.le_refl 16) (numeral_formatHex8 haddr)
  have hsizeWord := word_of_numeral (Nat.le_refl 16) (numeral_formatHex6 size)
  unfold parseLine
  rw [splitWords_fields haddrWord hsizeWord hthird (word_of_writeDec halign) hname]
  dsimp only
  rw [haddrText, hsizeText, parseDecInt_writeDec halign, nameColumn_tab hname]
  dsimp only
  rw [if_neg hname.nonempty, haddrValue, hsizeValue]

/-- A row is parsed as its symbol. -/
theorem parseLine_columns (halign : writeDec maxStrDigits row.align = some align) :
    parseLine maxStrDigits (row.columns align) = some row.sym := by
  have haddr := word_of_numeral (Nat.le_refl 16) (numeral_formatHex8 row.addr_nonneg)
  rw [Row.columns_eq]
  exact parseLine_fields row.addr_nonneg row.size_nonneg haddr halign row.plain row.place.word

end Columns

section Lines

variable {row : Row} {align : Str} {maxStrDigits : ℕ}

/-- Texts without line breaks have none together. -/
theorem oneLine_append {a b : Str} (ha : OneLine a) (hb : OneLine b) : OneLine (a ++ b) := by
  intro c hc
  rcases List.mem_append.mp hc with hc | hc
  · exact ha c hc
  · exact hb c hc

/-- A row is one line. -/
theorem oneLine_columns (halign : Word align) : OneLine (row.columns align) := by
  have haddr := word_of_numeral (Nat.le_refl 16) (numeral_formatHex8 row.addr_nonneg)
  have hsize := word_of_numeral (Nat.le_refl 16) (numeral_formatHex6 row.sym.size)
  have htail := oneLine_append row.plain.oneLine (oneLine_append oneLine_tab (word_place row.place).oneLine)
  have hback := oneLine_append oneLine_spaces
    (oneLine_append halign.oneLine (oneLine_append oneLine_space htail))
  rw [Row.columns_eq]
  exact oneLine_append haddr.oneLine (oneLine_append oneLine_space (oneLine_append hsize.oneLine
    (oneLine_append oneLine_space (oneLine_append haddr.oneLine hback))))

/-- A row begins with a digit and ends with its section. -/
theorem columns_ends (row : Row) (align : Str) :
    (∃ c rest, row.columns align = c :: rest ∧ (hexValue c).isSome = true) ∧
      (row.columns align).getLast? = row.place.word.getLast? := by
  have hnumeral := numeral_formatHex8 row.addr_nonneg
  constructor
  · obtain ⟨c, rest, heq⟩ := hnumeral.exists_cons
    have hc := hnumeral.digits (Nat.le_refl 16) c (by rw [heq]; exact List.mem_cons_self)
    rw [Row.columns_eq, heq]
    exact ⟨c, _, rfl, hc⟩
  · have hword := (word_place row.place).nonempty
    rw [Row.columns]
    simp only [List.flatten_cons, List.flatten_nil, List.append_nil, ← List.append_assoc]
    exact List.getLast?_append_of_ne_nil _ hword

/-- A row neither starts nor ends with a blank. -/
theorem trimmed_columns (row : Row) (align : Str) : Trimmed (row.columns align) := by
  obtain ⟨⟨c, rest, heq, hc⟩, hlast⟩ := columns_ends row align
  refine ⟨?_, fun d hd => ?_⟩
  · rw [heq]
    intro d hd
    rw [List.head?_cons, Option.mem_def, Option.some.injEq] at hd
    exact hd ▸ not_isSpace_of_hexValue hc
  · rw [hlast] at hd
    exact (word_place row.place).unspaced d (List.mem_of_getLast? hd)

/-- A line from a digit to something else than the words of a heading is no heading and no separator. -/
theorem not_heading_of_digit {c : Char} {rest : Str} (hc : (hexValue c).isSome = true)
    (hend : ¬"section layout".toList <:+ c :: rest) : isHeading (c :: rest) = false := by
  have hfirst : ∀ word : Str, word.head? = some '-' ∨ word.head? = some 'S' →
      word.isPrefixOf (c :: rest) = false := by
    intro word hword
    by_contra hfront
    rw [Bool.not_eq_false, List.isPrefixOf_iff_prefix] at hfront
    obtain ⟨back, hback⟩ := hfront
    have hhead : word.head? = some c := by
      cases word with
      | nil => simp at hword
      | cons d word =>
        rw [List.cons_append, List.cons.injEq] at hback
        rw [hback.1]
        rfl
    rw [hhead, Option.some.injEq, Option.some.injEq] at hword
    rcases hword with rfl | rfl
    · exact absurd hc (by decide)
    · exact absurd hc (by decide)
  have hlayout : "section layout".toList.isSuffixOf (c :: rest) = false := by
    rw [← Bool.not_eq_true, List.isSuffixOf_iff_suffix]
    exact hend
  rw [isHeading, hfirst "---".toList (Or.inl (by decide)),
    hfirst "Starting".toList (Or.inr (by decide)), hlayout]
  rfl

/-- A row is no heading and no separator. -/
theorem not_heading_columns (row : Row) (align : Str) : isHeading (row.columns align) = false := by
  obtain ⟨⟨c, rest, heq, hc⟩, hlast⟩ := columns_ends row align
  have hend : ¬"section layout".toList <:+ row.columns align := by
    rintro ⟨front, hfront⟩
    have hlayout : (row.columns align).getLast? = some 't' := by
      rw [← hfront, List.getLast?_append_of_ne_nil _ (by decide)]
      decide
    rw [hlast] at hlayout
    cases hplace : row.place <;> rw [hplace] at hlayout <;> exact absurd hlayout (by decide)
  rw [heq] at hend ⊢
  exact not_heading_of_digit hc hend

/-- Other lines are passed over. -/
theorem parseRaw_passed {text : Str} (h : Passed text) (st : Parsed) :
    parseRaw maxStrDigits st text = st := by
  have hheading : strip text = [] ∨ isHeading (strip text) = true := by
    unfold isHeading
    rw [Bool.or_eq_true, Bool.or_eq_true, List.isPrefixOf_iff_prefix, List.isPrefixOf_iff_prefix,
      List.isSuffixOf_iff_suffix]
    cases h with
    | blank h => exact Or.inl (strip_blank h)
    | separator h rest =>
      exact Or.inr (Or.inl (Or.inl (prefix_strip (by decide) (by decide) h rest)))
    | starting h rest =>
      exact Or.inr (Or.inl (Or.inr (prefix_strip (by decide) (by decide) h rest)))
    | layout h front =>
      exact Or.inr (Or.inr (suffix_strip (by decide) (by decide) h front))
  unfold parseRaw
  dsimp only
  rcases hheading with hblank | hheading
  · rw [if_pos hblank]
  · by_cases hblank : strip text = []
    · rw [if_pos hblank]
    · rw [if_neg hblank, if_pos hheading]

/-- The key of the deduplication. -/
def symbolKey (sym : Symbol) : ℤ × Str := (sym.addr, sym.name)

/-- The loop has read rows with these symbols. -/
structure Reading (read : List Symbol) (st : Parsed) : Prop where
  /-- The symbols kept are the first ones under their keys. -/
  syms : st.syms = keepFirst symbolKey read
  /-- The keys seen are those of the symbols read. -/
  seen : ∀ key, key ∈ st.seen ↔ key ∈ read.map symbolKey

/-- At first no row has been read. -/
theorem reading_start : Reading [] {} := ⟨rfl, fun _ => Iff.rfl⟩

/-- One more symbol. -/
theorem Reading.next {read : List Symbol} {st : Parsed} (h : Reading read st) (sym : Symbol) :
    Reading (read ++ [sym]) (if symbolKey sym ∈ st.seen then st
      else {st with seen := st.seen ++ [symbolKey sym], syms := st.syms ++ [sym]}) := by
  by_cases hold : symbolKey sym ∈ st.seen
  · rw [if_pos hold]
    have hread := (h.seen _).mp hold
    refine ⟨?_, fun key => ?_⟩
    · rw [keepFirst_append, if_pos hread]
      exact h.syms
    · rw [h.seen, List.map_append, List.mem_append]
      constructor
      · exact Or.inl
      · rintro (hkey | hkey)
        · exact hkey
        · rw [List.map_cons, List.map_nil, List.mem_singleton] at hkey
          rw [hkey]
          exact hread
  · rw [if_neg hold]
    have hread : symbolKey sym ∉ read.map symbolKey := fun hkey => hold ((h.seen _).mpr hkey)
    refine ⟨?_, fun key => ?_⟩
    · rw [keepFirst_append, if_neg hread]
      dsimp only
      rw [h.syms]
    · dsimp only
      rw [List.mem_append, h.seen, List.map_append, List.mem_append]
      rfl

/-- A line that is parsed adds its symbol, unless the key is there. -/
theorem parseRaw_parsed {raw line : Str} {sym : Symbol} (st : Parsed) (hstrip : strip raw = line)
    (hne : line ≠ []) (hheading : isHeading line = false) (hparse : parseLine maxStrDigits line = some sym) :
    parseRaw maxStrDigits st raw = if symbolKey sym ∈ st.seen then st
      else {st with seen := st.seen ++ [symbolKey sym], syms := st.syms ++ [sym]} := by
  unfold parseRaw
  dsimp only
  rw [hstrip, if_neg hne, hheading, if_neg Bool.false_ne_true, hparse]
  rfl

/-- The loop has read rows with these symbols, and has skipped nothing. -/
structure Progress (read : List Symbol) (st : Parsed) : Prop where
  /-- The symbols kept are the first ones under their keys. -/
  syms : st.syms = keepFirst symbolKey read
  /-- No line has been skipped. -/
  skipped : st.skipped = 0
  /-- The keys seen are those of the symbols read. -/
  seen : ∀ key, key ∈ st.seen ↔ key ∈ read.map symbolKey

/-- Nor has any been skipped. -/
theorem progress_start : Progress [] {} := ⟨rfl, rfl, fun _ => Iff.rfl⟩

/-- Two blanks in front of a trimmed line. -/
theorem strip_indented {line : Str} (h : Trimmed line) : strip (' ' :: ' ' :: line) = line := by
  have hpadded := strip_padded blank_spaces blank_nil h
  rw [List.append_nil] at hpadded
  exact hpadded

/-- One more row. -/
theorem Progress.next {read : List Symbol} {st : Parsed} (h : Progress read st)
    (halign : writeDec maxStrDigits row.align = some align) :
    Progress (read ++ [row.sym]) (parseRaw maxStrDigits st (' ' :: ' ' :: row.columns align)) := by
  have hne : row.columns align ≠ [] := by
    obtain ⟨c, rest, heq, -⟩ := (columns_ends row align).1
    rw [heq]
    exact List.cons_ne_nil c rest
  have hreading : Reading read st := ⟨h.syms, h.seen⟩
  have hnext := hreading.next row.sym
  rw [parseRaw_parsed st (strip_indented (trimmed_columns row align)) hne (not_heading_columns row align)
    (parseLine_columns halign)]
  refine ⟨hnext.syms, ?_, hnext.seen⟩
  rw [← h.skipped]
  split_ifs
  · rfl
  · rfl

/-- The lines are written one by one. -/
theorem lineTexts_cons {line : MapLine} {lines : List MapLine} {texts : List Str}
    (h : lineTexts maxStrDigits (line :: lines) = some texts) :
    ∃ text rest, line.text maxStrDigits = some text ∧ lineTexts maxStrDigits lines = some rest ∧
      texts = text :: rest := by
  unfold lineTexts at h
  split at h
  · rename_i text rest htext hrest
    exact ⟨text, rest, htext, hrest, (Option.some.inj h).symm⟩
  · exact absurd h (Option.some_ne_none texts).symm

/-- All lines in turn. -/
theorem Progress.run {read : List Symbol} {st : Parsed} {lines : List MapLine} {texts : List Str}
    (h : Progress read st) (htexts : lineTexts maxStrDigits lines = some texts) :
    Progress (read ++ symbolsOf lines) (texts.foldl (parseRaw maxStrDigits) st) := by
  induction lines generalizing read st texts with
  | nil =>
    have hnil : texts = [] := (Option.some.inj htexts).symm
    subst hnil
    rw [symbolsOf, List.filterMap_nil, List.append_nil]
    exact h
  | cons line lines ih =>
    obtain ⟨text, rest, htext, hrest, rfl⟩ := lineTexts_cons htexts
    rw [List.foldl_cons]
    cases line with
    | row entry =>
      obtain ⟨align, halign, rfl⟩ := Option.map_eq_some_iff.mp htext
      have hnext := ih (h.next halign) hrest
      rw [List.append_assoc] at hnext
      exact hnext
    | other text passed oneLine =>
      have htext : text = _ := Option.some.inj htext
      subst htext
      rw [parseRaw_passed passed]
      exact ih h hrest

/-- What is written has one line for each. -/
theorem oneLine_texts {lines : List MapLine} {texts : List Str}
    (htexts : lineTexts maxStrDigits lines = some texts) : ∀ text ∈ texts, OneLine text := by
  induction lines generalizing texts with
  | nil =>
    have hnil : texts = [] := (Option.some.inj htexts).symm
    subst hnil
    simp
  | cons line lines ih =>
    obtain ⟨text, rest, htext, hrest, rfl⟩ := lineTexts_cons htexts
    intro other hother
    rcases List.mem_cons.mp hother with rfl | hother
    · cases line with
      | row entry =>
        obtain ⟨align, halign, rfl⟩ := Option.map_eq_some_iff.mp htext
        exact oneLine_append oneLine_spaces (oneLine_columns (word_of_writeDec halign))
      | other text passed oneLine =>
        have htext : text = _ := Option.some.inj htext
        subst htext
        exact oneLine
    · exact ih hrest other hother

/-- The loop over the lines of a joined text sees the texts. -/
theorem foldl_splitlines {texts : List Str} (h : ∀ text ∈ texts, OneLine text) (st : Parsed) :
    (splitlines (joinLines texts)).foldl (parseRaw maxStrDigits) st =
      texts.foldl (parseRaw maxStrDigits) st := by
  induction texts generalizing st with
  | nil => rfl
  | cons text texts ih =>
    have htext := h text List.mem_cons_self
    cases texts with
    | nil =>
      rw [joinLines, splitlines_last htext]
      by_cases hempty : text = []
      · have hblank : Blank text := by
          rw [hempty]
          exact blank_nil
        rw [if_pos hempty, List.foldl_cons, parseRaw_passed (Passed.blank hblank)]
      · rw [if_neg hempty]
    | cons next texts =>
      rw [joinLines, splitlines_line htext, List.foldl_cons, List.foldl_cons]
      exact ih (fun other hother => h other (List.mem_cons_of_mem text hother)) _

end Lines

/-- Parsing a written map file gives its symbols in order, less later repetitions of an address
and name, and skips nothing. -/
theorem parseText_writeMap (maxStrDigits : ℕ) (lines : List MapLine) (text : Str)
    (h : writeMap maxStrDigits lines = some text) :
    parseText maxStrDigits text = (keepFirst symbolKey (symbolsOf lines), 0) := by
  obtain ⟨texts, htexts, rfl⟩ := Option.map_eq_some_iff.mp h
  have hrun := progress_start.run htexts
  rw [← foldl_splitlines (oneLine_texts htexts)] at hrun
  unfold parseText
  dsimp only
  rw [hrun.syms, hrun.skipped]
  rfl

/-- A row whose name has a blank, an operator and a word of digits. -/
def sampleRow (align : ℤ) (place : Place) : Row where
  sym := ⟨0x80004000, 0x29c, "operator<< 802c Global".toList⟩
  align := align
  place := place
  addr_nonneg := by decide
  size_nonneg := by decide
  plain := ⟨by decide, by decide, by decide, by decide⟩

/-- A heading, the row, an empty line, the row again and the end of the last line. -/
def sampleLines : List MapLine :=
  [.other ".text section layout".toList (.layout blank_nil ".text ".toList) (by decide),
    .row (sampleRow 4 .global), .other [] (.blank blank_nil) (by decide),
    .row (sampleRow 32 .weak), .other [] (.blank blank_nil) (by decide)]

/-- The file of these lines. -/
def sampleText : Str :=
  (".text section layout\n  80004000 00029c 80004000  4 operator<< 802c Global \tGlobal\n\n" ++
    "  80004000 00029c 80004000  32 operator<< 802c Global \tWeak\n").toList

/-- A small map with two rows for one key. -/
theorem parseText_writeMap_sample :
    writeMap 4300 sampleLines = some sampleText ∧
      parseText 4300 sampleText = ([⟨0x80004000, 0x29c, "operator<< 802c Global".toList⟩], 0) := by
  have hwritten : writeMap 4300 sampleLines = some sampleText := by decide +kernel
  have hparsed := parseText_writeMap 4300 sampleLines sampleText hwritten
  rw [hparsed]
  exact ⟨hwritten, by decide +kernel⟩

end DolphinRe.MapFileText
