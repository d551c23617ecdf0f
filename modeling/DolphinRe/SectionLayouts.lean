import Mathlib.Data.Bool.AllAny
import Mathlib.Data.Finset.Max
import DolphinRe.MapFileText
import DolphinRe.SymbolLookup

/-!
# Section layouts of a linker

The linker's own maps list the symbols of each section by their offset inside
the section, with the address in memory in the third column. The parser takes
the first column for the address, so that symbols are found at their offsets
and none at its address.
-/

namespace DolphinRe.SectionLayouts

open PythonText HexNumerals PythonLines MapSymbols MapFileText SymbolLookup

section Writing

/-- The text behind the tab: a member of a library, or an object file. -/
structure ObjectName (object : Str) : Prop where
  /-- It is not empty. -/
  nonempty : object ≠ []
  /-- It does not end with a blank. -/
  unspaced : ∀ c ∈ object.getLast?, isSpace c = false
  /-- It has no line break. -/
  oneLine : OneLine object
  /-- It does not look like a heading. -/
  plain : ¬"section layout".toList <:+ object

/-- A symbol of a section. -/
structure Entry where
  /-- Where the section starts in memory. -/
  base : ℤ
  /-- Distance from the start of the section. -/
  offset : ℤ
  /-- Number of bytes. -/
  size : ℤ
  /-- Its alignment. -/
  align : ℤ
  /-- Its name. -/
  name : Str
  /-- The object file that it comes from. -/
  object : Str
  /-- Sections do not start at zero. -/
  base_pos : 0 < base
  /-- The offset can be written. -/
  offset_nonneg : 0 ≤ offset
  /-- So can the size. -/
  size_nonneg : 0 ≤ size
  /-- So can the name. -/
  plain : PlainName name
  /-- So can the object file. -/
  origin : ObjectName object

/-- The address of a symbol in memory. -/
def Entry.vaddr (e : Entry) : ℤ := e.base + e.offset

/-- The columns of an entry behind its indentation. -/
def Entry.columns (e : Entry) (align : Str) : Str :=
  [formatHex8 e.offset, [' '], formatHex6 e.size, [' '], formatHex8 e.vaddr, [' ', ' '], align, [' '],
    e.name, [' ', '\t'], e.object].flatten

/-- The heading over the columns. -/
def columnTitles : Str := "  address  Size   address".toList

/-- A line of a section layout. -/
inductive LayoutLine where
  | entry (e : Entry)
  /-- A symbol that the linker left out has no addresses. -/
  | unused (rest : Str) (oneLine : OneLine rest)
  | titles
  | other (text : Str) (passed : Passed text) (oneLine : OneLine text)

/-- The text of a line, unless its alignment is over the interpreter's digit limit. -/
def LayoutLine.text (maxStrDigits : ℕ) : LayoutLine → Option Str
  | .entry e => (writeDec maxStrDigits e.align).map fun align => ' ' :: ' ' :: e.columns align
  | .unused rest _ => some (' ' :: ' ' :: ("UNUSED".toList ++ ' ' :: rest))
  | .titles => some columnTitles
  | .other text _ _ => some text

/-- The texts of all lines. -/
def layoutTexts (maxStrDigits : ℕ) : List LayoutLine → Option (List Str)
  | [] => some []
  | line :: lines =>
    match line.text maxStrDigits, layoutTexts maxStrDigits lines with
    | some text, some texts => some (text :: texts)
    | _, _ => none

/-- The text of a map with section layouts. -/
def writeLayout (maxStrDigits : ℕ) (lines : List LayoutLine) : Option Str :=
  (layoutTexts maxStrDigits lines).map joinLines

/-- The symbols of a map, in order. -/
def entriesOf (lines : List LayoutLine) : List Entry :=
  lines.filterMap fun
    | .entry e => some e
    | .unused _ _ => none
    | .titles => none
    | .other _ _ _ => none

end Writing

section Resolution

/-- The addresses of a symbol in memory; one without a size has its start. -/
def Entry.InRange (e : Entry) (addr : ℤ) : Prop := e.vaddr ≤ addr ∧ addr < e.vaddr + max e.size 1

/-- Lookups resolve by the addresses in memory. -/
structure ResolvesVirtually (m : SymbolMap) (entries : List Entry) : Prop where
  /-- Inside a symbol a lookup names it, with the distance from its start in memory. -/
  inside : ∀ e ∈ entries, ∀ addr, e.InRange addr → ∃ d, m.lookup addr = some d ∧ d.name = e.name ∧
    d.offsetInSymbol = "0x".toList ++ formatHex (addr - e.vaddr)
  /-- Elsewhere it finds nothing. -/
  outside : ∀ addr, (∀ e ∈ entries, ¬e.InRange addr) → m.lookup addr = none

/-- What the parser makes of an entry. -/
def Entry.symbol (e : Entry) : Symbol := ⟨e.offset, e.size, e.name⟩

end Resolution

section Lines

variable {maxStrDigits : ℕ} {align : Str} {e : Entry}

theorem Entry.vaddr_nonneg (e : Entry) : 0 ≤ e.vaddr := by
  have hbase := e.base_pos
  have hoffset := e.offset_nonneg
  unfold Entry.vaddr
  omega

/-- The columns, one behind the other. -/
theorem Entry.columns_eq (e : Entry) (align : Str) :
    e.columns align = formatHex8 e.offset ++ ([' '] ++ (formatHex6 e.size ++ ([' '] ++ (formatHex8 e.vaddr ++
      ([' ', ' '] ++ (align ++ ([' '] ++ (e.name ++ ([' ', '\t'] ++ e.object))))))))) := by
  simp [Entry.columns]

/-- An entry is parsed as a symbol at its offset. -/
theorem parseLine_entry (halign : writeDec maxStrDigits e.align = some align) :
    parseLine maxStrDigits (e.columns align) = some e.symbol := by
  have hthird := word_of_numeral (Nat.le_refl 16) (numeral_formatHex8 e.vaddr_nonneg)
  rw [Entry.columns_eq]
  exact parseLine_fields e.offset_nonneg e.size_nonneg hthird halign e.plain e.object

/-- What ends a text behind a character that it does not have ends what follows the character. -/
theorem suffix_behind {word front back : Str} {c : Char} (hc : c ∉ word) (h : word <:+ front ++ c :: back) :
    word <:+ back := by
  rcases List.suffix_or_suffix_of_suffix h (List.suffix_append front (c :: back)) with hword | hback
  · rcases List.suffix_cons_iff.mp hword with hall | hrest
    · exact absurd (hall ▸ List.mem_cons_self) hc
    · exact hrest
  · exact absurd (hback.subset List.mem_cons_self) hc

/-- An entry begins with a digit and is a line like those of the flat format. -/
theorem columns_entry (e : Entry) (align : Str) : e.columns align ≠ [] ∧ Trimmed (e.columns align) ∧
    isHeading (e.columns align) = false := by
  have hnumeral := numeral_formatHex8 e.offset_nonneg
  obtain ⟨c, rest, heq⟩ := hnumeral.exists_cons
  have hc := hnumeral.digits (Nat.le_refl 16) c (by rw [heq]; exact List.mem_cons_self)
  obtain ⟨back, hback⟩ : ∃ back, e.columns align = c :: back := by
    rw [Entry.columns_eq, heq]
    exact ⟨_, rfl⟩
  have hsplit : e.columns align = [formatHex8 e.offset, [' '], formatHex6 e.size, [' '], formatHex8 e.vaddr,
      [' ', ' '], align, [' '], e.name, [' ']].flatten ++ '\t' :: e.object := by
    simp [Entry.columns]
  have hlast : (e.columns align).getLast? = e.object.getLast? := by
    rw [hsplit, List.getLast?_append_of_ne_nil _ (List.cons_ne_nil _ _),
      List.getLast?_cons_of_ne_nil e.origin.nonempty]
  have hend : ¬"section layout".toList <:+ e.columns align := by
    intro hsuffix
    rw [hsplit] at hsuffix
    exact e.origin.plain (suffix_behind (by decide) hsuffix)
  refine ⟨?_, ⟨fun d hd => ?_, fun d hd => ?_⟩, ?_⟩
  · rw [hback]
    exact List.cons_ne_nil c back
  · rw [hback, List.head?_cons, Option.mem_def, Option.some.injEq] at hd
    exact hd ▸ not_isSpace_of_hexValue hc
  · rw [hlast] at hd
    exact e.origin.unspaced d hd
  · rw [hback] at hend ⊢
    exact not_heading_of_digit hc hend

theorem oneLine_entry (halign : Word align) : OneLine (e.columns align) := by
  have hoffset := word_of_numeral (Nat.le_refl 16) (numeral_formatHex8 e.offset_nonneg)
  have hsize := word_of_numeral (Nat.le_refl 16) (numeral_formatHex6 e.size)
  have hvaddr := word_of_numeral (Nat.le_refl 16) (numeral_formatHex8 e.vaddr_nonneg)
  have htail := oneLine_append e.plain.oneLine (oneLine_append oneLine_tab e.origin.oneLine)
  have hback := oneLine_append oneLine_spaces
    (oneLine_append halign.oneLine (oneLine_append oneLine_space htail))
  rw [Entry.columns_eq]
  exact oneLine_append hoffset.oneLine (oneLine_append oneLine_space (oneLine_append hsize.oneLine
    (oneLine_append oneLine_space (oneLine_append hvaddr.oneLine hback))))

/-- A line that is not parsed adds no symbol. -/
theorem reading_unparsed {read : List Symbol} {st : Parsed} (h : Reading read st) {raw : Str}
    (hparse : parseLine maxStrDigits (strip raw) = none) : Reading read (parseRaw maxStrDigits st raw) := by
  unfold parseRaw
  dsimp only
  rw [hparse]
  split_ifs
  · exact h
  · exact h
  · exact ⟨h.syms, h.seen⟩

theorem parseLine_titles : parseLine maxStrDigits (strip columnTitles) = none := by
  have hwords : splitWords 4 (strip columnTitles) =
      ["address".toList, "Size".toList, "address".toList] := by decide +kernel
  unfold parseLine
  rw [hwords]

/-- A line whose first word is no number is not parsed. -/
theorem parseLine_first {line first : Str} {words : List Str} (hwords : splitWords 4 line = first :: words)
    (hfirst : parseHexInt first = none) : parseLine maxStrDigits line = none := by
  unfold parseLine
  rw [hwords]
  split
  · rename_i addrS sizeS third alignS rest heq
    have haddr : first = addrS := (List.cons.inj heq).1
    rw [← haddr, hfirst]
  · rfl

/-- The mark of a symbol that was left out is no number. -/
theorem parseLine_unused (rest : Str) :
    parseLine maxStrDigits (strip (' ' :: ' ' :: ("UNUSED".toList ++ ' ' :: rest))) = none := by
  have hmark : ("UNUSED".toList : Str) ≠ [] := by decide
  have hplain : ∀ c ∈ "UNUSED".toList, isSpace c = false := List.all_iff_forall_prop.mp (by decide +kernel)
  have hvalue : parseHexInt "UNUSED".toList = none := by decide +kernel
  have hstrip : strip (' ' :: ' ' :: ("UNUSED".toList ++ ' ' :: rest)) =
      "UNUSED".toList ++ rstrip (' ' :: rest) := by
    have hhead : ∀ c ∈ ("UNUSED".toList ++ ' ' :: rest).head?, isSpace c = false := by
      intro c hc
      rw [List.head?_append_of_ne_nil _ hmark] at hc
      exact hplain c (List.mem_of_mem_head? hc)
    have hlast : ∀ c ∈ ("UNUSED".toList : Str).getLast?, isSpace c = false :=
      fun c hc => hplain c (List.mem_of_getLast? hc)
    have hindent := lstrip_blank blank_spaces ("UNUSED".toList ++ ' ' :: rest)
    rw [List.cons_append, List.cons_append, List.nil_append, lstrip_of_head hhead] at hindent
    rw [strip, hindent, rstrip_append hlast]
  have hgap : rstrip (' ' :: rest) <+: ' ' :: rest := List.rdropWhile_prefix _ _
  rw [hstrip]
  cases hback : rstrip (' ' :: rest) with
  | nil =>
    have hword : splitWords 4 ("UNUSED".toList ++ []) = ["UNUSED".toList] := by decide
    exact parseLine_first hword hvalue
  | cons c back =>
    rw [hback] at hgap
    have hc : c = ' ' := (List.cons_prefix_cons.mp hgap).1
    have hword : splitWords 4 ("UNUSED".toList ++ ([' '] ++ back)) =
        "UNUSED".toList :: splitWords 3 ([' '] ++ back) :=
      splitWords_word 3 hmark hplain (List.cons_ne_nil ' ' []) blank_space
    rw [hc]
    exact parseLine_first hword hvalue

/-- The loop over one more line. -/
theorem reading_line {read : List Symbol} {st : Parsed} (h : Reading read st) {line : LayoutLine} {text : Str}
    (htext : line.text maxStrDigits = some text) :
    Reading (read ++ (entriesOf [line]).map Entry.symbol) (parseRaw maxStrDigits st text) := by
  cases line with
  | entry e =>
    obtain ⟨align, halign, rfl⟩ := Option.map_eq_some_iff.mp htext
    obtain ⟨hne, htrimmed, hheading⟩ := columns_entry e align
    rw [parseRaw_parsed st (strip_indented htrimmed) hne hheading (parseLine_entry halign)]
    exact h.next e.symbol
  | unused rest oneLine =>
    have htext : _ = text := Option.some.inj htext
    rw [← htext, entriesOf, List.filterMap_cons, List.filterMap_nil, List.map_nil, List.append_nil]
    exact reading_unparsed h (parseLine_unused rest)
  | titles =>
    have htext : _ = text := Option.some.inj htext
    rw [← htext, entriesOf, List.filterMap_cons, List.filterMap_nil, List.map_nil, List.append_nil]
    exact reading_unparsed h parseLine_titles
  | other text' passed oneLine =>
    have htext : _ = text := Option.some.inj htext
    rw [← htext, entriesOf, List.filterMap_cons, List.filterMap_nil, List.map_nil, List.append_nil,
      parseRaw_passed passed]
    exact h

theorem layoutTexts_cons {line : LayoutLine} {lines : List LayoutLine} {texts : List Str}
    (h : layoutTexts maxStrDigits (line :: lines) = some texts) :
    ∃ text rest, line.text maxStrDigits = some text ∧ layoutTexts maxStrDigits lines = some rest ∧
      texts = text :: rest := by
  unfold layoutTexts at h
  split at h
  · rename_i text rest htext hrest
    exact ⟨text, rest, htext, hrest, (Option.some.inj h).symm⟩
  · exact absurd h (Option.some_ne_none texts).symm

/-- All lines in turn. -/
theorem reading_run {read : List Symbol} {st : Parsed} {lines : List LayoutLine} {texts : List Str}
    (h : Reading read st) (htexts : layoutTexts maxStrDigits lines = some texts) :
    Reading (read ++ (entriesOf lines).map Entry.symbol) (texts.foldl (parseRaw maxStrDigits) st) := by
  induction lines generalizing read st texts with
  | nil =>
    have hnil : texts = [] := (Option.some.inj htexts).symm
    rw [hnil, entriesOf, List.filterMap_nil, List.map_nil, List.append_nil]
    exact h
  | cons line lines ih =>
    obtain ⟨text, rest, htext, hrest, rfl⟩ := layoutTexts_cons htexts
    have hnext := ih (reading_line h htext) hrest
    have hentries : entriesOf (line :: lines) = entriesOf [line] ++ entriesOf lines := by
      have hcons : line :: lines = [line] ++ lines := rfl
      rw [hcons, entriesOf, List.filterMap_append]
      rfl
    rw [List.foldl_cons, hentries, List.map_append, ← List.append_assoc]
    exact hnext

theorem oneLine_layout {lines : List LayoutLine} {texts : List Str}
    (htexts : layoutTexts maxStrDigits lines = some texts) : ∀ text ∈ texts, OneLine text := by
  induction lines generalizing texts with
  | nil =>
    have hnil : texts = [] := (Option.some.inj htexts).symm
    rw [hnil]
    simp
  | cons line lines ih =>
    obtain ⟨text, rest, htext, hrest, rfl⟩ := layoutTexts_cons htexts
    have hline : OneLine text := by
      cases line with
      | entry e =>
        obtain ⟨align, halign, rfl⟩ := Option.map_eq_some_iff.mp htext
        exact oneLine_append oneLine_spaces (oneLine_entry (word_of_writeDec halign))
      | unused rest oneLine =>
        have htext : _ = text := Option.some.inj htext
        have hmark : OneLine ("UNUSED".toList) := by decide
        rw [← htext]
        exact oneLine_append oneLine_spaces (oneLine_append hmark (oneLine_append oneLine_space oneLine))
      | titles =>
        have htext : _ = text := Option.some.inj htext
        rw [← htext]
        decide
      | other text' passed oneLine =>
        have htext : _ = text := Option.some.inj htext
        rw [← htext]
        exact oneLine
    exact List.forall_mem_cons.mpr ⟨hline, ih hrest⟩

/-- The parser makes symbols at the offsets. -/
theorem parseText_writeLayout {lines : List LayoutLine} {text : Str}
    (h : writeLayout maxStrDigits lines = some text) :
    (parseText maxStrDigits text).1 = keepFirst symbolKey ((entriesOf lines).map Entry.symbol) := by
  obtain ⟨texts, htexts, rfl⟩ := Option.map_eq_some_iff.mp h
  have hrun := reading_run reading_start htexts
  rw [← foldl_splitlines (oneLine_layout htexts)] at hrun
  exact hrun.syms

end Lines

section Lookups

variable {maxStrDigits : ℕ} {lines : List LayoutLine} {text : Str}

theorem mem_of_mem_keepFirst {α κ : Type} [DecidableEq κ] {key : α → κ} {l : List α} {a : α}
    (h : a ∈ keepFirst key l) : a ∈ l := by
  induction l with
  | nil => exact absurd h List.not_mem_nil
  | cons b l ih =>
    rcases List.mem_cons.mp h with rfl | hrest
    · exact List.mem_cons_self
    · exact List.mem_cons_of_mem b (ih (List.mem_filter.mp hrest).1)

/-- Only zero has the digits of zero. -/
theorem eq_zero_of_formatHex {n : ℤ} (h : formatHex n = formatHex 0) : n = 0 := by
  have hzero : formatHex 0 = ['0'] := by decide
  rw [hzero, formatHex] at h
  split_ifs at h with hneg
  · have hminus : '-' = '0' := (List.cons.inj h).1
    exact absurd hminus (by decide)
  · unfold hexDigits at h
    rw [Nat.toDigits_eq_if (by omega)] at h
    split_ifs at h with hsmall
    · have hdigit : ∀ k < 16, [Nat.digitChar k] = ['0'] → k = 0 := by decide
      have habs := hdigit _ hsmall h
      omega
    · have hlength := congrArg List.length h
      have hpositive := List.length_pos_of_ne_nil (@Nat.toDigits_ne_nil (n.natAbs / 16) 16)
      rw [List.length_append, List.length_singleton, List.length_singleton] at hlength
      omega

/-- An answer is about a symbol that covers the address at its offset. -/
theorem lookup_of_layout (h : writeLayout maxStrDigits lines = some text) (path : Str) (m : SymbolMap)
    {addr : ℤ} {d : Resolved} (hd : (m.load maxStrDigits path (.ok text)).2.lookup addr = some d) :
    ∃ e ∈ entriesOf lines, Covers e.symbol addr ∧ d = toLookupDict addr e.symbol := by
  have hrepresents : Represents (m.load maxStrDigits path (.ok text)).2 (parseText maxStrDigits text).1 :=
    ⟨rfl, rfl, rfl⟩
  obtain ⟨hsame, hanswer⟩ := hrepresents.lookups addr
  rw [hsame] at hd
  obtain ⟨hnone, -⟩ | ⟨sym, hchosen, hlookup⟩ := hanswer
  · rw [hnone] at hd
    exact absurd hd (Option.some_ne_none d).symm
  · have hmem := hchosen.mem
    rw [parseText_writeLayout h] at hmem
    obtain ⟨e, he, hsym⟩ := List.mem_map.mp (mem_of_mem_keepFirst hmem)
    rw [hlookup] at hd
    split_ifs at hd with hcovers
    have hanswered := (Option.some.inj hd).symm
    rw [← hsym] at hcovers hanswered
    exact ⟨e, he, hcovers, hanswered⟩

/-- A map with section layouts is resolved by the addresses in memory only when it has no symbol: no
symbol is found at the greatest of the addresses, since all offsets are below it. -/
theorem layout_resolves_iff (path : Str) (m : SymbolMap) (h : writeLayout maxStrDigits lines = some text) :
    ResolvesVirtually (m.load maxStrDigits path (.ok text)).2 (entriesOf lines) ↔ entriesOf lines = [] := by
  constructor
  · intro hresolves
    by_contra hne
    have hsome : (entriesOf lines : Multiset Entry) ≠ 0 := by
      intro hzero
      exact hne (Multiset.coe_eq_zero _ |>.mp hzero)
    obtain ⟨e, he, hgreatest⟩ := Multiset.exists_max_image Entry.vaddr hsome
    have hstart : e.InRange e.vaddr := by
      constructor
      · omega
      · omega
    obtain ⟨d, hd, -, hoffset⟩ := hresolves.inside e he e.vaddr hstart
    obtain ⟨other, hother, -, rfl⟩ := lookup_of_layout h path m hd
    have hzero : e.vaddr - other.offset = 0 := by
      refine eq_zero_of_formatHex ?_
      have hshown := List.append_cancel_left hoffset
      rw [Int.sub_self] at hshown
      exact hshown
    have hbelow := hgreatest other hother
    have hbase := other.base_pos
    unfold Entry.vaddr at hbelow hzero
    omega
  · intro hempty
    rw [hempty]
    refine ⟨fun e he => absurd he List.not_mem_nil, fun addr _ => ?_⟩
    cases hlookup : (m.load maxStrDigits path (.ok text)).2.lookup addr with
    | none => rfl
    | some d =>
      obtain ⟨e, he, -⟩ := lookup_of_layout h path m hlookup
      rw [hempty] at he
      exact absurd he List.not_mem_nil

theorem objectName_sample : ObjectName "Runtime.PPCEABI.H.a __mem.o".toList where
  nonempty := by decide
  unspaced := by
    have hlast : "Runtime.PPCEABI.H.a __mem.o".toList.getLast? = some 'o' := by decide +kernel
    intro c hc
    rw [hlast, Option.mem_some_iff] at hc
    rw [← hc]
    decide
  oneLine := by decide +kernel
  plain := by decide +kernel

/-- Two symbols of a section that starts at `0x80003100`. -/
def sampleEntry (offset size : ℕ) (name : Str) (plain : PlainName name) : Entry where
  base := 0x80003100
  offset := offset
  size := size
  align := 4
  name := name
  object := "Runtime.PPCEABI.H.a __mem.o".toList
  base_pos := by decide
  offset_nonneg := by omega
  size_nonneg := by omega
  plain := plain
  origin := objectName_sample

/-- The layout of one section. -/
def sampleLayout : List LayoutLine :=
  [.other ".init section layout".toList (.layout blank_nil ".init ".toList) (by decide),
    .other "  Starting        Virtual".toList (.starting blank_spaces "        Virtual".toList) (by decide),
    .titles,
    .other "  -----------------------".toList (.separator blank_spaces "--------------------".toList) (by decide),
    .entry (sampleEntry 0 0x30 "memset".toList ⟨by decide, by decide, by decide, by decide⟩),
    .entry (sampleEntry 0x30 0xb8 "memcpy".toList ⟨by decide, by decide, by decide, by decide⟩),
    .unused "  000034 ........ memchr".toList (by decide)]

/-- The text of this layout. -/
def sampleLayoutText : Str :=
  (".init section layout\n  Starting        Virtual\n  address  Size   address\n  -----------------------\n" ++
    "  00000000 000030 80003100  4 memset \tRuntime.PPCEABI.H.a __mem.o\n" ++
    "  00000030 0000b8 80003130  4 memcpy \tRuntime.PPCEABI.H.a __mem.o\n  UNUSED   000034 ........ memchr").toList

theorem sample_written : writeLayout 4300 sampleLayout = some sampleLayoutText := by decide +kernel

theorem layout_resolves_iff_sample : writeLayout 4300 sampleLayout = some sampleLayoutText ∧
    ¬ResolvesVirtually (({} : SymbolMap).load 4300 "main.map".toList (.ok sampleLayoutText)).2
      (entriesOf sampleLayout) := by
  refine ⟨sample_written, fun hresolves => ?_⟩
  exact absurd ((layout_resolves_iff "main.map".toList {} sample_written).mp hresolves) (List.cons_ne_nil _ _)

/-- The ranges of the two symbols do not meet, and the start of the second one is not found. -/
theorem virtual_start_is_missed : writeLayout 4300 sampleLayout = some sampleLayoutText ∧
    ((entriesOf sampleLayout).Pairwise fun a b => ∀ addr, ¬(a.InRange addr ∧ b.InRange addr)) ∧
    (({} : SymbolMap).load 4300 "main.map".toList (.ok sampleLayoutText)).2.lookup 0x80003130 = none ∧
    ¬ResolvesVirtually (({} : SymbolMap).load 4300 "main.map".toList (.ok sampleLayoutText)).2
      (entriesOf sampleLayout) := by
  have hnone : (({} : SymbolMap).load 4300 "main.map".toList (.ok sampleLayoutText)).2.lookup 0x80003130 =
      none := by
    cases hlookup : (({} : SymbolMap).load 4300 "main.map".toList (.ok sampleLayoutText)).2.lookup 0x80003130 with
    | none => rfl
    | some d =>
      obtain ⟨e, he, hcovers, -⟩ := lookup_of_layout sample_written "main.map".toList {} hlookup
      have hbelow : ∀ e ∈ entriesOf sampleLayout, e.offset + max e.size 1 ≤ 0xe8 := by decide
      have hend := hbelow e he
      have hstart : (0x80003130 : ℤ) < e.offset + max e.size 1 := hcovers.2
      omega
  refine ⟨sample_written, ?_, hnone, fun hresolves => ?_⟩
  · unfold entriesOf sampleLayout
    simp only [List.filterMap_cons, List.filterMap_nil, List.pairwise_cons, List.mem_singleton, forall_eq,
      List.not_mem_nil, false_imp_iff, implies_true, List.Pairwise.nil, and_true]
    simp only [Entry.InRange, Entry.vaddr, sampleEntry]
    omega
  · have hentry : sampleEntry 0x30 0xb8 "memcpy".toList ⟨by decide, by decide, by decide, by decide⟩ ∈
        entriesOf sampleLayout := List.mem_cons_of_mem _ List.mem_cons_self
    obtain ⟨d, hd, -⟩ := hresolves.inside _ hentry 0x80003130 ⟨by decide, by decide⟩
    rw [hnone] at hd
    exact absurd hd (Option.some_ne_none d).symm

end Lookups

end DolphinRe.SectionLayouts
