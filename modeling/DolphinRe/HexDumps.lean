import Mathlib.Algebra.Group.Int.Defs
import Mathlib.Algebra.Group.Nat.Defs
import DolphinRe.HostedMemory
import DolphinRe.MemoryPackets
import DolphinRe.Slices

/-!
# Lines of a memory dump

A dump shows a label, a column of digits in groups of four bytes and a column of
characters for every row. The digit column is padded to a width computed apart
from the joining of the groups: it leaves one blank between groups where the
joining puts two.
-/

namespace DolphinRe.HexDumps

open PythonText GdbPackets GdbTokens EffectProgram SessionMachine GdbClient SessionTools MemoryPackets
  LinkRefinement StubBehaviour ToolStructure MemoryWindows MemoryBackends MemoryTools HostedMemory Slices

variable {τ N L C W : Type}

section Dumping

/-- A line of a dump in its parts. -/
structure Row where
  /-- The address of the first byte. -/
  label : Str
  /-- The bytes in hexadecimal, with blanks between them. -/
  hexColumn : Str
  /-- The bytes as characters. -/
  asciiColumn : Str
  deriving DecidableEq, Repr

/-- The text of a line. -/
def Row.line (row : Row) : Str :=
  row.label ++ (": ".toList ++ (row.hexColumn ++ ("  ".toList ++ row.asciiColumn)))

/-- The position of the character column. -/
def Row.asciiStart (row : Row) : ℕ := row.label.length + 2 + row.hexColumn.length + 2

/-- `chr(b) if 32 <= b < 127 else "."`. -/
def printable (b : UInt8) : Char := if 32 ≤ b.toNat ∧ b.toNat < 127 then Char.ofNat b.toNat else '.'

/-- `f"0x{addr:08x}"`. -/
def formatLabel (addr : ℤ) : Str := "0x".toList ++ formatHex8 addr

/-- The digits of a row, before padding. -/
def joinGroups (row : List UInt8) : Str :=
  "  ".toList.intercalate ((rangeStep row.length 4).map fun g => toHex (slice row g 4))

/-- One turn of the loop of `dump_hex`. -/
def dumpRow (addr : ℤ) (width off : ℕ) (row : List UInt8) : Row where
  label := formatLabel (addr + off)
  hexColumn := List.rightpad (width * 2 + (width / 4 - 1) * 1) ' ' (joinGroups row)
  asciiColumn := row.map printable

/-- The loop of `dump_hex`. -/
def dumpRows (addr : ℤ) (size width : ℕ) (blob : List UInt8) : List Row :=
  (rangeStep size width).map fun off => dumpRow addr width off (slice blob off width)

/-- What `dump_hex` returns. -/
structure HexDump where
  /-- The first address, in hexadecimal. -/
  addr : Str
  /-- Number of bytes asked for. -/
  size : ℤ
  /-- The rows as text. -/
  lines : List Str
  /-- All bytes in hexadecimal. -/
  hex : Str
  deriving DecidableEq, Repr

/-- `dump_hex`. -/
def dumpHex (read : Reader τ) (addr size width : ℤ) : Code τ HexDump := do
  if size ≤ 0 then pure ⟨formatLabel addr, 0, [], []⟩
  else if 4096 < size then
    throwing (.valueError ("dump_hex size " ++ toString size ++ " exceeds 4096-byte safety cap"))
  else if width < 4 ∨ width % 4 ≠ 0 then
    throwing (.valueError ("width must be a positive multiple of 4; got " ++ toString width))
  else
    let blob ← read addr size
    pure ⟨formatLabel addr, size, (dumpRows addr size.toNat width.toNat blob).map Row.line, toHex blob⟩

end Dumping

section Columns

variable {addr : ℤ} {size width : ℕ} {blob : List UInt8}

/-- The rows show the bytes under the labels of their addresses. -/
structure Faithful (addr : ℤ) (width : ℕ) (blob : List UInt8) (rows : List Row) : Prop where
  /-- The hexadecimal columns together show all the bytes. -/
  hex : (rows.flatMap fun row => row.hexColumn.filter (· ≠ ' ')) = toHex blob
  /-- The labels are the addresses of the rows. -/
  labels : rows.map Row.label = (List.range rows.length).map fun i => formatLabel (addr + (i * width : ℕ))
  /-- Each character column shows the bytes of its row. -/
  ascii : rows.map Row.asciiColumn = (rangeStep blob.length width).map fun off => (slice blob off width).map printable

/-- The character columns stand under each other. -/
def AsciiAligned (rows : List Row) : Prop := ∀ row ∈ rows, ∀ other ∈ rows, row.asciiStart = other.asciiStart

theorem toHex_flatMap {ι : Type} (parts : List ι) (f : ι → List UInt8) :
    toHex (parts.flatMap f) = parts.flatMap fun i => toHex (f i) :=
  List.flatMap_assoc

theorem length_toHex (blob : List UInt8) : (toHex blob).length = 2 * blob.length := by
  induction blob with
  | nil => rfl
  | cons b blob ih =>
    have hcons : toHex (b :: blob) = hexByte b.toNat ++ toHex blob := rfl
    rw [hcons, List.length_append, ih, List.length_cons]
    have hpair : (hexByte b.toNat).length = 2 := rfl
    omega

/-- Digits are not blanks. -/
theorem filter_toHex (blob : List UInt8) : (toHex blob).filter (· ≠ ' ') = toHex blob := by
  have hdigit : ∀ d < 16, Nat.digitChar d ≠ ' ' := by decide
  have hplain : ∀ c ∈ toHex blob, c ≠ ' ' := forall_toHex hdigit blob
  rw [List.filter_eq_self]
  exact fun c hc => decide_eq_true (hplain c hc)

/-- Without blanks the groups of a row are its bytes. -/
theorem filter_joinGroups (row : List UInt8) : (joinGroups row).filter (· ≠ ' ') = toHex row := by
  have hsep : "  ".toList.filter (· ≠ ' ') = [] := by decide
  have hgroups := flatMap_slice (by omega : 0 < 4) (Nat.le_refl row.length)
  unfold joinGroups
  rw [filter_intercalate hsep, List.flatMap_map]
  simp only [filter_toHex]
  rw [← toHex_flatMap, hgroups]

/-- Two digits for every byte and two blanks between groups. -/
theorem length_joinGroups (row : List UInt8) :
    (joinGroups row).length = 2 * row.length + ((row.length + 3) / 4 - 1) * 2 := by
  have hgroups := flatMap_slice (by omega : 0 < 4) (Nat.le_refl row.length)
  have hflat : ((rangeStep row.length 4).map fun g => toHex (slice row g 4)).flatten = toHex row := by
    rw [← List.flatMap_def, ← toHex_flatMap, hgroups]
  have hsep : "  ".toList.length = 2 := rfl
  unfold joinGroups
  rw [length_intercalate, hflat, length_toHex, List.length_map, length_rangeStep, hsep]
  rfl

/-- The dumped rows are faithful for every width. -/
theorem faithful_dumpRows (hwidth : 0 < width) (hblob : blob.length = size) (addr : ℤ) :
    Faithful addr width blob (dumpRows addr size width blob) where
  hex := by
    have hcolumn : ∀ off, (dumpRow addr width off (slice blob off width)).hexColumn.filter (· ≠ ' ') =
        toHex (slice blob off width) := by
      intro off
      have hpad : ∀ n, (List.replicate n ' ').filter (· ≠ ' ') = [] := by
        intro n
        rw [List.filter_eq_nil_iff]
        intro c hc
        rw [List.eq_of_mem_replicate hc]
        decide
      rw [dumpRow, List.rightpad, List.filter_append, filter_joinGroups, hpad, List.append_nil]
    unfold dumpRows
    rw [List.flatMap_map]
    simp only [hcolumn]
    rw [← toHex_flatMap, flatMap_slice hwidth (Nat.le_of_eq hblob)]
  labels := by
    unfold dumpRows
    rw [List.length_map, length_rangeStep, List.map_map, rangeStep, List.map_map]
    rfl
  ascii := by
    unfold dumpRows
    rw [List.map_map, hblob]
    rfl

/-- Eight digits are enough for a label. -/
theorem length_formatLabel (hlow : 0 ≤ addr) (hhigh : addr < 2 ^ 32) : (formatLabel addr).length = 10 := by
  have hpositive : ¬addr < 0 := by omega
  have hdigits : (hexDigits addr.natAbs).length ≤ 8 := by
    unfold hexDigits
    rw [Nat.length_toDigits_le_iff (by omega) (by omega)]
    omega
  have hmark : "0x".toList.length = 2 := rfl
  rw [formatLabel, formatHex8, if_neg hpositive, List.length_append, hmark, List.length_leftpad]
  omega

/-- Where the character column of a row of so many bytes starts. -/
def columnStart (width count : ℕ) : ℕ :=
  14 + max (width * 2 + (width / 4 - 1)) (2 * count + ((count + 3) / 4 - 1) * 2)

theorem asciiStart_dumpRow {off : ℕ} {row : List UInt8} (hlow : 0 ≤ addr) (hhigh : addr + off < 2 ^ 32) :
    (dumpRow addr width off row).asciiStart = columnStart width row.length := by
  have hlabel : (formatLabel (addr + off)).length = 10 := length_formatLabel (by omega) hhigh
  unfold Row.asciiStart dumpRow columnStart
  dsimp only
  rw [hlabel, List.length_rightpad, length_joinGroups, Nat.mul_one]
  omega

/-- The character columns are aligned when they start at the same place for the lengths of all rows. -/
theorem aligned_iff_starts (hwidth : 0 < width) (hblob : blob.length = size) (hlow : 0 ≤ addr)
    (hhigh : addr + size ≤ 2 ^ 32) :
    AsciiAligned (dumpRows addr size width blob) ↔ ∀ off ∈ rangeStep size width,
      ∀ other ∈ rangeStep size width, columnStart width (min width (size - off)) =
        columnStart width (min width (size - other)) := by
  have hstart : ∀ off ∈ rangeStep size width, (dumpRow addr width off (slice blob off width)).asciiStart =
      columnStart width (min width (size - off)) := by
    intro off hoff
    have hlt := ((mem_rangeStep hwidth).mp hoff).1
    rw [asciiStart_dumpRow hlow (by omega), length_slice, hblob]
  unfold AsciiAligned dumpRows
  simp only [List.forall_mem_map]
  constructor
  · intro h off hoff other hother
    rw [← hstart off hoff, ← hstart other hother]
    exact h off hoff other hother
  · intro h off hoff other hother
    rw [hstart off hoff, hstart other hother]
    exact h off hoff other hother

/-- The last of several rows is shorter unless the rows fill the dump. -/
theorem partial_row (hwidth : 0 < width) (hremainder : size % width ≠ 0) :
    ∃ off ∈ rangeStep size width, min width (size - off) = size % width ∧ size % width < width := by
  have hdiv := Nat.div_add_mod size width
  have hmod := Nat.mod_lt size hwidth
  refine ⟨width * (size / width), (mem_rangeStep hwidth).mpr ⟨by omega, Nat.dvd_mul_right _ _⟩, by omega, hmod⟩

/-- The character columns of the dumped rows are aligned exactly when there is no shorter row below a
full one, or no gap between groups. -/
theorem aligned_dumpRows_iff (hwidth : 0 < width) (hfour : 4 ∣ width) (hsize : 0 < size)
    (hblob : blob.length = size) (hlow : 0 ≤ addr) (hhigh : addr + size ≤ 2 ^ 32) :
    AsciiAligned (dumpRows addr size width blob) ↔ width = 4 ∨ size ≤ width ∨ width ∣ size := by
  rw [aligned_iff_starts hwidth hblob hlow hhigh]
  obtain ⟨k, rfl⟩ := hfour
  constructor
  · intro h
    by_contra hnot
    rw [not_or, not_or, Nat.dvd_iff_mod_eq_zero] at hnot
    obtain ⟨hwide, hlong, hremainder⟩ := hnot
    have hfirst : 0 ∈ rangeStep size (4 * k) := (mem_rangeStep hwidth).mpr ⟨hsize, Nat.dvd_zero _⟩
    have hfull : min (4 * k) (size - 0) = 4 * k := by omega
    obtain ⟨off, hlast, hrest, hshort⟩ := partial_row hwidth hremainder
    have hsame := h 0 hfirst off hlast
    rw [hfull, hrest] at hsame
    unfold columnStart at hsame
    omega
  · rintro (hsmall | hone | hfull) off hoff other hother
    · obtain ⟨hlt, -⟩ := (mem_rangeStep hwidth).mp hoff
      obtain ⟨hlt', -⟩ := (mem_rangeStep hwidth).mp hother
      rw [hsmall]
      unfold columnStart
      omega
    · have hzero : ∀ off ∈ rangeStep size (4 * k), off = 0 := by
        intro off hoff
        obtain ⟨hlt, hdvd⟩ := (mem_rangeStep hwidth).mp hoff
        exact Nat.eq_zero_of_dvd_of_lt hdvd (by omega)
      rw [hzero off hoff, hzero other hother]
    · have hwhole : ∀ off ∈ rangeStep size (4 * k), min (4 * k) (size - off) = 4 * k := by
        intro off hoff
        obtain ⟨hlt, hdvd⟩ := (mem_rangeStep hwidth).mp hoff
        have hrest : 4 * k ∣ size - off := Nat.dvd_sub hfull hdvd
        have hle := Nat.le_of_dvd (by omega) hrest
        omega
      rw [hwhole off hoff, hwhole other hother]

/-- The lines and the lengths of the rows determine where the character columns start. -/
theorem map_asciiStart (rows : List Row) : rows.map Row.asciiStart =
    List.zipWith (fun line column => line.length - column.length) (rows.map Row.line)
      (rows.map Row.asciiColumn) := by
  rw [List.zipWith_map, List.zipWith_self]
  refine List.map_congr_left fun row _ => ?_
  have hcolon : ": ".toList.length = 2 := rfl
  have hblanks : "  ".toList.length = 2 := rfl
  simp only [Row.asciiStart, Row.line, List.length_append, hcolon, hblanks]
  omega

theorem AsciiAligned.of_starts {rows others : List Row} (h : AsciiAligned rows)
    (hstarts : rows.map Row.asciiStart = others.map Row.asciiStart) : AsciiAligned others := by
  have hall : ∀ a ∈ rows.map Row.asciiStart, ∀ b ∈ rows.map Row.asciiStart, a = b := by
    simp only [List.forall_mem_map]
    exact h
  rw [hstarts] at hall
  simp only [List.forall_mem_map] at hall
  exact hall

/-- However the lines are taken apart, their columns are aligned under the same condition. -/
theorem shown_aligned_iff (hwidth : 0 < width) (hfour : 4 ∣ width) (hsize : 0 < size)
    (hblob : blob.length = size) (hlow : 0 ≤ addr) (hhigh : addr + size ≤ 2 ^ 32) :
    (∃ rows : List Row, (dumpRows addr size width blob).map Row.line = rows.map Row.line ∧
      Faithful addr width blob rows ∧ AsciiAligned rows) ↔ width = 4 ∨ size ≤ width ∨ width ∣ size := by
  have hfaithful := faithful_dumpRows hwidth hblob addr
  rw [← aligned_dumpRows_iff hwidth hfour hsize hblob hlow hhigh]
  constructor
  · rintro ⟨rows, hlines, hrows, haligned⟩
    have hstarts : rows.map Row.asciiStart = (dumpRows addr size width blob).map Row.asciiStart := by
      rw [map_asciiStart, map_asciiStart, hlines, hrows.ascii, hfaithful.ascii]
    exact haligned.of_starts hstarts
  · intro haligned
    exact ⟨_, rfl, hfaithful, haligned⟩

end Columns

section Runs

variable {M : Machine (signature τ) C W} {I : W → Prop} {memory : ℤ → UInt8} {read : Reader τ} {region : Region}
  {addr size width : ℤ} {w : W}

/-- A dump is made of the bytes of the range. -/
theorem wp_dumpHex (hserving : Serving M I memory read) (hspans : Spans region addr size)
    (hsize : size ≤ 4096) (hwidth : 0 < width) (hfour : 4 ∣ width) (hw : I w) :
    (dumpHex read addr size width).wp M (fun r _ => ∃ dump : HexDump, r = .ok dump ∧
      dump.lines = (dumpRows addr size.toNat width.toNat (window memory addr size.toNat)).map Row.line) w := by
  have hpositive := hspans.positive
  have hsome : ¬size ≤ 0 := by omega
  have hcap : ¬4096 < size := by omega
  have hgroups : ¬(width < 4 ∨ width % 4 ≠ 0) := by omega
  unfold dumpHex
  rw [if_neg hsome, if_neg hcap, if_neg hgroups, Program.bind_eq, Program.wp_bind]
  refine Program.wp_mono ?_ (hserving region addr size w hspans hw)
  rintro r v ⟨rfl, -⟩
  exact ⟨_, rfl, rfl⟩

/-- The lines of a dump show the bytes of the range under their labels, and their character columns are
aligned exactly for a width of one group, a single row or a last row that is full. -/
theorem dump_hex_columns (hserving : Serving M I memory read) (hspans : Spans region addr size)
    (hsize : size ≤ 4096) (hwidth : 0 < width) (hfour : 4 ∣ width) (hw : I w) :
    (dumpHex read addr size width).wp M (fun r _ => ∃ dump : HexDump, r = .ok dump ∧
      (∃ rows : List Row, dump.lines = rows.map Row.line ∧
        Faithful addr width.toNat (window memory addr size.toNat) rows) ∧
      ((∃ rows : List Row, dump.lines = rows.map Row.line ∧
        Faithful addr width.toNat (window memory addr size.toNat) rows ∧ AsciiAligned rows) ↔
          width = 4 ∨ size ≤ width ∨ width ∣ size)) w := by
  have hlow := hspans.nonneg
  have hsome := hspans.positive
  have hhigh : addr + size ≤ 2 ^ 32 := by
    have hbelow := hspans.below
    cases region with
    | mem1 =>
      simp only [base, length, MEM1_BASE] at hbelow
      omega
    | mem2 =>
      simp only [base, length, MEM2_BASE] at hbelow
      omega
  have hnat : ((size.toNat : ℕ) : ℤ) = size := by omega
  have hwide : ((width.toNat : ℕ) : ℤ) = width := by omega
  have hcondition : (width.toNat = 4 ∨ size.toNat ≤ width.toNat ∨ width.toNat ∣ size.toNat) ↔
      (width = 4 ∨ size ≤ width ∨ width ∣ size) := by
    rw [← Int.natCast_dvd_natCast, hnat, hwide]
    omega
  have hlength : (window memory addr size.toNat).length = size.toNat := length_window _ _ _
  have haligned := @shown_aligned_iff addr size.toNat width.toNat (window memory addr size.toNat) (by omega)
    (by omega) (by omega) hlength hlow (by omega)
  refine Program.wp_mono ?_ (wp_dumpHex hserving hspans hsize hwidth hfour hw)
  rintro r v ⟨dump, rfl, hlines⟩
  refine ⟨dump, rfl, ?_, ?_⟩
  · rw [hlines]
    exact ⟨_, rfl, faithful_dumpRows (by omega) hlength addr⟩
  · rw [hlines, haligned, hcondition]

/-- Two full rows of MEM2. -/
theorem dump_hex_columns_full : ∃ r v, (dumpHex readMemory 0x90000000 32 16).Reaches
      (disciplined (tokenLink Origin) (Hosts fun a => UInt8.ofNat a.toNat)) attachedWorld r v ∧
    ∃ dump : HexDump, r = .ok dump ∧ ∃ rows : List Row, dump.lines = rows.map Row.line ∧
      Faithful 0x90000000 16 (window (fun a => UInt8.ofNat a.toNat) 0x90000000 32) rows ∧ AsciiAligned rows := by
  obtain ⟨r, v, hdump⟩ := exists_hosted (tokenLink Origin) (fun a => UInt8.ofNat a.toNat)
    (dumpHex readMemory 0x90000000 32 16) attachedWorld
  have hattached : Attached attachedWorld := ⟨by decide, rfl⟩
  have hspans : Spans .mem2 0x90000000 32 := ⟨by decide, by decide, by decide⟩
  obtain ⟨dump, hr, -, haligned⟩ := Program.reaches_of_wp (dump_hex_columns (serving_hosts _ _) hspans
    (by decide) (by decide) (by decide) hattached) hdump
  exact ⟨r, v, hdump, dump, hr, haligned.mpr (Or.inr (Or.inr (by decide)))⟩

/-- A full row of four groups above a row of one group. -/
theorem partial_row_is_misaligned : ∃ r v, (dumpHex readMemory 0x80000000 20 16).Reaches
      (disciplined (tokenLink Origin) (Hosts fun _ => 65)) attachedWorld r v ∧
    ∃ dump : HexDump, r = .ok dump ∧ ¬∃ rows : List Row, dump.lines = rows.map Row.line ∧
      Faithful 0x80000000 16 (window (fun _ => 65) 0x80000000 20) rows ∧ AsciiAligned rows := by
  obtain ⟨r, v, hdump⟩ := exists_hosted (tokenLink Origin) (fun _ => 65) (dumpHex readMemory 0x80000000 20 16)
    attachedWorld
  have hattached : Attached attachedWorld := ⟨by decide, rfl⟩
  have hspans : Spans .mem1 0x80000000 20 := ⟨by decide, by decide, by decide⟩
  obtain ⟨dump, hr, hlines⟩ := Program.reaches_of_wp (wp_dumpHex (serving_hosts _ _) hspans
    (by decide) (by decide) (by decide) hattached) hdump
  refine ⟨r, v, hdump, dump, hr, ?_⟩
  have haligned := @shown_aligned_iff 0x80000000 20 16 (window (fun _ => 65) 0x80000000 20) (by decide)
    (by decide) (by decide) (length_window _ _ _) (by decide) (by decide)
  rw [hlines]
  exact fun hshown => absurd (haligned.mp hshown) (by decide)

end Runs

end DolphinRe.HexDumps
