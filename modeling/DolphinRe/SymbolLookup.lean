import DolphinRe.MapSymbols

/-!
# What a symbol lookup answers

After any loads and clears the map represents the symbols of the last load that
succeeded. A lookup inspects one of them: the nearest start at or below the
address, of equal starts the smallest symbol, of equal sizes the last in the
file. It answers when that one contains the address.
-/

namespace DolphinRe.SymbolLookup

open PythonText GdbWire Bisection Dictionaries MapSymbols

section Runs

/-- A call that changes the map; a load comes with what reading the file gave. -/
inductive Call where
  | load (path : Str) (file : Except PyError Str)
  | clear

/-- The map after a call. -/
def after (maxStrDigits : ℕ) (m : SymbolMap) : Call → SymbolMap
  | .load path file => (m.load maxStrDigits path file).2
  | .clear => m.clear

/-- The map after calls in turn on a new one. -/
def reached (maxStrDigits : ℕ) (calls : List Call) : SymbolMap :=
  calls.foldl (after maxStrDigits) {}

/-- The symbols in force after a call, in file order. -/
def inForce (maxStrDigits : ℕ) (syms : List Symbol) : Call → List Symbol
  | .load _ (.ok text) => (parseText maxStrDigits text).1
  | .load _ (.error _) => syms
  | .clear => []

/-- The symbols in force after calls in turn. -/
def loaded (maxStrDigits : ℕ) (calls : List Call) : List Symbol :=
  calls.foldl (inForce maxStrDigits) []

/-- The three structures of a map agree with the symbols in force. -/
structure Represents (m : SymbolMap) (syms : List Symbol) : Prop where
  /-- The symbols are sorted. -/
  symbols : m.symbols = syms.insertionSort KeyLE
  /-- The start addresses are theirs. -/
  starts : m.sortedAddrs = m.symbols.map (·.addr)
  /-- The dictionary has the last one at each start. -/
  exact : m.exact = collect (m.symbols.map fun s => (s.addr, s)) []

theorem represents_empty : Represents {} [] := ⟨rfl, rfl, rfl⟩

theorem represents_after {maxStrDigits : ℕ} {m : SymbolMap} {syms : List Symbol}
    (h : Represents m syms) (call : Call) :
    Represents (after maxStrDigits m call) (inForce maxStrDigits syms call) := by
  cases call with
  | load path file =>
    cases file with
    | error e => exact h
    | ok text => exact ⟨rfl, rfl, rfl⟩
  | clear => exact represents_empty

/-- Every map in reach represents the symbols in force. -/
theorem represents_reached (maxStrDigits : ℕ) (calls : List Call) :
    Represents (reached maxStrDigits calls) (loaded maxStrDigits calls) := by
  have hrun : ∀ (calls : List Call) (m : SymbolMap) (syms : List Symbol),
      Represents m syms →
        Represents (calls.foldl (after maxStrDigits) m) (calls.foldl (inForce maxStrDigits) syms) := by
    intro calls
    induction calls with
    | nil => exact fun m syms h => h
    | cons call calls ih => exact fun m syms h => ih _ _ (represents_after h call)
  exact hrun calls {} [] represents_empty

end Runs

section Candidate

/-- A symbol covers an address; one without a size covers its start. -/
def Covers (sym : Symbol) (addr : ℤ) : Prop := sym.addr ≤ addr ∧ addr < sym.addr + max sym.size 1

instance (sym : Symbol) (addr : ℤ) : Decidable (Covers sym addr) := inferInstanceAs (Decidable (_ ∧ _))

/-- The nearest start at or below an address, and the smallest symbol there. -/
structure Nearest (syms : List Symbol) (addr : ℤ) (sym : Symbol) : Prop where
  /-- It is in force. -/
  mem : sym ∈ syms
  /-- It starts at or below the address. -/
  below : sym.addr ≤ addr
  /-- No other one starts between. -/
  greatest : ∀ other ∈ syms, other.addr ≤ addr → other.addr ≤ sym.addr
  /-- No other one with its start is smaller. -/
  smallest : ∀ other ∈ syms, other.addr = sym.addr → sym.size ≤ other.size

/-- The nearest symbol that is last in the file. -/
structure Chosen (syms : List Symbol) (addr : ℤ) (sym : Symbol) : Prop extends
    Nearest syms addr sym where
  /-- Behind it none has its start and its size. -/
  last : ∃ front back, syms = front ++ sym :: back ∧
    ∀ other ∈ back, ¬(other.addr = sym.addr ∧ other.size = sym.size)

/-- Equal start and size. -/
def sameKey (sym other : Symbol) : Bool := other.addr = sym.addr && other.size = sym.size

instance : Std.Total KeyLE where
  total a b := by
    unfold KeyLE
    omega

instance : IsTrans Symbol KeyLE where
  trans a b c hab hbc := by
    unfold KeyLE at hab hbc ⊢
    omega

variable {m : SymbolMap} {syms : List Symbol} {addr : ℤ}

theorem Represents.perm (h : Represents m syms) : m.symbols.Perm syms := by
  rw [h.symbols]
  exact List.perm_insertionSort KeyLE syms

theorem Represents.sorted (h : Represents m syms) : m.symbols.Pairwise KeyLE := by
  rw [h.symbols]
  exact List.pairwise_insertionSort KeyLE syms

theorem Represents.sorted_starts (h : Represents m syms) : m.sortedAddrs.Pairwise (· ≤ ·) := by
  rw [h.starts, List.pairwise_map]
  refine h.sorted.imp fun hle => ?_
  unfold KeyLE at hle
  omega

/-- The sort keeps symbols of one key in file order. -/
theorem Represents.filter_sameKey (h : Represents m syms) (sym : Symbol) :
    m.symbols.filter (sameKey sym) = syms.filter (sameKey sym) := by
  rw [h.symbols]
  refine filter_insertionSort (sameKey sym) (fun a b ha hb => ?_) syms
  unfold sameKey at ha hb
  rw [Bool.and_eq_true, decide_eq_true_eq, decide_eq_true_eq] at ha hb
  unfold KeyLE
  omega

/-- A symbol that is the last one to start at or below an address, in sorted order. -/
structure CutAt (m : SymbolMap) (addr : ℤ) (front : List Symbol) (sym : Symbol) (back : List Symbol) :
    Prop where
  /-- It stands there in the list. -/
  split : m.symbols = front ++ sym :: back
  /-- It starts at or below the address. -/
  below : sym.addr ≤ addr
  /-- Those behind it start above. -/
  above : ∀ other ∈ back, addr < other.addr

variable {front back : List Symbol} {sym : Symbol}

/-- What stands in front of the cut comes before it in key order. -/
theorem Represents.front_le (h : Represents m syms) (hcut : CutAt m addr front sym back) :
    ∀ other ∈ front, KeyLE other sym := by
  have hsorted := h.sorted
  rw [hcut.split, List.pairwise_append] at hsorted
  exact fun other hother => hsorted.2.2 other hother sym List.mem_cons_self

/-- Every symbol in force stands in front of the cut, at it, or behind it. -/
theorem Represents.cases_of_cut (h : Represents m syms) (hcut : CutAt m addr front sym back)
    {other : Symbol} (hother : other ∈ syms) : KeyLE other sym ∨ addr < other.addr := by
  have hsorted := h.perm.mem_iff.mpr hother
  rw [hcut.split, List.mem_append, List.mem_cons] at hsorted
  rcases hsorted with hfront | rfl | hback
  · exact Or.inl (h.front_le hcut other hfront)
  · exact Or.inl (Or.inr ⟨rfl, le_refl _⟩)
  · exact Or.inr (hcut.above other hback)

/-- The symbol at the cut is the nearest one. -/
theorem Represents.nearest_of_cut (h : Represents m syms) (hcut : CutAt m addr front sym back) :
    Nearest syms addr sym := by
  have hmem : sym ∈ m.symbols := by
    rw [hcut.split]
    exact List.mem_append_right front List.mem_cons_self
  have hbelow := hcut.below
  refine ⟨h.perm.mem_iff.mp hmem, hbelow, fun other hother hle => ?_, fun other hother heq => ?_⟩
  · rcases h.cases_of_cut hcut hother with hkey | habove
    · unfold KeyLE at hkey
      omega
    · omega
  · rcases h.cases_of_cut hcut hother with hkey | habove
    · unfold KeyLE at hkey
      omega
    · omega

/-- The symbol at the cut is the last in the file of its start and size. -/
theorem Represents.last_of_cut (h : Represents m syms) (hcut : CutAt m addr front sym back) :
    ∃ before behind, syms = before ++ sym :: behind ∧
      ∀ other ∈ behind, ¬(other.addr = sym.addr ∧ other.size = sym.size) := by
  have hbelow := hcut.below
  have hlater : back.filter (sameKey sym) = [] := by
    rw [List.filter_eq_nil_iff]
    intro other hother hkey
    have habove := hcut.above other hother
    unfold sameKey at hkey
    rw [Bool.and_eq_true, decide_eq_true_eq, decide_eq_true_eq] at hkey
    omega
  have hself : sameKey sym sym = true := by simp [sameKey]
  have hlast : (syms.filter (sameKey sym)).getLast? = some sym := by
    rw [← h.filter_sameKey sym, hcut.split, List.filter_append, List.filter_cons_of_pos hself, hlater,
      List.getLast?_append_cons, List.getLast?_singleton]
  obtain ⟨before, behind, hfile, hnone⟩ := exists_last_of_filter hlast
  refine ⟨before, behind, hfile, fun other hother hkey => ?_⟩
  have hfalse := hnone other hother
  simp [sameKey, hkey.1, hkey.2] at hfalse

theorem Represents.chosen_of_cut (h : Represents m syms) (hcut : CutAt m addr front sym back) :
    Chosen syms addr sym :=
  ⟨h.nearest_of_cut hcut, h.last_of_cut hcut⟩

/-- What the bisection of the starts finds. -/
theorem Represents.bisect (h : Represents m syms) (addr : ℤ) :
    (bisectRight m.sortedAddrs addr = 0 ∧ ∀ sym ∈ m.symbols, addr < sym.addr) ∨
      ∃ i front sym back, bisectRight m.sortedAddrs addr = i + 1 ∧ m.symbols[i]? = some sym ∧
        CutAt m addr front sym back := by
  have hcut := isCut_bisectRight h.sorted_starts addr
  cases hi : bisectRight m.sortedAddrs addr with
  | zero =>
    refine Or.inl ⟨rfl, fun sym hsym => ?_⟩
    rw [hi] at hcut
    refine hcut.back sym.addr ?_
    rw [List.drop_zero, h.starts]
    exact List.mem_map_of_mem hsym
  | succ i =>
    rw [hi] at hcut
    have hlength : m.sortedAddrs.length = m.symbols.length := by rw [h.starts, List.length_map]
    have hinside := hcut.inside
    have hlt : i < m.symbols.length := by omega
    have hget := List.getElem?_eq_getElem hlt
    refine Or.inr ⟨i, m.symbols.take i, m.symbols[i], m.symbols.drop (i + 1), rfl, hget,
      split_at hget, ?_, fun other hother => ?_⟩
    · refine hcut.front _ ?_
      rw [h.starts, ← List.map_take]
      refine List.mem_map_of_mem ?_
      rw [List.take_succ_eq_append_getElem hlt]
      exact List.mem_append_right _ (List.mem_singleton.mpr rfl)
    · refine hcut.back _ ?_
      rw [h.starts, ← List.map_drop]
      exact List.mem_map_of_mem hother

end Candidate

section Answers

/-- `SymbolMap.lookup` without the step that asks `_exact`. -/
def lookupWithoutExact (m : SymbolMap) (addr : ℤ) : Option Resolved :=
  if m.symbols = [] then none else m.bisected addr

variable {m : SymbolMap} {syms : List Symbol} {addr : ℤ}

theorem Represents.valueOf_exact (h : Represents m syms) (addr : ℤ) :
    valueOf addr m.exact = m.symbols.reverse.find? (·.addr = addr) := by
  rw [h.exact, valueOf_collect, ← List.map_reverse, valueOf_keyed]
  exact Option.or_none

/-- The dictionary has the symbol at the cut when it starts at the address. -/
theorem Represents.exact_of_cut (h : Represents m syms) {front back : List Symbol} {sym : Symbol}
    (hcut : CutAt m addr front sym back) :
    valueOf addr m.exact = if sym.addr = addr then some sym else none := by
  have hbelow := hcut.below
  have hlater : back.reverse.find? (·.addr = addr) = none := by
    rw [List.find?_eq_none]
    intro other hother
    have habove := hcut.above other (List.mem_reverse.mp hother)
    rw [decide_eq_true_eq]
    omega
  rw [h.valueOf_exact, hcut.split, List.reverse_append, List.reverse_cons, List.append_assoc,
    List.find?_append, hlater, Option.none_or, List.singleton_append, List.find?_cons]
  by_cases hstart : sym.addr = addr
  · simp [hstart]
  · have hfront : front.reverse.find? (·.addr = addr) = none := by
      rw [List.find?_eq_none]
      intro other hother
      have hkey := h.front_le hcut other (List.mem_reverse.mp hother)
      unfold KeyLE at hkey
      rw [decide_eq_true_eq]
      omega
    simp [hstart, hfront]

theorem Represents.exact_of_above (h : Represents m syms) (habove : ∀ sym ∈ m.symbols, addr < sym.addr) :
    valueOf addr m.exact = none := by
  rw [h.valueOf_exact, List.find?_eq_none]
  intro sym hsym
  have hgreater := habove sym (List.mem_reverse.mp hsym)
  rw [decide_eq_true_eq]
  omega

/-- The test of the code is that the symbol covers the address. -/
theorem bisected_of_cut {i : ℕ} {sym : Symbol} (hi : bisectRight m.sortedAddrs addr = i + 1)
    (hget : m.symbols[i]? = some sym) :
    m.bisected addr = if Covers sym addr then some (toLookupDict addr sym) else none := by
  have hsize : (if 0 < sym.size then sym.size else 1) = max sym.size 1 := by
    split_ifs
    · omega
    · omega
  unfold SymbolMap.bisected
  rw [hi]
  dsimp only
  rw [hget]
  dsimp only
  rw [hsize]
  unfold Covers
  congr 1

/-- A symbol covers its start. -/
theorem covers_start (sym : Symbol) : Covers sym sym.addr := by
  constructor
  · omega
  · omega

/-- Both lookups answer with the symbol at the cut when it covers the address. -/
theorem Represents.lookups (h : Represents m syms) (addr : ℤ) :
    m.lookup addr = lookupWithoutExact m addr ∧
      ((lookupWithoutExact m addr = none ∧ ∀ sym ∈ syms, addr < sym.addr) ∨
        ∃ sym, Chosen syms addr sym ∧ lookupWithoutExact m addr =
          if Covers sym addr then some (toLookupDict addr sym) else none) := by
  unfold SymbolMap.lookup lookupWithoutExact
  obtain ⟨hzero, habove⟩ | ⟨i, front, sym, back, hi, hget, hcut⟩ := h.bisect addr
  · have hbisected : m.bisected addr = none := by
      unfold SymbolMap.bisected
      rw [hzero]
    rw [h.exact_of_above habove, hbisected]
    refine ⟨rfl, Or.inl ⟨by simp, fun sym hsym => ?_⟩⟩
    exact habove sym (h.perm.mem_iff.mpr hsym)
  · have hne : m.symbols ≠ [] := by
      rw [hcut.split]
      exact List.append_ne_nil_of_right_ne_nil front (List.cons_ne_nil sym back)
    have hbisected := bisected_of_cut hi hget
    rw [if_neg hne, if_neg hne, h.exact_of_cut hcut, hbisected]
    refine ⟨?_, Or.inr ⟨sym, h.chosen_of_cut hcut, rfl⟩⟩
    by_cases hstart : sym.addr = addr
    · have hcovers : Covers sym addr := hstart ▸ covers_start sym
      rw [if_pos hstart, if_pos hcovers]
    · rw [if_neg hstart]

/-- Whatever the loads and clears before it, a lookup without the dictionary step answers the
same, and an answer is the symbol chosen among those in force, which covers the address. -/
theorem lookup_chooses (maxStrDigits : ℕ) (calls : List Call) (addr : ℤ) :
    (reached maxStrDigits calls).lookup addr = lookupWithoutExact (reached maxStrDigits calls) addr ∧
      ∀ d, (reached maxStrDigits calls).lookup addr = some d →
        ∃ sym, Chosen (loaded maxStrDigits calls) addr sym ∧ Covers sym addr ∧
          d = toLookupDict addr sym := by
  obtain ⟨hsame, hanswer⟩ := (represents_reached maxStrDigits calls).lookups addr
  refine ⟨hsame, fun d hd => ?_⟩
  rw [hsame] at hd
  obtain ⟨hnone, -⟩ | ⟨sym, hchosen, hlookup⟩ := hanswer
  · rw [hnone] at hd
    exact absurd hd (Option.some_ne_none d).symm
  · rw [hlookup] at hd
    split_ifs at hd with hcovers
    exact ⟨sym, hchosen, hcovers, (Option.some.inj hd).symm⟩

end Answers

section Completeness

/-- A lookup answers exactly on the addresses some symbol covers, and names such a symbol. -/
def Complete (m : SymbolMap) (syms : List Symbol) (addr : ℤ) : Prop :=
  ((m.lookup addr).isSome = true ↔ ∃ sym ∈ syms, Covers sym addr) ∧
    ∀ d, m.lookup addr = some d → ∃ sym ∈ syms, Covers sym addr ∧ d = toLookupDict addr sym

variable {syms : List Symbol} {addr : ℤ}

/-- Nearest symbols agree in what they cover. -/
theorem Nearest.covers_iff {a b : Symbol} (ha : Nearest syms addr a) (hb : Nearest syms addr b) :
    Covers a addr ↔ Covers b addr := by
  have hstart : a.addr = b.addr :=
    le_antisymm (hb.greatest a ha.mem ha.below) (ha.greatest b hb.mem hb.below)
  have hsize : a.size = b.size :=
    le_antisymm (ha.smallest b hb.mem hstart.symm) (hb.smallest a ha.mem hstart)
  unfold Covers
  rw [hstart, hsize]

/-- A lookup is complete at an address exactly when a symbol that covers it, if there is one,
leaves it covered by the nearest symbol. -/
theorem complete_iff (maxStrDigits : ℕ) (calls : List Call) (addr : ℤ) :
    Complete (reached maxStrDigits calls) (loaded maxStrDigits calls) addr ↔
      ((∃ sym ∈ loaded maxStrDigits calls, Covers sym addr) →
        ∃ sym, Nearest (loaded maxStrDigits calls) addr sym ∧ Covers sym addr) := by
  obtain ⟨hsame, hanswer⟩ := (represents_reached maxStrDigits calls).lookups addr
  unfold Complete
  rw [hsame]
  obtain ⟨hnone, habove⟩ | ⟨sym, hchosen, hlookup⟩ := hanswer
  · have huncovered : ¬∃ sym ∈ loaded maxStrDigits calls, Covers sym addr := by
      rintro ⟨sym, hsym, hcovers⟩
      have hgreater := habove sym hsym
      have hbelow := hcovers.1
      omega
    rw [hnone]
    constructor
    · exact fun _ hsome => absurd hsome huncovered
    · intro _
      constructor
      · simp [huncovered]
      · exact fun d hd => absurd hd (Option.some_ne_none d).symm
  · have hmem := hchosen.mem
    rw [hlookup]
    by_cases hcovers : Covers sym addr
    · rw [if_pos hcovers]
      constructor
      · exact fun _ _ => ⟨sym, hchosen.toNearest, hcovers⟩
      · intro _
        constructor
        · exact iff_of_true rfl ⟨sym, hmem, hcovers⟩
        · exact fun d hd => ⟨sym, hmem, hcovers, (Option.some.inj hd).symm⟩
    · rw [if_neg hcovers]
      constructor
      · intro hcomplete hsome
        exact absurd (hcomplete.1.mpr hsome) Bool.false_ne_true
      · intro hnear
        constructor
        · refine iff_of_false Bool.false_ne_true fun hsome => ?_
          obtain ⟨near, hnearest, hnearCovers⟩ := hnear hsome
          exact hcovers ((hchosen.toNearest.covers_iff hnearest).mpr hnearCovers)
        · exact fun d hd => absurd hd (Option.some_ne_none d).symm

/-- A map with a symbol inside another one. -/
def nestedMap : Str :=
  "  00001000 000100 00001000  4 outer \tGlobal\n  00001010 000004 00001010  4 inner \tGlobal\n".toList

/-- Behind the inner symbol the outer one is not found. -/
theorem outer_is_missed :
    ¬Complete (reached 4300 [.load "nested.map".toList (.ok nestedMap)])
      (loaded 4300 [.load "nested.map".toList (.ok nestedMap)]) 0x1050 := by
  intro h
  have hloaded : loaded 4300 [.load "nested.map".toList (.ok nestedMap)] =
      [⟨0x1000, 0x100, "outer".toList⟩, ⟨0x1010, 4, "inner".toList⟩] := by decide +kernel
  have hnone : (reached 4300 [.load "nested.map".toList (.ok nestedMap)]).lookup 0x1050 = none := by
    decide +kernel
  have hcovers : Covers ⟨0x1000, 0x100, "outer".toList⟩ 0x1050 := by decide
  have hsome := h.1.mpr ⟨_, by rw [hloaded]; exact List.mem_cons_self, hcovers⟩
  rw [hnone] at hsome
  exact absurd hsome Bool.false_ne_true

end Completeness

end DolphinRe.SymbolLookup
