import DolphinRe.Bisection
import DolphinRe.Dictionaries
import DolphinRe.GdbWire
import DolphinRe.PythonLines

/-!
# The symbol map

A linker map is parsed line by line into symbols, which are kept sorted by
start with the larger of two equal starts first. An address is looked up in a
dictionary of the starts, then by bisection of the sorted starts.
-/

namespace DolphinRe.MapSymbols

open PythonText PythonLines Bisection Dictionaries GdbWire

/-- `Symbol`. -/
structure Symbol where
  /-- Its first address. -/
  addr : ℤ
  /-- Number of bytes, or zero. -/
  size : ℤ
  /-- Its name. -/
  name : Str
  deriving DecidableEq

section Parsing

/-- Words that may follow a name without a tab. -/
def sectionWords : List Str :=
  ["Global".toList, "Local".toList, "Weak".toList, "Common".toList]

/-- The name in what follows the alignment. -/
def nameColumn (rest : Str) : Str :=
  if '\t' ∈ rest then strip (rest.takeWhile (· ≠ '\t'))
  else match rsplitWord rest with
    | [front, last] => if last ∈ sectionWords then strip front else strip rest
    | _ => strip rest

/-- `_parse_line`; `int(align_s)` is subject to the interpreter's digit limit. -/
def parseLine (maxStrDigits : ℕ) (line : Str) : Option Symbol :=
  match splitWords 4 line with
  | [addrS, sizeS, _, alignS, rest] =>
    match parseHexInt addrS, parseHexInt sizeS, parseDecInt maxStrDigits alignS with
    | some addr, some size, some _ =>
      if nameColumn rest = [] then none else some ⟨addr, size, nameColumn rest⟩
    | _, _, _ => none
  | _ => none

/-- Section headers and separators. -/
def isHeading (line : Str) : Bool :=
  "---".toList.isPrefixOf line || "Starting".toList.isPrefixOf line ||
    "section layout".toList.isSuffixOf line

/-- The state of the parsing loop. -/
structure Parsed where
  /-- The symbols kept. -/
  syms : List Symbol := []
  /-- Number of lines that are no symbols. -/
  skipped : ℕ := 0
  /-- Addresses and names of the symbols kept. -/
  seen : List (ℤ × Str) := []
  deriving DecidableEq

/-- One turn of the parsing loop. -/
def parseRaw (maxStrDigits : ℕ) (st : Parsed) (raw : Str) : Parsed :=
  let line := strip raw
  if line = [] then st
  else if isHeading line then st
  else match parseLine maxStrDigits line with
    | none => {st with skipped := st.skipped + 1}
    | some sym =>
      if (sym.addr, sym.name) ∈ st.seen then st
      else {st with seen := st.seen ++ [(sym.addr, sym.name)], syms := st.syms ++ [sym]}

/-- `_parse_text`. -/
def parseText (maxStrDigits : ℕ) (text : Str) : List Symbol × ℕ :=
  let st := (splitlines text).foldl (parseRaw maxStrDigits) {}
  (st.syms, st.skipped)

end Parsing

/-- The order of the sort key `(addr, -size)`. -/
def KeyLE (a b : Symbol) : Prop := a.addr < b.addr ∨ a.addr = b.addr ∧ -a.size ≤ -b.size

instance : DecidableRel KeyLE := fun _ _ => inferInstanceAs (Decidable (_ ∨ _))

/-- `SymbolMap`. -/
structure SymbolMap where
  /-- Start addresses of the sorted symbols. -/
  sortedAddrs : List ℤ := []
  /-- The symbols, sorted by address and size. -/
  symbols : List Symbol := []
  /-- The last symbol at each start address. -/
  exact : List (ℤ × Symbol) := []
  /-- The file that has been loaded. -/
  path : Option Str := none
  /-- Number of its lines that are no symbols. -/
  skipped : ℕ := 0

/-- `SymbolMap.load`, given what reading and decoding the file gave. -/
def SymbolMap.load (maxStrDigits : ℕ) (path : Str) (file : Except PyError Str) (m : SymbolMap) :
    Except PyError ℕ × SymbolMap :=
  match file with
  | .error e => (.error e, m)
  | .ok text =>
    let (syms, skipped) := parseText maxStrDigits text
    let syms := syms.insertionSort KeyLE
    (.ok syms.length,
      {symbols := syms
       sortedAddrs := syms.map (·.addr)
       exact := collect (syms.map fun s => (s.addr, s)) []
       path := some path
       skipped := skipped})

/-- `SymbolMap.clear`. -/
def SymbolMap.clear (_ : SymbolMap) : SymbolMap := {}

/-- What a lookup answers. -/
structure Resolved where
  /-- The address looked up, in hexadecimal. -/
  address : Str
  /-- Name of the symbol. -/
  name : Str
  /-- Its first address, in hexadecimal. -/
  symbolAddress : Str
  /-- Distance from there, in hexadecimal. -/
  offsetInSymbol : Str
  /-- The name, with the distance if there is one. -/
  display : Str
  deriving DecidableEq

/-- `_to_lookup_dict`. -/
def toLookupDict (addr : ℤ) (sym : Symbol) : Resolved :=
  let off := addr - sym.addr
  {address := "0x".toList ++ formatHex8 addr
   name := sym.name
   symbolAddress := "0x".toList ++ formatHex8 sym.addr
   offsetInSymbol := "0x".toList ++ formatHex off
   display := if off = 0 then sym.name else sym.name ++ "+0x".toList ++ formatHex off}

/-- The bisecting part of `SymbolMap.lookup`. -/
def SymbolMap.bisected (m : SymbolMap) (addr : ℤ) : Option Resolved :=
  match bisectRight m.sortedAddrs addr with
  | 0 => none
  | i + 1 =>
    match m.symbols[i]? with
    | some sym =>
      if sym.addr ≤ addr ∧ addr < sym.addr + (if 0 < sym.size then sym.size else 1) then
        some (toLookupDict addr sym)
      else none
    -- not reached: the two lists are parallel
    | none => none

/-- `SymbolMap.lookup`. -/
def SymbolMap.lookup (m : SymbolMap) (addr : ℤ) : Option Resolved :=
  if m.symbols = [] then none
  else match valueOf addr m.exact with
    | some sym => some (toLookupDict addr sym)
    | none => m.bisected addr

end DolphinRe.MapSymbols
