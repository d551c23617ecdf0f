import DolphinRe.SessionTools
import DolphinRe.Substrings
import DolphinRe.Dictionaries

/-!
# Memory tools

Every tool reads through one function from an address and a size to bytes and
decodes what it gets: whole numbers take bytes of any number, `struct.unpack`
only the right one, and the search advances by the number it asked for.
-/

namespace DolphinRe.MemoryTools

open PythonText GdbWire EffectProgram SessionMachine GdbClient SessionTools Substrings Dictionaries

variable {τ : Type}

section Values

/-- `_read`. -/
abbrev Reader (τ : Type) : Type := ℤ → ℤ → Code τ (List UInt8)

variable (read : Reader τ)

/-- `struct.unpack` of one value, left as its bytes. -/
def unpack (width : ℕ) (blob : List UInt8) : Except PyError (List UInt8) :=
  if blob.length = width then .ok blob
  else .error (.structError ("unpack requires a buffer of " ++ toString width ++ " bytes"))

/-- A big-endian word in two's complement. -/
def signed32 (word : ℕ) : ℤ := if word < 0x80000000 then word else (word : ℤ) - 0x100000000

/-- `read_mem`; the address and the size are handed back unchanged. -/
def readMem (addr size : ℤ) : Code τ (ℤ × ℤ × Str) := do
  let data ← read addr size
  pure (addr, size, toHex data)

/-- `read_u8`. -/
def readU8 (addr : ℤ) : Code τ ℕ := do
  match ← read addr 1 with
  | b :: _ => pure b.toNat
  | [] => throwing (.indexError "index out of range")

/-- `read_u16`. -/
def readU16 (addr : ℤ) : Code τ ℕ := do
  let blob ← read addr 2
  pure (fromBytesBig blob)

/-- `read_u32`. -/
def readU32 (addr : ℤ) : Code τ ℕ := do
  let blob ← read addr 4
  pure (fromBytesBig blob)

/-- `read_s32`. -/
def readS32 (addr : ℤ) : Code τ ℤ := do
  let blob ← Program.ofExcept (unpack 4 (← read addr 4))
  pure (signed32 (fromBytesBig blob))

/-- `read_f32`; the value is left as its bytes. -/
def readF32 (addr : ℤ) : Code τ (List UInt8) := do
  Program.ofExcept (unpack 4 (← read addr 4))

/-- `read_f64`; the value is left as its bytes. -/
def readF64 (addr : ℤ) : Code τ (List UInt8) := do
  Program.ofExcept (unpack 8 (← read addr 8))

/-- The loop of `follow_pointer`. -/
def followOffsets : List ℤ → ℤ → Code τ ℤ
  | [], cursor => pure cursor
  | off :: offsets, cursor => do
    let pointer ← readU32 read cursor
    followOffsets offsets (pointer + off)

/-- `follow_pointer`. -/
def followPointer (addr : ℤ) (offsets : List ℤ) : Code τ ℤ := do
  if offsets = [] then
    let pointer ← readU32 read addr
    pure pointer
  else followOffsets read offsets addr

/-- `is_valid_ptr`: a range check and a read of one byte. -/
def isValidPtr (addr : ℤ) : Code τ Bool := do
  match route addr 1 with
  | .error _ => pure false
  | .ok _ => Program.handle (do let _ ← read addr 1; pure true) fun _ => pure false

/-- `write_mem`; `write` is `_write`. -/
def writeMem (write : ℤ → List UInt8 → Code τ Unit) (addr : ℤ) (hexData : Str) (confirm : Bool) :
    Code τ (ℤ × ℕ) := do
  if !confirm then
    throwing (.runtimeError "write_mem requires confirm=True to guard against accidental writes")
  else
    let data ← Program.ofExcept (fromHexOrRaise hexData)
    write addr data
    pure (addr, data.length)

end Values

section Structs

/-- How a field of a structure is read. -/
inductive FieldKind where
  | u8
  | u16
  | u32
  | s32
  | f32
  | f64
  | bytes (count : ℤ)
  /-- Anything else, as printed in messages. -/
  | unsupported (shown : String)
  deriving DecidableEq, Repr

/-- One entry of a layout. -/
inductive LayoutEntry where
  | field (name : Str) (kind : FieldKind) (off : ℤ)
  /-- A tuple that has not three parts, as printed in messages. -/
  | malformed (shown : String)
  deriving DecidableEq, Repr

/-- What is read for a field. -/
inductive FieldValue where
  | int (value : ℤ)
  | float (blob : List UInt8)
  | hex (text : Str)
  deriving DecidableEq, Repr

variable (read : Reader τ)

/-- The read for one kind. -/
def readKind (name : Str) (ea : ℤ) : FieldKind → Code τ FieldValue
  | .u8 => do
    let value ← readU8 read ea
    pure (.int value)
  | .u16 => do
    let value ← readU16 read ea
    pure (.int value)
  | .u32 => do
    let value ← readU32 read ea
    pure (.int value)
  | .s32 => do
    let value ← readS32 read ea
    pure (.int value)
  | .f32 => do
    let blob ← readF32 read ea
    pure (.float blob)
  | .f64 => do
    let blob ← readF64 read ea
    pure (.float blob)
  | .bytes count => do
    let blob ← read ea count
    pure (.hex (toHex blob))
  | .unsupported shown =>
    throwing (.valueError ("unsupported kind " ++ shown ++ " for '" ++ String.ofList name ++ "'"))

/-- The loop of `read_struct`. -/
def readEntries (addr : ℤ) : List LayoutEntry → List (Str × FieldValue) → Code τ (List (Str × FieldValue))
  | [], out => pure out
  | .field name kind off :: layout, out => do
    let value ← readKind read name (addr + off) kind
    readEntries addr layout (assign name value out)
  | .malformed shown :: _, _ => throwing (.valueError ("bad layout entry: " ++ shown))

/-- `read_struct`. -/
def readStruct (addr : ℤ) (layout : List LayoutEntry) : Code τ (List (Str × FieldValue)) :=
  readEntries read addr layout []

end Structs

section Search

/-- Size of MEM1. -/
def MEM1_SIZE : ℕ := 0x01800000
/-- Size of MEM2. -/
def MEM2_SIZE : ℕ := 0x04000000
/-- Bytes read at a time. -/
def CHUNK : ℕ := 4 * 1024 * 1024

/-- Base and size of the region of a name, compared in upper case. -/
def namedRegion (region : Str) : Except PyError (ℤ × ℕ) :=
  if region.map Char.toUpper = "MEM1".toList then .ok (MEM1_BASE, MEM1_SIZE)
  else if region.map Char.toUpper = "MEM2".toList then .ok (MEM2_BASE, MEM2_SIZE)
  else .error (.valueError ("unknown region '" ++ String.ofList region ++ "'; expected MEM1 or MEM2"))

variable (read : Reader τ)

/-- The loop of `search_mem`. -/
def searchChunks (base : ℤ) (size : ℕ) (pat : List UInt8) (cursor : ℕ) (prevTail : List UInt8)
    (hits : List ℤ) : Code τ (List ℤ) :=
  if cursor < size then do
    let chunk ← read (base + cursor) ((min CHUNK (size - cursor) : ℕ) : ℤ)
    let buf := prevTail ++ chunk
    let found := findAll (fun i => base + cursor + ((i : ℤ) - prevTail.length)) pat buf (buf.length + 1)
      0 hits
    searchChunks base size pat (cursor + min CHUNK (size - cursor)) (lastPart (pat.length - 1) chunk)
      found
  else pure hits
termination_by size - cursor
decreasing_by
  unfold CHUNK
  omega

/-- `search_mem`. -/
def searchMem (patternHex region : Str) : Code τ (List ℤ) := do
  let pat ← Program.ofExcept (fromHexOrRaise patternHex)
  if pat = [] then throwing (.valueError "empty pattern")
  else
    let (base, size) ← Program.ofExcept (namedRegion region)
    searchChunks read base size pat 0 [] []

end Search

section Dumps

/-- The part of the file system that dumps use. -/
structure Disk where
  /-- Contents of the existing files, each by the path it is named with. -/
  files : Str → Option (List UInt8)
  /-- Whether a directory exists or can be made. -/
  directory : Str → Bool
  /-- Whether a file can be written. -/
  writable : Str → Bool

/-- `path.write_bytes(blob)`. -/
def Disk.write (disk : Disk) (path : Str) (blob : List UInt8) : Except PyError Disk :=
  if disk.writable path then
    .ok {disk with files := fun other => if other = path then some blob else disk.files other}
  else .error (.osError ("[Errno 13] Permission denied: '" ++ String.ofList path ++ "'"))

/-- `_dump_dir`. -/
def dumpDir (dumpsDir : Option Str) : Except PyError Str :=
  match dumpsDir with
  | none | some [] =>
    .error (.runtimeError "MHTRI_DUMPS_DIR env var not set; cannot write/read dumps")
  | some dir => .ok dir

/-- The file name made of a scenario name; `isalnum` is the host language's. -/
def safeName (isalnum : Char → Bool) (scenario : Str) : Str :=
  scenario.filter fun c => isalnum c || c ∈ "._-".toList

/-- What `pathlib` keeps in front of the first part of a path. -/
def pathRoot : Str → Str
  | '/' :: '/' :: '/' :: _ => ['/']
  | '/' :: '/' :: _ => ['/', '/']
  | '/' :: _ => ['/']
  | _ => []

/-- What stands before a name in `Path(dir) / name`: the parts of the directory,
without the empty ones and the dots. -/
def pathFront (dir : Str) : Str :=
  pathRoot dir ++ ((dir.splitOn '/').filter fun part => part ≠ [] ∧ part ≠ ['.']).flatMap (· ++ ['/'])

/-- `dump_dir / f"{safe}.mem1.raw"`. -/
def mem1Path (dir safe : Str) : Str := pathFront dir ++ (safe ++ ".mem1.raw".toList)

/-- `dump_dir / f"{safe}.mem2.raw"`. -/
def mem2Path (dir safe : Str) : Str := pathFront dir ++ (safe ++ ".mem2.raw".toList)

example : mem1Path "//dumps/.//today/".toList "intro".toList = "//dumps/today/intro.mem1.raw".toList := by
  decide +kernel

/-- The checks before the first read: the directory and the file name. -/
def prepareDump (isalnum : Char → Bool) (dumpsDir : Option Str) (scenario : Str) (disk : Disk) :
    Except PyError (Str × Str) := do
  let dir ← dumpDir dumpsDir
  if disk.directory dir then
    let safe := safeName isalnum scenario
    if safe = [] then throw (.valueError "scenario_name produced empty filename after sanitization")
    else pure (dir, safe)
  else throw (.osError ("[Errno 13] Permission denied: '" ++ String.ofList dir ++ "'"))

variable (read : Reader τ)

/-- Read a region and write it to a file; the disk stays as it is when either fails. -/
def dumpRegion (base : ℤ) (size : ℕ) (path : Str) (disk : Disk) :
    Code τ (Except PyError Unit × Disk) := do
  match ← (read base size).attempt with
  | .error e => pure (.error e, disk)
  | .ok blob =>
    match disk.write path blob with
    | .error e => pure (.error e, disk)
    | .ok after => pure (.ok (), after)

/-- `snapshot_to_dump`: what it returns or raises, and the disk after it. -/
def snapshotToDump (isalnum : Char → Bool) (dumpsDir : Option Str) (scenario : Str) (disk : Disk) :
    Code τ (Except PyError (Str × Str) × Disk) := do
  match prepareDump isalnum dumpsDir scenario disk with
  | .error e => pure (.error e, disk)
  | .ok (dir, safe) =>
    match ← dumpRegion read MEM1_BASE MEM1_SIZE (mem1Path dir safe) disk with
    | (.error e, disk) => pure (.error e, disk)
    | (.ok (), disk) =>
      match ← dumpRegion read MEM2_BASE MEM2_SIZE (mem2Path dir safe) disk with
      | (.error e, disk) => pure (.error e, disk)
      | (.ok (), disk) => pure (.ok (mem1Path dir safe, mem2Path dir safe), disk)

/-- One differing byte. -/
structure DiffEntry where
  /-- Distance from the first compared address. -/
  offset : ℕ
  /-- Address. -/
  addr : ℤ
  /-- The live byte. -/
  live : UInt8
  /-- The byte in the dump. -/
  dump : UInt8
  deriving DecidableEq, Repr

/-- The comparison loop of `diff_live_vs_dump`. -/
def differences (addr : ℤ) (live saved : List UInt8) : List DiffEntry :=
  (live.zip saved).zipIdx.filterMap fun ((a, b), i) =>
    if a ≠ b then some ⟨i, addr + i, a, b⟩ else none

/-- `diff_live_vs_dump`. -/
def diffLiveVsDump (addr size : ℤ) (dumpPath : Str) (disk : Disk) : Code τ (List DiffEntry) := do
  match disk.files dumpPath with
  | none => throwing (.osError ("dump file not found: " ++ String.ofList dumpPath))
  | some blob =>
    let routed ← Program.ofExcept (route addr size)
    let fileOff := routed.offset
    if blob.length < fileOff + size then
      throwing (.valueError ("dump " ++ String.ofList dumpPath ++ " too small: offset " ++
        toString fileOff ++ "+" ++ toString size ++ " > " ++ toString blob.length))
    else
      let live ← read addr size
      let saved := (blob.drop fileOff.toNat).take size.toNat
      pure (differences addr live saved)

end Dumps

end DolphinRe.MemoryTools
