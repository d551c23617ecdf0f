import DolphinRe.GdbPackets
import Mathlib.Data.List.DropRight

/-!
# Stop replies, captures and hit attribution

Parsing is total: an unreadable field leaves its part of the reply unset.
Attribution looks at a watch annotation first, then at the program counter,
and finally falls back to the only registered watchpoint.
-/

namespace DolphinRe.StopReplies

open PythonText GdbPackets

/-- Register numbers of the special-purpose registers. -/
def PC : ℕ := 0x40
/-- Link register. -/
def LR : ℕ := 0x43

/-- `REG_NAMES.get(regnum, f"reg_0x{regnum:x}")`. -/
def regName (regnum : ℤ) : Str :=
  if regnum = 0x01 then "sp".toList
  else if regnum = 0x40 then "pc".toList
  else if regnum = 0x41 then "msr".toList
  else if regnum = 0x42 then "cr".toList
  else if regnum = 0x43 then "lr".toList
  else if regnum = 0x44 then "ctr".toList
  else if regnum = 0x45 then "xer".toList
  else if 0 ≤ regnum ∧ regnum < 0x20 then 'r' :: formatDec regnum
  else if 0x20 ≤ regnum ∧ regnum < 0x40 then 'f' :: formatDec (regnum - 0x20)
  else "reg_0x".toList ++ formatHex regnum

section Dict

variable {α : Type}

/-- Assign a dictionary key: overwrite in place, or append a new entry. -/
def dictSet (key : Str) (value : α) (dict : List (Str × α)) : List (Str × α) :=
  if dict.any (·.1 = key) then dict.map fun entry => if entry.1 = key then (key, value) else entry
  else dict ++ [(key, value)]

/-- `dict.get(key)`. -/
def dictGet (key : Str) (dict : List (Str × α)) : Option α :=
  (dict.find? (·.1 = key)).map (·.2)

end Dict

/-- A parsed stop reply. -/
structure StopReply where
  /-- The reply as received. -/
  raw : Str
  /-- Signal number. -/
  signal : Option ℤ := none
  /-- Named register values in order of first appearance. -/
  registers : List (Str × ℤ) := []
  /-- `watch`, `rwatch` or `awatch` when the stub annotates the access. -/
  watchKind : Option Str := none
  /-- Annotated address. -/
  watchAddr : Option ℤ := none
  /-- Other named fields, verbatim. -/
  extra : List (Str × Str) := []
  deriving DecidableEq, Repr

/-- The program counter, when reported. -/
def StopReply.pc (reply : StopReply) : Option ℤ := dictGet "pc".toList reply.registers

/-- The stack pointer, when reported. -/
def StopReply.sp (reply : StopReply) : Option ℤ := dictGet "sp".toList reply.registers

/-- Read one `key:value` field of a `T` reply. -/
def readField (out : StopReply) (kv : Str) : StopReply :=
  if ':' ∈ kv then
    let k := kv.takeWhile (· ≠ ':')
    let v := (kv.dropWhile (· ≠ ':')).drop 1
    match parseHexInt k with
    | none =>
      if k = "watch".toList ∨ k = "rwatch".toList ∨ k = "awatch".toList then
        {out with watchKind := some k, watchAddr := (parseHexInt v).or out.watchAddr}
      else {out with extra := dictSet k v out.extra}
    | some regnum =>
      match parseHexInt v with
      | none => out
      | some value => {out with registers := dictSet (regName regnum) value out.registers}
  else out

/-- `parse_stop_reply`: only `T` replies carry fields. -/
def parseStopReply (reply : Str) : StopReply :=
  let out : StopReply := {raw := reply}
  match reply with
  | [] => out
  | head :: rest =>
    if head = 'S' ∨ head = 'T' ∨ head = 'X' then
      match parseHexInt (rest.take 2) with
      | none => out
      | some signal =>
        let out := {out with signal := some signal}
        if head = 'T' then
          match (rest.drop 2).rdropWhile (· = ';') with
          | [] => out
          | body => (body.splitOn ';').foldl readField out
        else out
    else if head = 'W' then {out with signal := parseHexInt (rest.take 2)}
    else out

/-- What a client may ask the watcher to record. -/
inductive CaptureKey where
  | gprs
  | fprs
  | lr
  | stack
  deriving DecidableEq, Repr

/-- One captured hit. Timestamps are left out, and a floating-point register is
kept as the eight bytes received. -/
structure Capture where
  /-- Program counter. -/
  pc : Option ℤ
  /-- Stack pointer. -/
  sp : Option ℤ
  /-- Signal number. -/
  signal : Option ℤ
  /-- Annotated address; the key is absent when there is none. -/
  watchAddr : Option ℤ
  /-- General registers `r0` and up, when captured. -/
  gprs : Option (List ℕ) := none
  /-- The flattened argument registers `r3` to `r10`, when captured. -/
  args : Option (List (Option ℕ)) := none
  /-- Link register, when captured and readable. -/
  lr : Option ℕ := none
  /-- Readable floating-point registers by index, when captured. -/
  fprs : Option (List (ℕ × List UInt8)) := none
  deriving DecidableEq, Repr

/-- The fields every capture starts with. -/
def Capture.ofStop (parsed : StopReply) : Capture :=
  {pc := parsed.pc, sp := parsed.sp, signal := parsed.signal, watchAddr := parsed.watchAddr}

/-- `parse_dolphin_gprs`: up to thirty-two big-endian words. -/
def parseDolphinGprs (blob : List UInt8) : List ℕ :=
  ((List.range 32).takeWhile fun i => i * 4 + 4 ≤ blob.length).map fun i =>
    fromBytesBig ((blob.drop (i * 4)).take 4)

/-- A registered breakpoint or watchpoint. -/
structure BreakpointSpec where
  /-- Session-unique number. -/
  bpId : ℕ
  /-- Address. -/
  addr : ℤ
  /-- Kind. -/
  kind : BpKind
  /-- Number of covered bytes. -/
  size : ℤ := 4
  /-- Optional filter expression. -/
  condition : Option Str := none
  /-- State to record on a hit. -/
  captures : List CaptureKey := []
  /-- Whether hits are recorded and resumed in the background. -/
  autoContinue : Bool := false
  /-- Recorded hits, oldest first. -/
  log : List Capture := []
  deriving DecidableEq, Repr

/-- The point a registered breakpoint stands for. -/
def BreakpointSpec.point (spec : BreakpointSpec) : Point := ⟨spec.kind, spec.addr, spec.size⟩

/-- Kinds compared with the program counter. -/
def BpKind.isBreakpoint : BpKind → Bool
  | .swBp => true
  | .hwBp => true
  | _ => false

/-- Kinds that watch memory. -/
def BpKind.isWatchpoint : BpKind → Bool
  | .writeWp => true
  | .readWp => true
  | .accessWp => true
  | _ => false

/-- The kind an annotation restricts attribution to. -/
def kindFilter (watchKind : Option Str) : Option BpKind :=
  if watchKind = some "watch".toList then some .writeWp
  else if watchKind = some "rwatch".toList then some .readWp
  else if watchKind = some "awatch".toList then some .accessWp
  else none

/-- Attribution by the annotated address. -/
def matchWatch (parsed : StopReply) (breakpoints : List BreakpointSpec) : Option ℕ :=
  match parsed.watchAddr with
  | none => none
  | some addr => (breakpoints.find? fun spec => spec.addr = addr ∧
      (kindFilter parsed.watchKind = none ∨ kindFilter parsed.watchKind = some spec.kind)).map
        BreakpointSpec.bpId

/-- Attribution by the program counter. -/
def matchPc (parsed : StopReply) (breakpoints : List BreakpointSpec) : Option ℕ :=
  match parsed.pc with
  | none => none
  | some pc => (breakpoints.find? fun spec =>
      BpKind.isBreakpoint spec.kind ∧ spec.addr = pc).map BreakpointSpec.bpId

/-- Attribution to the only watchpoint. -/
def matchLone (breakpoints : List BreakpointSpec) : Option ℕ :=
  match breakpoints.filter (fun spec => BpKind.isWatchpoint spec.kind) with
  | [spec] => some spec.bpId
  | _ => none

/-- `_match_bp`. -/
def matchBp (parsed : StopReply) (breakpoints : List BreakpointSpec) : Option ℕ :=
  ((matchWatch parsed breakpoints).or (matchPc parsed breakpoints)).or (matchLone breakpoints)

end DolphinRe.StopReplies
