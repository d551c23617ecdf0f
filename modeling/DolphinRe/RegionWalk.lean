import DolphinRe.MemoryBackends
import DolphinRe.Tilings
import Mathlib.Algebra.Group.Nat.Defs

/-!
# Finding the emulated memory in the emulator's process

The address space of a process is a tiling of regions. The walk asks for the
region at an address and goes on at its end; the backend takes the first
mapping of each of two sizes. Whatever the system answers, the walk ends; when
it answers as documented, the walk finds every mapping once, in address order.
-/

namespace DolphinRe.RegionWalk

open PythonText MemoryWindows MemoryBackends Tilings

section Source

/-- `MEM_COMMIT`. -/
def MEM_COMMIT : UInt32 := 0x1000
/-- `MEM_MAPPED`. -/
def MEM_MAPPED : UInt32 := 0x40000
/-- `PAGE_READWRITE`. -/
def PAGE_READWRITE : UInt32 := 0x04
/-- `PROCESS_QUERY_INFORMATION | PROCESS_VM_READ`. -/
def WALK_RIGHTS : ℕ := 0x0410
/-- The same with `PROCESS_VM_WRITE | PROCESS_VM_OPERATION`. -/
def BACKEND_RIGHTS : ℕ := 0x0438

/-- State, protection and type of a region. -/
structure Attributes where
  /-- Whether it is committed, reserved or free. -/
  state : UInt32
  /-- How its pages may be accessed. -/
  protect : UInt32
  /-- Whether it is private, mapped or an image. -/
  type : UInt32
  deriving DecidableEq, Repr

/-- `_MEMORY_BASIC_INFORMATION`; a base address of zero reads as `None`. -/
structure BasicInformation where
  /-- Where it starts. -/
  baseAddress : UInt64
  /-- Number of bytes from there on with the same attributes. -/
  regionSize : UInt64
  /-- Its attributes. -/
  attributes : Attributes
  deriving DecidableEq, Repr

/-- The regions that the walk keeps: committed, mapped, readable and writable, and not at zero. -/
def isMapping (base : ℕ) (attributes : Attributes) : Bool :=
  attributes.state = MEM_COMMIT ∧ attributes.type = MEM_MAPPED ∧ attributes.protect = PAGE_READWRITE ∧ base ≠ 0

/-- The loop of `_walk_mem_regions`; an address is passed to the system modulo the word size. -/
def walkFrom (query : UInt64 → Option BasicInformation) (addr : ℕ) (out : List HostRegion) : List HostRegion :=
  match query (UInt64.ofNat addr) with
  | none => out
  | some mbi =>
    let out := if isMapping mbi.baseAddress.toNat mbi.attributes then
      out ++ [⟨mbi.baseAddress.toNat, mbi.regionSize.toNat⟩] else out
    let nextAddr := mbi.baseAddress.toNat + mbi.regionSize.toNat
    if nextAddr ≤ addr then out else walkFrom query nextAddr out
termination_by 2 ^ 65 - addr
decreasing_by
  have hbase := mbi.baseAddress.toNat_lt
  have hsize := mbi.regionSize.toNat_lt
  omega

/-- What `psutil` tells of a process: nothing when it is gone or denied, else its name, if it has one, and its id. -/
inductive ProcessEntry where
  | hidden
  | info (name : Option Str) (pid : ℕ)
  deriving DecidableEq, Repr

/-- The parts of the system that the attachment asks. -/
structure System where
  /-- `sys.platform`. -/
  platform : String
  /-- Lower case in the host language. -/
  lower : Str → Str
  /-- The processes in the order in which they are listed. -/
  processes : List ProcessEntry
  /-- `OpenProcess`; a failure has an error code. -/
  openProcess : ℕ → ℕ → Except ℕ Unit
  /-- `VirtualQueryEx` on a process; no answer means failure. -/
  query : ℕ → UInt64 → Option BasicInformation

/-- The name of the emulator's process. -/
def PROCESS_NAME : Str := "Dolphin.exe".toList

namespace System

variable (sys : System)

/-- The process of an entry, if it has the name. -/
def named (target : Str) : ProcessEntry → Option ℕ
  | .hidden => none
  | .info name pid => if sys.lower (name.getD []) = target then some pid else none

/-- `_find_pid`. -/
def findPid (name : Str) : Option ℕ := sys.processes.findSome? (sys.named (sys.lower name))

/-- `_walk_mem_regions`; the error is the text of an `AttachError`. -/
def walkMemRegions (pid : ℕ) : Except String (List HostRegion) :=
  match sys.openProcess pid WALK_RIGHTS with
  | .error err =>
    .error ("OpenProcess(PID=" ++ toString pid ++ ") for region walk failed (err=" ++ toString err ++ ")")
  | .ok () => .ok (walkFrom (sys.query pid) 0 [])

/-- `_open_handle`. -/
def openHandle (pid : ℕ) : Except String Unit :=
  match sys.openProcess pid BACKEND_RIGHTS with
  | .error err => .error ("OpenProcess(PID=" ++ toString pid ++ ") failed (err=" ++ toString err ++ ")")
  | .ok () => .ok ()

/-- `WindowsAttachBackend.find_dolphin`. -/
def findDolphin : Except String (ℕ × AttachBackend) :=
  if sys.platform ≠ "win32" then .error "WindowsAttachBackend only supports win32"
  else match sys.findPid PROCESS_NAME with
    | none => .error ("process '" ++ String.ofList PROCESS_NAME ++ "' not found")
    | some pid => do
      let regions ← sys.walkMemRegions pid
      let backend ← MemoryBackends.findDolphin pid regions
      sys.openHandle pid
      pure (pid, backend)

end System

end Source

section Walk

variable {query : UInt64 → Option BasicInformation} {space before cells : List (Cell Attributes)}
  {cell : Cell Attributes} {addr top : ℕ} {out : List HostRegion}

/-- Size of a page. -/
def PAGE : ℕ := 4096

/-- What the system says of an address in a region: the rest of the region from the page of the address. -/
def describe (x : UInt64) (cell : Cell Attributes) : BasicInformation where
  baseAddress := UInt64.ofNat (x.toNat - x.toNat % PAGE)
  regionSize := UInt64.ofNat (cell.finish - (x.toNat - x.toNat % PAGE))
  attributes := cell.kind

/-- An address space of regions that start on pages, and a system that answers queries about it. -/
structure Laid (query : UInt64 → Option BasicInformation) (space : List (Cell Attributes)) (top : ℕ) : Prop where
  /-- The regions cover the addresses below the top, without gaps. -/
  tiles : Tiles 0 space top
  /-- Addresses have 64 bits. -/
  bounded : top < 2 ^ 64
  /-- Regions start on pages. -/
  paged : ∀ cell ∈ space, PAGE ∣ cell.start
  /-- A query is answered from the page of its address to the end of the region. -/
  answered : ∀ x, query x = (cellAt space x.toNat).map (describe x)

/-- Whether a region is a mapping. -/
def mapping (cell : Cell Attributes) : Bool := isMapping cell.start cell.kind

/-- A region as the walk reports it. -/
def reported (cell : Cell Attributes) : HostRegion := ⟨cell.start, cell.length⟩

/-- The mappings of an address space. -/
def mappings (space : List (Cell Attributes)) : List HostRegion := (space.filter mapping).map reported

/-- What the walk makes of an answer. -/
theorem walkFrom_some {mbi : BasicInformation} (h : query (UInt64.ofNat addr) = some mbi)
    (hnext : addr < mbi.baseAddress.toNat + mbi.regionSize.toNat) :
    walkFrom query addr out = walkFrom query (mbi.baseAddress.toNat + mbi.regionSize.toNat)
      (if isMapping mbi.baseAddress.toNat mbi.attributes then
        out ++ [⟨mbi.baseAddress.toNat, mbi.regionSize.toNat⟩] else out) := by
  rw [walkFrom, h]
  exact if_neg (by omega)

theorem walkFrom_none (h : query (UInt64.ofNat addr) = none) : walkFrom query addr out = out := by
  rw [walkFrom, h]

/-- At the start of a region, the system describes all of it. -/
theorem Laid.query_start (h : Laid query (before ++ cell :: cells) top) :
    ∃ mbi, query (UInt64.ofNat cell.start) = some mbi ∧ mbi.baseAddress.toNat = cell.start ∧
      mbi.regionSize.toNat = cell.length ∧ mbi.attributes = cell.kind := by
  have hmem : cell ∈ before ++ cell :: cells := List.mem_append_right before List.mem_cons_self
  have hin := h.tiles.within.2 cell hmem
  have hbounded := h.bounded
  have hfinish : cell.finish = cell.start + cell.length := rfl
  have hword : UInt64.size = 2 ^ 64 := rfl
  have hstart : (UInt64.ofNat cell.start).toNat = cell.start := UInt64.toNat_ofNat_of_lt' (by omega)
  have hpage : cell.start - cell.start % PAGE = cell.start := by
    rw [Nat.mod_eq_zero_of_dvd (h.paged cell hmem), Nat.sub_zero]
  refine ⟨describe (UInt64.ofNat cell.start) cell, ?_, ?_, ?_, rfl⟩
  · rw [h.answered, hstart, h.tiles.cellAt_start]
    rfl
  · unfold describe
    rw [hstart, hpage]
    exact hstart
  · unfold describe
    rw [hstart, hpage]
    exact (UInt64.toNat_ofNat_of_lt' (by omega)).trans (by omega)

/-- The walk over the regions from an address on. -/
theorem walkFrom_laid (h : Laid query (before ++ cells) top) (hfrom : Tiles addr cells top) :
    walkFrom query addr out = out ++ mappings cells := by
  induction cells generalizing before addr out with
  | nil =>
    have hend : addr = top := hfrom
    have hbounded := h.bounded
    have hword : UInt64.size = 2 ^ 64 := rfl
    have hnone : query (UInt64.ofNat addr) = none := by
      have haddr : (UInt64.ofNat addr).toNat = addr := UInt64.toNat_ofNat_of_lt' (by omega)
      rw [h.answered, haddr, h.tiles.cellAt_end (Nat.le_of_eq hend.symm)]
      rfl
    rw [walkFrom_none hnone]
    exact (List.append_nil out).symm
  | cons cell cells ih =>
    obtain ⟨hstart, hpos, hrest⟩ := hfrom
    obtain ⟨mbi, hquery, hbase, hsize, hkind⟩ := h.query_start
    rw [hstart] at hquery
    have hgoes : mbi.baseAddress.toNat + mbi.regionSize.toNat = cell.finish := by
      rw [hbase, hsize]
      rfl
    have hlaid : Laid query ((before ++ [cell]) ++ cells) top := by
      rw [List.append_assoc]
      exact h
    rw [walkFrom_some hquery (by omega), hgoes, ih hlaid hrest, hbase, hsize, hkind]
    unfold mappings
    by_cases hmapping : mapping cell = true
    · have hkept : isMapping cell.start cell.kind = true := hmapping
      rw [List.filter_cons_of_pos hmapping, if_pos hkept, List.map_cons, List.append_assoc]
      rfl
    · have hdropped : ¬isMapping cell.start cell.kind = true := hmapping
      rw [List.filter_cons_of_neg hmapping, if_neg hdropped]

/-- The walk over the whole address space. -/
theorem Laid.walk (h : Laid query space top) : walkFrom query 0 [] = mappings space := by
  have hfrom : Laid query ([] ++ space) top := h
  exact walkFrom_laid hfrom h.tiles

/-- The walk reports exactly the mappings of the address space, each once and in address order. -/
theorem walk_reports_the_mappings (h : Laid query space top) :
    walkFrom query 0 [] = mappings space ∧
      (walkFrom query 0 []).Pairwise fun first second => first.baseAddr + first.size ≤ second.baseAddr := by
  rw [h.walk]
  refine ⟨rfl, ?_⟩
  unfold mappings
  rw [List.pairwise_map]
  refine (h.tiles.ordered.filter _).imp fun hle => ?_
  unfold Cell.finish at hle
  simp only [reported]
  omega

/-- Free, reserved and private pages around two mappings of the sizes that are looked for. -/
def sampleSpace : List (Cell Attributes) :=
  [⟨0, 0x10000, ⟨0x10000, 1, 0⟩⟩, ⟨0x10000, 0x3000, ⟨MEM_COMMIT, PAGE_READWRITE, 0x20000⟩⟩,
    ⟨0x13000, 0x4000000, ⟨MEM_COMMIT, PAGE_READWRITE, MEM_MAPPED⟩⟩, ⟨0x4013000, 0x1000, ⟨0x2000, 0, MEM_MAPPED⟩⟩,
    ⟨0x4014000, 0x2000000, ⟨MEM_COMMIT, PAGE_READWRITE, MEM_MAPPED⟩⟩, ⟨0x6014000, 0x1000, ⟨0x10000, 1, 0⟩⟩]

/-- A system that describes it. -/
def sampleQuery : UInt64 → Option BasicInformation := fun x => (cellAt sampleSpace x.toNat).map (describe x)

theorem sample_laid : Laid sampleQuery sampleSpace 0x6015000 where
  tiles := ⟨rfl, by decide, rfl, by decide, rfl, by decide, rfl, by decide, rfl, by decide, rfl, by decide, rfl⟩
  bounded := by decide
  paged := by decide
  answered := fun _ => rfl

theorem walk_reports_the_mappings_sample :
    walkFrom sampleQuery 0 [] = [⟨0x13000, 0x4000000⟩, ⟨0x4014000, 0x2000000⟩] :=
  (walk_reports_the_mappings sample_laid).1

/-- A mapping of a size that has none of its size below it. -/
structure Lowest (space : List (Cell Attributes)) (size : ℤ) (cell : Cell Attributes) : Prop where
  /-- It is a region of the space. -/
  mem : cell ∈ space
  /-- It is committed, mapped and can be read and written. -/
  mapped : mapping cell = true
  /-- It has the size. -/
  sized : (cell.length : ℤ) = size
  /-- No mapping of that size starts below it. -/
  lowest : ∀ other ∈ space, mapping other = true → (other.length : ℤ) = size → cell.start ≤ other.start

/-- The first mapping of a size in the report is the lowest. -/
theorem pickFirst_mappings (h : Tiles 0 space top) {size : ℤ} {region : HostRegion} :
    pickFirst (mappings space) size = some region ↔ ∃ cell, Lowest space size cell ∧ region = reported cell := by
  have hsearch : pickFirst (mappings space) size =
      (space.find? fun cell => mapping cell && decide ((cell.length : ℤ) = size)).map reported := by
    unfold pickFirst mappings
    rw [List.find?_map, List.find?_filter]
    simp only [Bool.decide_and, Bool.decide_eq_true]
    rfl
  rw [hsearch, Option.map_eq_some_iff]
  constructor
  · intro hfound
    obtain ⟨cell, hcell, hregion⟩ := hfound
    obtain ⟨hmem, hkind, hlowest⟩ := (h.find_iff _).mp hcell
    have hboth := Bool.and_eq_true_iff.mp hkind
    have hfirst : ∀ other ∈ space, mapping other = true → (other.length : ℤ) = size → cell.start ≤ other.start :=
      fun other hother hmap hsize => hlowest other hother (Bool.and_eq_true_iff.mpr ⟨hmap, decide_eq_true hsize⟩)
    exact ⟨cell, ⟨hmem, hboth.1, of_decide_eq_true hboth.2, hfirst⟩, hregion.symm⟩
  · intro hlowest
    obtain ⟨cell, hcell, hregion⟩ := hlowest
    refine ⟨cell, (h.find_iff _).mpr ⟨hcell.mem, ?_, fun other hother hkind => ?_⟩, hregion.symm⟩
    · exact Bool.and_eq_true_iff.mpr ⟨hcell.mapped, decide_eq_true hcell.sized⟩
    · have hboth := Bool.and_eq_true_iff.mp hkind
      exact hcell.lowest other hother hboth.1 (of_decide_eq_true hboth.2)

/-- Mappings of different sizes do not overlap. -/
theorem Lowest.apart (h : Tiles 0 space top) {first second : Cell Attributes} {size size' : ℤ}
    (hfirst : Lowest space size first) (hsecond : Lowest space size' second) (hne : size ≠ size') :
    first.finish ≤ second.start ∨ second.finish ≤ first.start := by
  refine h.apart hfirst.mem hsecond.mem fun heq => hne ?_
  rw [← hfirst.sized, ← hsecond.sized, heq]

/-- What the search for the two mappings finds among those of an address space. -/
theorem findDolphin_mappings (h : Tiles 0 space top) {pid : ℕ} {backend : AttachBackend} :
    MemoryBackends.findDolphin pid (mappings space) = .ok backend ↔
      ∃ mem1 mem2, Lowest space MEM1_RESERVED_SIZE mem1 ∧ Lowest space MEM2_RESERVED_SIZE mem2 ∧
        backend = ⟨reported mem1, reported mem2⟩ := by
  have hsearch : MemoryBackends.findDolphin pid (mappings space) = .ok backend ↔
      pickFirst (mappings space) MEM1_RESERVED_SIZE = some backend.mem1 ∧
        pickFirst (mappings space) MEM2_RESERVED_SIZE = some backend.mem2 := by
    unfold MemoryBackends.findDolphin findRegion
    cases hmem1 : pickFirst (mappings space) MEM1_RESERVED_SIZE with
    | none =>
      constructor
      · intro hok
        cases hok
      · intro hfound
        cases hfound.1
    | some mem1 =>
      cases hmem2 : pickFirst (mappings space) MEM2_RESERVED_SIZE with
      | none =>
        constructor
        · intro hok
          cases hok
        · intro hfound
          cases hfound.2
      | some mem2 =>
        constructor
        · intro hok
          rw [← Except.ok.inj hok]
          exact ⟨rfl, rfl⟩
        · intro hfound
          rw [Option.some.inj hfound.1, Option.some.inj hfound.2]
          rfl
  rw [hsearch, pickFirst_mappings h, pickFirst_mappings h]
  constructor
  · intro hfound
    obtain ⟨⟨mem1, hmem1, heq1⟩, mem2, hmem2, heq2⟩ := hfound
    refine ⟨mem1, mem2, hmem1, hmem2, ?_⟩
    rw [← heq1, ← heq2]
  · intro hfound
    obtain ⟨mem1, mem2, hmem1, hmem2, heq⟩ := hfound
    rw [heq]
    exact ⟨⟨mem1, hmem1, rfl⟩, mem2, hmem2, rfl⟩

end Walk

section Attaching

variable {sys : System} {spaces : ℕ → List (Cell Attributes)} {tops : ℕ → ℕ} {pid : ℕ} {backend : AttachBackend}

/-- A step that succeeds passes its result on. -/
theorem bind_ok_iff {α β : Type} {first : Except String α} {next : α → Except String β} {b : β} :
    first.bind next = .ok b ↔ ∃ a, first = .ok a ∧ next a = .ok b := by
  cases first with
  | error e =>
    constructor
    · intro h
      cases h
    · intro h
      obtain ⟨a, ha, -⟩ := h
      cases ha
  | ok a =>
    constructor
    · intro h
      exact ⟨a, rfl, h⟩
    · intro h
      obtain ⟨a', ha, h⟩ := h
      rw [Except.ok.inj ha]
      exact h

theorem System.walkMemRegions_ok {regions : List HostRegion} :
    sys.walkMemRegions pid = .ok regions ↔
      sys.openProcess pid WALK_RIGHTS = .ok () ∧ regions = walkFrom (sys.query pid) 0 [] := by
  unfold System.walkMemRegions
  cases sys.openProcess pid WALK_RIGHTS with
  | error err =>
    constructor
    · intro h
      cases h
    · intro h
      cases h.1
  | ok opened =>
    constructor
    · intro h
      exact ⟨rfl, (Except.ok.inj h).symm⟩
    · intro h
      rw [h.2]

theorem System.openHandle_ok : sys.openHandle pid = .ok () ↔ sys.openProcess pid BACKEND_RIGHTS = .ok () := by
  unfold System.openHandle
  cases sys.openProcess pid BACKEND_RIGHTS with
  | error err =>
    constructor <;> intro h <;> cases h
  | ok opened =>
    constructor <;> intro _ <;> rfl

/-- What a successful attachment went through. -/
theorem System.findDolphin_ok : sys.findDolphin = .ok (pid, backend) ↔
    sys.platform = "win32" ∧ sys.findPid PROCESS_NAME = some pid ∧ sys.openProcess pid WALK_RIGHTS = .ok () ∧
      sys.openProcess pid BACKEND_RIGHTS = .ok () ∧
      MemoryBackends.findDolphin pid (walkFrom (sys.query pid) 0 []) = .ok backend := by
  unfold System.findDolphin
  by_cases hplatform : sys.platform = "win32"
  · rw [if_neg (not_not_intro hplatform)]
    cases hpid : sys.findPid PROCESS_NAME with
    | none =>
      constructor
      · intro h
        cases h
      · intro h
        cases h.2.1
    | some found =>
      constructor
      · intro h
        obtain ⟨regions, hregions, h⟩ := bind_ok_iff.mp h
        obtain ⟨attached, hattached, h⟩ := bind_ok_iff.mp h
        obtain ⟨opened, hopened, h⟩ := bind_ok_iff.mp h
        obtain ⟨rfl, rfl⟩ := Prod.mk.inj (Except.ok.inj h)
        obtain ⟨hwalk, hall⟩ := System.walkMemRegions_ok.mp hregions
        rw [← hall]
        exact ⟨hplatform, rfl, hwalk, System.openHandle_ok.mp hopened, hattached⟩
      · intro h
        obtain ⟨-, hfound, hwalk, hopened, hattached⟩ := h
        rw [Option.some.inj hfound]
        refine bind_ok_iff.mpr ⟨_, System.walkMemRegions_ok.mpr ⟨hwalk, rfl⟩, ?_⟩
        exact bind_ok_iff.mpr ⟨_, hattached, bind_ok_iff.mpr ⟨(), System.openHandle_ok.mpr hopened, rfl⟩⟩
  · rw [if_pos hplatform]
    constructor
    · intro h
      cases h
    · intro h
      exact absurd h.1 hplatform

/-- The first process of the name. -/
theorem System.findPid_some {name : Str} : sys.findPid name = some pid ↔
    ∃ before after text, sys.processes = before ++ .info text pid :: after ∧
      sys.lower (text.getD []) = sys.lower name ∧ ∀ entry ∈ before, sys.named (sys.lower name) entry = none := by
  unfold System.findPid
  rw [List.findSome?_eq_some_iff]
  constructor
  · intro h
    obtain ⟨before, entry, after, hlist, hentry, hearlier⟩ := h
    cases entry with
    | hidden => cases hentry
    | info text other =>
      have hnamed : (if sys.lower (text.getD []) = sys.lower name then some other else none) = some pid := hentry
      split_ifs at hnamed with hname
      obtain rfl := Option.some.inj hnamed
      exact ⟨before, after, text, hlist, hname, hearlier⟩
  · intro h
    obtain ⟨before, after, text, hlist, hname, hearlier⟩ := h
    exact ⟨before, .info text pid, after, hlist, if_pos hname, hearlier⟩

/-- Attaching succeeds on Windows exactly when a process of the emulator's name is listed, it can be
opened for the walk and for the backend, and its address space has a mapping of each of the two sizes;
it takes the first such process and the lowest mappings, and these do not overlap, as the backend needs. -/
theorem attaches_to_the_lowest_mappings (h : ∀ pid, Laid (sys.query pid) (spaces pid) (tops pid)) :
    (sys.findDolphin = .ok (pid, backend) ↔
      sys.platform = "win32" ∧
      (∃ before after text, sys.processes = before ++ .info text pid :: after ∧
        sys.lower (text.getD []) = sys.lower PROCESS_NAME ∧
        ∀ entry ∈ before, sys.named (sys.lower PROCESS_NAME) entry = none) ∧
      sys.openProcess pid WALK_RIGHTS = .ok () ∧ sys.openProcess pid BACKEND_RIGHTS = .ok () ∧
      ∃ mem1 mem2, Lowest (spaces pid) MEM1_RESERVED_SIZE mem1 ∧ Lowest (spaces pid) MEM2_RESERVED_SIZE mem2 ∧
        backend = ⟨reported mem1, reported mem2⟩) ∧
      (sys.findDolphin = .ok (pid, backend) → ∀ bytes, Mapped pid ⟨mappings (spaces pid), bytes⟩ backend) := by
  have hwalk : walkFrom (sys.query pid) 0 [] = mappings (spaces pid) := (h pid).walk
  have hiff : sys.findDolphin = .ok (pid, backend) ↔ _ := System.findDolphin_ok
  rw [hwalk, System.findPid_some, findDolphin_mappings (h pid).tiles] at hiff
  refine ⟨hiff, fun hok bytes => ?_⟩
  obtain ⟨-, -, -, -, mem1, mem2, hmem1, hmem2, hbackend⟩ := hiff.mp hok
  have hfound : MemoryBackends.findDolphin pid (mappings (spaces pid)) = .ok backend :=
    (findDolphin_mappings (h pid).tiles).mpr ⟨mem1, mem2, hmem1, hmem2, hbackend⟩
  refine ⟨hfound, ?_⟩
  have hsizes : MEM1_RESERVED_SIZE ≠ MEM2_RESERVED_SIZE := by decide
  have happart := hmem1.apart (h pid).tiles hmem2 hsizes
  rw [hbackend]
  unfold Cell.finish at happart
  simp only [reported]
  omega

/-- A system with the emulator's process behind two others. -/
def sampleSystem : System where
  platform := "win32"
  lower := List.map Char.toLower
  processes := [.hidden, .info (some "explorer.exe".toList) 4, .info (some "DOLPHIN.EXE".toList) 4711]
  openProcess := fun _ _ => .ok ()
  query := fun _ => sampleQuery

theorem attaches_to_the_lowest_mappings_sample :
    sampleSystem.findDolphin = .ok (4711, ⟨⟨0x4014000, 0x2000000⟩, ⟨0x13000, 0x4000000⟩⟩) := by
  have hlaid : ∀ pid, Laid (sampleSystem.query pid) sampleSpace 0x6015000 := fun _ => sample_laid
  refine (attaches_to_the_lowest_mappings hlaid).1.mpr ⟨rfl, ?_, rfl, rfl, ?_⟩
  · exact ⟨[.hidden, .info (some "explorer.exe".toList) 4], [], some "DOLPHIN.EXE".toList, rfl, by decide +kernel,
      by decide +kernel⟩
  · exact ⟨⟨0x4014000, 0x2000000, ⟨MEM_COMMIT, PAGE_READWRITE, MEM_MAPPED⟩⟩,
      ⟨0x13000, 0x4000000, ⟨MEM_COMMIT, PAGE_READWRITE, MEM_MAPPED⟩⟩,
      ⟨by decide, by decide, by decide, by decide⟩, ⟨by decide, by decide, by decide, by decide⟩, rfl⟩

end Attaching

end DolphinRe.RegionWalk
