import DolphinRe.HostedMemory

/-!
# Dumps and differences

A snapshot writes each region from its first byte, and the comparison reads the
file at the distance of an address from the start of its region. A comparison
with a dump lists exactly the bytes that changed since.
-/

namespace DolphinRe.MemoryDumps

open PythonText GdbWire GdbTokens EffectProgram SessionMachine GdbClient SessionTools LinkRefinement
  StubBehaviour MemoryWindows MemoryBackends MemoryTools HostedMemory

variable {τ C W : Type} {M : Machine (signature τ) C W} {I : W → Prop} {memory : ℤ → UInt8}
  {read : Reader τ} {w : W}

/-- The file of a region among the two that a snapshot returns. -/
def fileOf (paths : Str × Str) : Region → Str
  | .mem1 => paths.1
  | .mem2 => paths.2

/-- A comparison returned the bytes of a range that differ, in order of their addresses. -/
def Lists (live saved : ℤ → UInt8) (addr size : ℤ) (r : Except PyError (List DiffEntry)) : Prop :=
  ∃ entries, r = .ok entries ∧ entries.Pairwise (fun x y => x.addr < y.addr) ∧
    ∀ entry, entry ∈ entries ↔ ∃ a, addr ≤ a ∧ a < addr + size ∧ live a ≠ saved a ∧
      entry = ⟨(a - addr).toNat, a, live a, saved a⟩

section Snapshot

theorem mem1Path_ne_mem2Path (dir safe : Str) : mem1Path dir safe ≠ mem2Path dir safe := by
  intro h
  have hnames := List.append_cancel_left h
  exact absurd (List.append_cancel_left hnames) (by decide)

theorem write_files {disk after : Disk} {path : Str} {blob : List UInt8}
    (h : disk.write path blob = .ok after) (other : Str) :
    after.files other = if other = path then some blob else disk.files other := by
  unfold Disk.write at h
  split_ifs at h
  cases h
  rfl

/-- Write one file; the disk stays as it is when that fails. -/
def stored (disk : Disk) (path : Str) (blob : List UInt8) : Except PyError Unit × Disk :=
  match disk.write path blob with
  | .error e => (.error e, disk)
  | .ok after => (.ok (), after)

/-- The snapshot of a memory. -/
def snapshotOf (memory : ℤ → UInt8) (isalnum : Char → Bool) (dumpsDir : Option Str) (scenario : Str)
    (disk : Disk) : Except PyError (Str × Str) × Disk :=
  match prepareDump isalnum dumpsDir scenario disk with
  | .error e => (.error e, disk)
  | .ok (dir, safe) =>
    match stored disk (mem1Path dir safe) (content memory .mem1) with
    | (.error e, disk) => (.error e, disk)
    | (.ok (), disk) =>
      match stored disk (mem2Path dir safe) (content memory .mem2) with
      | (.error e, disk) => (.error e, disk)
      | (.ok (), disk) => (.ok (mem1Path dir safe, mem2Path dir safe), disk)

/-- A region is read and stored. -/
theorem wp_dumpRegion (hserving : Serving M I memory read) (region : Region) (path : Str) (disk : Disk)
    (hw : I w) : (dumpRegion read (base region) (length region) path disk).wp M
      (fun r v => r = .ok (stored disk path (content memory region)) ∧ I v) w := by
  have hspans : Spans region (base region) (length region) := by
    cases region with
    | mem1 => exact ⟨by decide, by decide, by decide⟩
    | mem2 => exact ⟨by decide, by decide, by decide⟩
  unfold dumpRegion
  rw [Program.bind_eq, Program.wp_bind, Program.wp_attempt]
  refine Program.wp_mono ?_ (hserving region _ _ w hspans hw)
  rintro r v ⟨rfl, hv⟩
  rw [Program.onValue_ok]
  have hbytes : window memory (base region) ((length region : ℕ) : ℤ).toNat = content memory region := rfl
  dsimp only
  rw [hbytes]
  unfold stored
  cases disk.write path (content memory region) with
  | error e => exact ⟨rfl, hv⟩
  | ok after => exact ⟨rfl, hv⟩

/-- A snapshot stores both regions. -/
theorem wp_snapshotToDump (hserving : Serving M I memory read) (isalnum : Char → Bool)
    (dumpsDir : Option Str) (scenario : Str) (disk : Disk) (hw : I w) :
    (snapshotToDump read isalnum dumpsDir scenario disk).wp M
      (fun r _ => r = .ok (snapshotOf memory isalnum dumpsDir scenario disk)) w := by
  unfold snapshotToDump snapshotOf
  cases prepareDump isalnum dumpsDir scenario disk with
  | error e => rfl
  | ok prepared =>
    obtain ⟨dir, safe⟩ := prepared
    dsimp only
    rw [Program.bind_eq, Program.wp_bind]
    refine Program.wp_mono ?_ (wp_dumpRegion hserving .mem1 (mem1Path dir safe) disk hw)
    rintro r v ⟨rfl, hv⟩
    rw [Program.onValue_ok]
    obtain ⟨first, disk₁⟩ := stored disk (mem1Path dir safe) (content memory .mem1)
    cases first with
    | error e => rfl
    | ok _ =>
      dsimp only
      rw [Program.bind_eq, Program.wp_bind]
      refine Program.wp_mono ?_ (wp_dumpRegion hserving .mem2 (mem2Path dir safe) disk₁ hv)
      rintro r v ⟨rfl, -⟩
      rw [Program.onValue_ok]
      obtain ⟨second, disk₂⟩ := stored disk₁ (mem2Path dir safe) (content memory .mem2)
      cases second with
      | error e => rfl
      | ok _ => rfl

theorem stored_ok {disk after : Disk} {path : Str} {blob : List UInt8}
    (h : stored disk path blob = (.ok (), after)) (other : Str) :
    after.files other = if other = path then some blob else disk.files other := by
  unfold stored at h
  cases hwrite : disk.write path blob with
  | error e =>
    rw [hwrite] at h
    simp at h
  | ok written =>
    rw [hwrite] at h
    simp only [Prod.mk.injEq, true_and] at h
    rw [← h]
    exact write_files hwrite other

/-- A snapshot that returns has filled the files of both regions. -/
theorem snapshot_files {isalnum : Char → Bool} {dumpsDir : Option Str} {scenario : Str}
    {disk after : Disk} {paths : Str × Str}
    (h : snapshotOf memory isalnum dumpsDir scenario disk = (.ok paths, after)) (region : Region) :
    after.files (fileOf paths region) = some (content memory region) := by
  unfold snapshotOf at h
  cases hprepared : prepareDump isalnum dumpsDir scenario disk with
  | error e =>
    rw [hprepared] at h
    simp at h
  | ok prepared =>
    obtain ⟨dir, safe⟩ := prepared
    rw [hprepared] at h
    dsimp only at h
    split at h
    · simp at h
    · rename_i disk₁ hfirst
      split at h
      · simp at h
      · rename_i disk₂ hsecond
        simp only [Prod.mk.injEq, Except.ok.injEq] at h
        obtain ⟨rfl, rfl⟩ := h
        have hne := mem1Path_ne_mem2Path dir safe
        cases region with
        | mem1 => rw [fileOf, stored_ok hsecond, if_neg hne, stored_ok hfirst, if_pos rfl]
        | mem2 => rw [fileOf, stored_ok hsecond, if_pos rfl]

end Snapshot

section Comparison

variable {live saved : ℤ → UInt8} {region : Region} {addr size : ℤ}

/-- The comparison of two windows. -/
theorem differences_windows (addr : ℤ) (n : ℕ) (live saved : ℤ → UInt8) :
    differences addr (window live addr n) (window saved addr n) = (List.range n).filterMap fun i : ℕ =>
      if live (addr + i) ≠ saved (addr + i) then
        some ⟨i, addr + i, live (addr + i), saved (addr + i)⟩ else none := by
  have hzip : ((window live addr n).zip (window saved addr n)).zipIdx =
      (List.range n).map fun i : ℕ => ((live (addr + i), saved (addr + i)), i) := by
    refine List.ext_getElem (by simp) fun i hi hi' => ?_
    simp [window]
  unfold differences
  rw [hzip, List.filterMap_map]
  rfl

theorem lists_differences (addr size : ℤ) (live saved : ℤ → UInt8) : Lists live saved addr size
    (.ok (differences addr (window live addr size.toNat) (window saved addr size.toNat))) := by
  rw [differences_windows]
  refine ⟨_, rfl, ?_, fun entry => ?_⟩
  · rw [List.pairwise_filterMap]
    refine List.pairwise_lt_range.imp fun {i j} hlt x hx y hy => ?_
    split_ifs at hx hy
    cases hx
    cases hy
    dsimp only
    omega
  · rw [List.mem_filterMap]
    constructor
    · rintro ⟨i, hi, hentry⟩
      rw [List.mem_range] at hi
      split_ifs at hentry with hdiffers
      have hindex : (addr + (i : ℤ) - addr).toNat = i := by omega
      refine ⟨addr + i, by omega, by omega, hdiffers, ?_⟩
      rw [hindex]
      exact (Option.some.inj hentry).symm
    · rintro ⟨a, hlow, hhigh, hdiffers, rfl⟩
      have hindex : addr + ((a - addr).toNat : ℤ) = a := by omega
      refine ⟨(a - addr).toNat, by rw [List.mem_range]; omega, ?_⟩
      rw [hindex, if_pos hdiffers]

/-- The part of a dump that is compared. -/
theorem dumped_part (hspans : Spans region addr size) :
    ((content saved region).drop (addr - base region).toNat).take size.toNat =
      window saved addr size.toNat := by
  obtain ⟨hpositive, habove, hbelow⟩ := hspans
  have haddr : base region + ((addr - base region).toNat : ℤ) = addr := by omega
  unfold content
  rw [window_part saved (base region) (by omega), haddr]

/-- A comparison with the dump of a region. -/
theorem wp_diffLiveVsDump (hserving : Serving M I live read) (hspans : Spans region addr size)
    {path : Str} {disk : Disk} (hfile : disk.files path = some (content saved region)) (hw : I w) :
    (diffLiveVsDump read addr size path disk).wp M (fun r _ => Lists live saved addr size r) w := by
  obtain ⟨left, hroute⟩ := route_spans hspans
  have hlength : (content saved region).length = length region := length_window _ _ _
  have hfits : ¬((content saved region).length : ℤ) < addr - base region + size := by
    have hbelow := hspans.below
    rw [hlength]
    omega
  unfold diffLiveVsDump
  rw [hfile]
  dsimp only
  rw [Program.bind_eq, Program.wp_bind, Program.wp_ofExcept, hroute, Program.onValue_ok]
  dsimp only
  rw [if_neg hfits, Program.bind_eq, Program.wp_bind]
  refine Program.wp_mono ?_ (hserving region addr size w hspans hw)
  rintro r v ⟨rfl, -⟩
  rw [Program.onValue_ok, dumped_part hspans]
  exact lists_differences addr size live saved

/-- A range that is not inside one region is never compared. -/
theorem wp_diff_outside (hout : ∀ region, ¬Spans region addr size) (path : Str) (disk : Disk) (w : W) :
    (diffLiveVsDump read addr size path disk).wp M (fun r _ => ∃ e, r = .error e) w := by
  unfold diffLiveVsDump
  cases disk.files path with
  | none => exact ⟨_, rfl⟩
  | some blob =>
    dsimp only
    rw [Program.bind_eq, Program.wp_bind, Program.wp_ofExcept]
    cases hroute : route addr size with
    | error e => exact ⟨e, rfl⟩
    | ok routed => exact absurd (spans_of_route hroute).1 (hout _)

end Comparison

section Agreement

variable {M' : Machine (signature τ) C W} {I' : W → Prop} {live saved : ℤ → UInt8} {v w' v' : W}
  {isalnum : Char → Bool} {dumpsDir : Option Str} {scenario : Str} {disk after later : Disk}
  {paths : Str × Str} {addr size : ℤ} {r : Except PyError (List DiffEntry)}

/-- A comparison with the file a snapshot wrote for a region lists exactly the bytes of the range
that have changed since, and raises when the range is not inside one region. -/
theorem diff_agrees_with_snapshot (region : Region) (hsaved : Serving M I saved read)
    (hlive : Serving M' I' live read) (hw : I w) (hw' : I' w')
    (hsnapshot : (snapshotToDump read isalnum dumpsDir scenario disk).Reaches M w (.ok (.ok paths, after)) v)
    (hkept : later.files (fileOf paths region) = after.files (fileOf paths region))
    (hdiff : (diffLiveVsDump read addr size (fileOf paths region) later).Reaches M' w' r v') :
    (Spans region addr size → Lists live saved addr size r ∧
      ((∀ a, addr ≤ a → a < addr + size → live a = saved a) → r = .ok [])) ∧
    ((∀ region, ¬Spans region addr size) → ∃ e, r = .error e) := by
  have hfile : later.files (fileOf paths region) = some (content saved region) := by
    rw [hkept]
    have hresult := Program.reaches_of_wp (wp_snapshotToDump hsaved isalnum dumpsDir scenario disk hw)
      hsnapshot
    exact snapshot_files (Except.ok.inj hresult).symm region
  constructor
  · intro hspans
    have hlists := Program.reaches_of_wp (wp_diffLiveVsDump hlive hspans hfile hw') hdiff
    refine ⟨hlists, fun hsame => ?_⟩
    obtain ⟨entries, rfl, -, hmem⟩ := hlists
    congr 1
    rw [List.eq_nil_iff_forall_not_mem]
    intro entry hentry
    obtain ⟨a, hlow, hhigh, hdiffers, -⟩ := (hmem entry).mp hentry
    exact hdiffers (hsame a hlow hhigh)
  · exact fun hout => Program.reaches_of_wp (wp_diff_outside hout _ later w') hdiff

/-- A disk that takes every file. -/
def openDisk : Disk := ⟨fun _ => none, fun _ => true, fun _ => true⟩

/-- One byte of MEM2 changes between the snapshot and the comparison. -/
theorem diff_agrees_with_snapshot_changed : ∃ (paths : Str × Str) (after : Disk) (v : TokenWorld)
    (r : Except PyError (List DiffEntry)) (v' : TokenWorld),
    (snapshotToDump readMemory Char.isAlphanum (some "dumps".toList) "before".toList openDisk).Reaches
        (disciplined (tokenLink Origin) (Hosts fun _ => 0)) attachedWorld (.ok (.ok paths, after)) v ∧
      (diffLiveVsDump readMemory 0x90000000 16 paths.2 after).Reaches
        (disciplined (tokenLink Origin) (Hosts fun a => if a = 0x90000003 then 1 else 0)) attachedWorld r v' ∧
      Lists (fun a => if a = 0x90000003 then 1 else 0) (fun _ => 0) 0x90000000 16 r := by
  obtain ⟨r₀, v, hsnapshot⟩ := exists_hosted (tokenLink Origin) (fun _ => 0)
    (snapshotToDump readMemory Char.isAlphanum (some "dumps".toList) "before".toList openDisk) attachedWorld
  have hattached : Attached attachedWorld := ⟨by decide, rfl⟩
  have hresult := Program.reaches_of_wp (wp_snapshotToDump (serving_hosts (tokenLink Origin) fun _ => 0)
    Char.isAlphanum (some "dumps".toList) "before".toList openDisk hattached) hsnapshot
  obtain ⟨paths, after, hok⟩ : ∃ paths after, snapshotOf (fun _ => 0) Char.isAlphanum
      (some "dumps".toList) "before".toList openDisk = (.ok paths, after) := ⟨_, _, rfl⟩
  rw [hok] at hresult
  subst hresult
  obtain ⟨r, v', hdiff⟩ := exists_hosted (tokenLink Origin) (fun a => if a = 0x90000003 then 1 else 0)
    (diffLiveVsDump readMemory 0x90000000 16 paths.2 after) attachedWorld
  exact ⟨paths, after, v, r, v', hsnapshot, hdiff, ((diff_agrees_with_snapshot .mem2 (serving_hosts _ _)
    (serving_hosts _ _) hattached hattached hsnapshot rfl hdiff).1
      ⟨by decide, by decide, by decide⟩).1⟩

end Agreement

end DolphinRe.MemoryDumps
