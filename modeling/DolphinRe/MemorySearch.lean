import DolphinRe.HostedMemory

/-!
# The memory search

The chunks of a region are searched one after the other, with the end of the
previous chunk in front. What is carried never exceeds one chunk, so the search
finds exactly the occurrences that touch at most two consecutive chunks.
-/

namespace DolphinRe.MemorySearch

open PythonText GdbWire GdbTokens EffectProgram SessionMachine GdbClient SessionTools LinkRefinement
  StubBehaviour MemoryWindows MemoryPackets MemoryBackends Substrings MemoryTools HostedMemory

variable {τ C W : Type} {M : Machine (signature τ) C W} {I : W → Prop} {memory : ℤ → UInt8}
  {read : Reader τ} {region : Region} {pat : List UInt8} {w : W}

/-- The pattern stands at an address, entirely inside the region. -/
def Occurs (memory : ℤ → UInt8) (region : Region) (pat : List UInt8) (v : ℤ) : Prop :=
  base region ≤ v ∧ v + pat.length ≤ base region + length region ∧ window memory v pat.length = pat

/-- A search returned the addresses of all occurrences, each once and in order. -/
def Exact (memory : ℤ → UInt8) (region : Region) (pat : List UInt8) (r : Except PyError (List ℤ)) : Prop :=
  ∃ hits, r = .ok hits ∧ hits.Pairwise (· < ·) ∧ ∀ v, v ∈ hits ↔ Occurs memory region pat v

section Chunks

/-- The pattern stands in the bytes of a region where it stands in memory. -/
theorem occursAt_content (hpat : pat ≠ []) (i : ℕ) :
    OccursAt pat (content memory region) i ↔ Occurs memory region pat (base region + i) := by
  have hpos : 0 < pat.length := List.length_pos_iff.mpr hpat
  have hlength : (content memory region).length = length region := length_window _ _ _
  constructor
  · intro h
    have hroom := h.le hpat
    rw [hlength] at hroom
    refine ⟨by omega, by omega, ?_⟩
    rw [← window_part memory (base region) hroom]
    exact (List.prefix_iff_eq_take.mp h).symm
  · rintro ⟨-, hroom, hwindow⟩
    have hfits : i + pat.length ≤ length region := by omega
    unfold OccursAt content
    rw [List.prefix_iff_eq_take, window_part memory (base region) hfits, hwindow]

/-- Positions in the buffer are translated to addresses. -/
theorem translated_hits (hpat : pat ≠ []) {cursor : ℕ} {tail : List UInt8} (hle : tail.length ≤ cursor)
    (found : List ℕ) (chunk : List UInt8) :
    findAll (fun i => base region + cursor + ((i : ℤ) - tail.length)) pat (tail ++ chunk)
        ((tail ++ chunk).length + 1) 0 (found.map fun i : ℕ => base region + (i : ℤ)) =
      (found ++ (positionsFrom pat (tail ++ chunk) 0).map fun i => cursor + i - tail.length).map
        fun i : ℕ => base region + (i : ℤ) := by
  rw [findAll_eq _ hpat (by omega), List.map_append, List.map_map]
  congr 1
  refine List.map_congr_left fun i _ => ?_
  rw [Function.comp_apply]
  omega

/-- The chunks from a cursor on: the search keeps what it has found and finds the rest. -/
theorem wp_searchChunks (hserving : Serving M I memory read) (hpat : pat ≠ []) {cursor : ℕ}
    {tail : List UInt8} {found : List ℕ}
    (hsearched : Searched CHUNK pat (content memory region) cursor tail found) (hw : I w) :
    (searchChunks read (base region) (length region) pat cursor tail
        (found.map fun i : ℕ => base region + (i : ℤ))).wp M
      (fun r v => (∃ all tail, Searched CHUNK pat (content memory region) (length region) tail all ∧
        r = .ok (all.map fun i : ℕ => base region + (i : ℤ))) ∧ I v) w := by
  have hlength : (content memory region).length = length region := length_window _ _ _
  have hchunk : 0 < CHUNK := by decide
  generalize hleft : length region - cursor = left
  induction left using Nat.strongRecOn generalizing cursor tail found w with
  | _ left ih =>
    have hinside := hsearched.inside
    rw [hlength] at hinside
    rw [searchChunks]
    split_ifs with hmore
    · have hn : min CHUNK (length region - cursor) =
          min CHUNK ((content memory region).length - cursor) := by rw [hlength]
      generalize min CHUNK (length region - cursor) = n at hn ⊢
      have hspans : Spans region (base region + cursor) n := ⟨by omega, by omega, by omega⟩
      have hcarried := (hsearched.carried (by omega)).1
      have htail : tail.length ≤ cursor := by
        rw [(hsearched.carried (by omega)).2, List.length_take]
        omega
      have hpart : window memory (base region + cursor) ((n : ℕ) : ℤ).toNat =
          ((content memory region).drop cursor).take n :=
        (window_part memory (base region) (by omega)).symm
      rw [Program.bind_eq, Program.wp_bind]
      refine Program.wp_mono ?_ (hserving region (base region + cursor) n w hspans hw)
      rintro r v ⟨rfl, hv⟩
      rw [Program.onValue_ok, hpart]
      dsimp only
      rw [translated_hits hpat htail]
      exact ih _ (by omega) (hsearched.next hpat hchunk (by omega) hn) hv rfl
    · have hend : cursor = length region := by omega
      subst hend
      exact ⟨⟨found, tail, hsearched, rfl⟩, hw⟩

/-- A search is exact when every occurrence is near, and only then. -/
theorem exact_iff_near (hpat : pat ≠ []) {all : List ℕ} {tail : List UInt8}
    (h : Searched CHUNK pat (content memory region) (length region) tail all) :
    Exact memory region pat (.ok (all.map fun i : ℕ => base region + (i : ℤ))) ↔
      ∀ v, Occurs memory region pat v → Near CHUNK pat.length (v - base region).toNat := by
  have hlength : (content memory region).length = length region := length_window _ _ _
  have hdone : ∀ i, i ∈ all ↔ OccursAt pat (content memory region) i ∧ Near CHUNK pat.length i := by
    rw [← hlength] at h
    exact h.done hpat
  have hmem : ∀ v, v ∈ (all.map fun i : ℕ => base region + (i : ℤ)) ↔
      Occurs memory region pat v ∧ Near CHUNK pat.length (v - base region).toNat := by
    intro v
    rw [List.mem_map]
    constructor
    · rintro ⟨i, hi, rfl⟩
      have hindex : (base region + (i : ℤ) - base region).toNat = i := by omega
      rw [hindex, ← occursAt_content hpat]
      exact (hdone i).mp hi
    · rintro ⟨hoccurs, hnear⟩
      have habove := hoccurs.1
      have hindex : base region + ((v - base region).toNat : ℤ) = v := by omega
      refine ⟨(v - base region).toNat, (hdone _).mpr ⟨?_, hnear⟩, hindex⟩
      rw [occursAt_content hpat, hindex]
      exact hoccurs
  constructor
  · rintro ⟨hits, hhits, -, hexact⟩ v hoccurs
    rw [← Except.ok.inj hhits] at hexact
    exact ((hmem v).mp ((hexact v).mpr hoccurs)).2
  · intro hnear
    refine ⟨_, rfl, ?_, fun v => ?_⟩
    · rw [List.pairwise_map]
      exact h.sorted.imp fun hlt => by omega
    · rw [hmem]
      exact ⟨fun hv => hv.1, fun hoccurs => ⟨hoccurs, hnear v hoccurs⟩⟩

end Chunks

section Search

variable {patternHex name : Str}

/-- Every search of a region returns, and is exact when every occurrence is near, and only then. -/
theorem wp_searchMem (region : Region) (hserving : Serving M I memory read) (hpat : pat ≠ [])
    (hpattern : fromHex patternHex = some pat)
    (hname : namedRegion name = .ok (base region, length region)) (hw : I w) :
    (searchMem read patternHex name).wp M (fun r _ => Exact memory region pat r ↔
      ∀ v, Occurs memory region pat v → Near CHUNK pat.length (v - base region).toNat) w := by
  unfold searchMem
  have hraise : fromHexOrRaise patternHex = .ok pat := by rw [fromHexOrRaise, hpattern]
  rw [Program.bind_eq, Program.wp_bind, Program.wp_ofExcept, hraise, Program.onValue_ok]
  rw [if_neg hpat, hname]
  change (searchChunks read (base region) (length region) pat 0 [] []).wp M _ w
  have hstart : Searched CHUNK pat (content memory region) 0 [] [] := searched_start hpat
  refine Program.wp_mono ?_ (wp_searchChunks hserving hpat hstart hw)
  rintro r v ⟨⟨all, tail, hsearched, rfl⟩, -⟩
  exact exact_iff_near hpat hsearched

/-- The search of a region that is read truthfully returns every occurrence once and in order,
exactly when no occurrence touches more than two consecutive chunks. -/
theorem search_exact_iff_near (region : Region) (hserving : Serving M I memory read)
    (hname : namedRegion name = .ok (base region, length region))
    (hpattern : fromHex patternHex = some pat) (hpat : pat ≠ []) (hw : I w)
    {r : Except PyError (List ℤ)} {v : W} (hreach : (searchMem read patternHex name).Reaches M w r v) :
    Exact memory region pat r ↔
      ∀ a, Occurs memory region pat a → Near CHUNK pat.length (a - base region).toNat :=
  Program.reaches_of_wp (wp_searchMem region hserving hpat hpattern hname hw) hreach

end Search

section Samples

/-- Two bytes stand out: the last of the first chunk and the first of the second. -/
def straddling (a : ℤ) : UInt8 := if a = 0x903FFFFF then 42 else if a = 0x90400000 then 43 else 0

/-- Next to an attached process the two bytes are found across the boundary. -/
theorem search_exact_iff_near_boundary :
    ∃ hits v, (searchMem readMemory "2A2B".toList "mem2".toList).Reaches
        (disciplined (tokenLink Origin) (Hosts straddling)) attachedWorld (.ok hits) v ∧
      Exact straddling .mem2 [42, 43] (.ok hits) ∧ 0x903FFFFF ∈ hits := by
  obtain ⟨r, v, hreach⟩ := exists_hosted (tokenLink Origin) straddling
    (searchMem readMemory "2A2B".toList "mem2".toList) attachedWorld
  have hexact : Exact straddling .mem2 [42, 43] r :=
    (search_exact_iff_near .mem2 (serving_hosts _ _) (by decide) (by decide) (by simp)
      ⟨by decide, rfl⟩ hreach).mpr fun a _ => near_of_short (by decide) (by decide) _
  obtain ⟨hits, rfl, hsorted, hmem⟩ := hexact
  have hoccurs : Occurs straddling .mem2 [42, 43] 0x903FFFFF := ⟨by decide, by decide, by decide⟩
  exact ⟨hits, v, hreach, ⟨hits, rfl, hsorted, hmem⟩, (hmem _).mpr hoccurs⟩

/-- The last byte of one chunk to the first byte of the next but one, all zeros. -/
theorem not_exact_of_wide (hlength : pat.length = CHUNK + 2) (hzeros : ∀ b ∈ pat, b = 0)
    {r : Except PyError (List ℤ)} (hnear : Exact (fun _ => 0) .mem1 pat r ↔
      ∀ v, Occurs (fun _ => 0) .mem1 pat v → Near CHUNK pat.length (v - base .mem1).toNat) :
    ¬Exact (fun _ => 0) .mem1 pat r := by
  intro hexact
  have hwindow : window (fun _ => (0 : UInt8)) (base .mem1 + (CHUNK - 1 : ℕ)) pat.length = pat := by
    rw [List.eq_replicate_of_mem hzeros, List.length_replicate]
    unfold window
    rw [List.map_const', List.length_range]
  have hfar := hnear.mp hexact (base .mem1 + (CHUNK - 1 : ℕ))
    ⟨by omega, by rw [hlength]; decide, hwindow⟩
  rw [hlength] at hfar
  exact absurd hfar (by decide)

/-- A pattern longer than a chunk and one byte is missed where it touches three chunks. -/
theorem wide_pattern_is_missed : ∃ (pat : List UInt8) (r : Except PyError (List ℤ)) (v : TokenWorld),
    pat ≠ [] ∧ (searchMem readMemory (toHex pat) "MEM1".toList).Reaches
        (disciplined (tokenLink Origin) (Hosts fun _ => 0)) attachedWorld r v ∧
      ¬Exact (fun _ => 0) .mem1 pat r := by
  obtain ⟨pat, hlength, hzeros⟩ : ∃ pat : List UInt8, pat.length = CHUNK + 2 ∧ ∀ b ∈ pat, b = 0 :=
    ⟨List.replicate (CHUNK + 2) 0, List.length_replicate, fun b hb => List.eq_of_mem_replicate hb⟩
  have hpat : pat ≠ [] := List.ne_nil_of_length_pos (by omega)
  obtain ⟨r, v, hreach⟩ := exists_hosted (tokenLink Origin) (fun _ => 0)
    (searchMem readMemory (toHex pat) "MEM1".toList) attachedWorld
  refine ⟨pat, r, v, hpat, hreach, not_exact_of_wide hlength hzeros ?_⟩
  exact Program.reaches_of_wp (wp_searchMem .mem1 (serving_hosts _ _) hpat
    (fromHex_toHex pat) (by decide) ⟨by decide, rfl⟩) hreach

end Samples

end DolphinRe.MemorySearch
