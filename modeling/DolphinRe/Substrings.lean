import Mathlib.Data.List.Basic
import Mathlib.Tactic.Basic

/-!
# Occurrences of a pattern, whole and in pieces

A text is searched by repeated `find`, one position past the last hit each
time. A long text is searched in chunks of fixed length; the end of a chunk is
carried in front of the next one, at most one element shorter than the pattern
and never longer than a chunk. The chunked search finds the occurrences that
touch at most two consecutive chunks, each once and in order.
-/

namespace DolphinRe.Substrings

variable {α β : Type} [DecidableEq α]

/-- The pattern stands in the text at a position. -/
def OccursAt (pat text : List α) (i : ℕ) : Prop := pat <+: text.drop i

instance (pat text : List α) (i : ℕ) : Decidable (OccursAt pat text i) :=
  inferInstanceAs (Decidable (pat <+: text.drop i))

section Find

variable {pat text : List α}

/-- Position of the first occurrence. -/
def find (pat : List α) : List α → Option ℕ
  | [] => if pat = [] then some 0 else none
  | a :: text => if pat.isPrefixOf (a :: text) then some 0 else (find pat text).map (· + 1)

/-- `text.find(pat, start)`. -/
def findFrom (pat text : List α) (start : ℕ) : Option ℕ :=
  if text.length < start then none else (find pat (text.drop start)).map (start + ·)

/-- Repeat `find` one position past the last hit, and collect the translated hits. -/
def findAll (translate : ℕ → β) (pat text : List α) : ℕ → ℕ → List β → List β
  -- not reached: every turn moves `start` forward inside the text
  | 0, _, hits => hits
  | fuel + 1, start, hits =>
    match findFrom pat text start with
    | none => hits
    | some i => findAll translate pat text fuel (i + 1) (hits ++ [translate i])

omit [DecidableEq α] in
/-- A non-empty pattern needs room. -/
theorem OccursAt.le {i : ℕ} (hpat : pat ≠ []) (h : OccursAt pat text i) :
    i + pat.length ≤ text.length := by
  have hlength := h.length_le
  have hpos : 0 < pat.length := List.length_pos_iff.mpr hpat
  rw [List.length_drop] at hlength
  omega

/-- What is found is the first occurrence. -/
theorem find_some {i : ℕ} (h : find pat text = some i) :
    OccursAt pat text i ∧ ∀ j < i, ¬OccursAt pat text j := by
  induction text generalizing i with
  | nil =>
    unfold find at h
    split_ifs at h with hnil
    have hi : i = 0 := (Option.some.inj h).symm
    subst hi hnil
    exact ⟨List.nil_prefix, fun j hj => by omega⟩
  | cons a text ih =>
    unfold find at h
    split_ifs at h with hhere
    · have hi : i = 0 := (Option.some.inj h).symm
      subst hi
      exact ⟨List.isPrefixOf_iff_prefix.mp hhere, fun j hj => by omega⟩
    · obtain ⟨k, hk, rfl⟩ := Option.map_eq_some_iff.mp h
      obtain ⟨hoccurs, hfirst⟩ := ih hk
      refine ⟨hoccurs, fun j hj => ?_⟩
      cases j with
      | zero => exact fun hzero => hhere (List.isPrefixOf_iff_prefix.mpr hzero)
      | succ j => exact hfirst j (by omega)

/-- Where nothing is found there is none. -/
theorem find_none (h : find pat text = none) (i : ℕ) : ¬OccursAt pat text i ∨ text.length < i := by
  induction text generalizing i with
  | nil =>
    unfold find at h
    split_ifs at h with hnil
    refine Or.inl fun hoccurs => hnil ?_
    unfold OccursAt at hoccurs
    rw [List.drop_nil] at hoccurs
    exact List.prefix_nil.mp hoccurs
  | cons a text ih =>
    unfold find at h
    split_ifs at h with hhere
    rw [Option.map_eq_none_iff] at h
    cases i with
    | zero => exact Or.inl fun hzero => hhere (List.isPrefixOf_iff_prefix.mpr hzero)
    | succ i =>
      rcases ih h i with hrest | hrest
      · exact Or.inl hrest
      · exact Or.inr (by rw [List.length_cons]; omega)

/-- From a position on, it is the first one there. -/
theorem findFrom_some {i start : ℕ} (h : findFrom pat text start = some i) :
    start ≤ i ∧ OccursAt pat text i ∧ ∀ j, start ≤ j → j < i → ¬OccursAt pat text j := by
  unfold findFrom at h
  split_ifs at h
  obtain ⟨k, hk, rfl⟩ := Option.map_eq_some_iff.mp h
  obtain ⟨hoccurs, hfirst⟩ := find_some hk
  unfold OccursAt at hoccurs hfirst ⊢
  rw [List.drop_drop] at hoccurs
  refine ⟨by omega, hoccurs, fun j hle hlt => ?_⟩
  have hearlier := hfirst (j - start) (by omega)
  rw [List.drop_drop] at hearlier
  have hj : start + (j - start) = j := by omega
  rw [hj] at hearlier
  exact hearlier

/-- Where nothing is found there is none behind the position. -/
theorem findFrom_none {start : ℕ} (hpat : pat ≠ []) (h : findFrom pat text start = none) :
    ∀ j, start ≤ j → ¬OccursAt pat text j := by
  intro j hle hoccurs
  have hroom := hoccurs.le hpat
  have hpos : 0 < pat.length := List.length_pos_iff.mpr hpat
  unfold findFrom at h
  split_ifs at h with hstart
  · omega
  · rw [Option.map_eq_none_iff] at h
    rcases find_none h (j - start) with hnone | hlong
    · unfold OccursAt at hoccurs hnone
      rw [List.drop_drop] at hnone
      have hj : start + (j - start) = j := by omega
      rw [hj] at hnone
      exact hnone hoccurs
    · rw [List.length_drop] at hlong
      omega

/-- The positions from `start` on, in order. -/
def positionsFrom (pat text : List α) (start : ℕ) : List ℕ :=
  (List.range' start (text.length - start)).filter fun i => OccursAt pat text i

/-- The positions listed are those of the occurrences. -/
theorem mem_positionsFrom {start i : ℕ} (hpat : pat ≠ []) :
    i ∈ positionsFrom pat text start ↔ start ≤ i ∧ OccursAt pat text i := by
  unfold positionsFrom
  rw [List.mem_filter, List.mem_range'_1, decide_eq_true_eq]
  constructor
  · rintro ⟨⟨hle, -⟩, hoccurs⟩
    exact ⟨hle, hoccurs⟩
  · rintro ⟨hle, hoccurs⟩
    have hroom := hoccurs.le hpat
    have hpos : 0 < pat.length := List.length_pos_iff.mpr hpat
    exact ⟨⟨hle, by omega⟩, hoccurs⟩

/-- They are listed in order. -/
theorem sorted_positionsFrom (pat text : List α) (start : ℕ) :
    (positionsFrom pat text start).Pairwise (· < ·) :=
  (List.pairwise_lt_range' _).filter _

/-- The next position is the first of the remaining ones. -/
theorem positionsFrom_of_some {start i : ℕ} (hpat : pat ≠ []) (h : findFrom pat text start = some i) :
    positionsFrom pat text start = i :: positionsFrom pat text (i + 1) := by
  obtain ⟨hle, hoccurs, hfirst⟩ := findFrom_some h
  have hroom := hoccurs.le hpat
  have hpos : 0 < pat.length := List.length_pos_iff.mpr hpat
  have hbefore : text.length - start = (i - start) + (text.length - i) := by omega
  have hafter : text.length - i = (text.length - (i + 1)) + 1 := by omega
  have hi : start + (i - start) = i := by omega
  have hnone : (List.range' start (i - start)).filter (fun j => OccursAt pat text j) = [] := by
    rw [List.filter_eq_nil_iff]
    intro j hj
    rw [List.mem_range'_1] at hj
    rw [decide_eq_true_eq]
    exact hfirst j hj.1 (by omega)
  unfold positionsFrom
  rw [hbefore, ← List.range'_append_1, List.filter_append, hnone, List.nil_append, hi, hafter,
    List.range'_succ, List.filter_cons_of_pos (by simpa using hoccurs)]

/-- Where nothing is found none is listed. -/
theorem positionsFrom_of_none {start : ℕ} (hpat : pat ≠ []) (h : findFrom pat text start = none) :
    positionsFrom pat text start = [] := by
  rw [List.eq_nil_iff_forall_not_mem]
  intro i hi
  obtain ⟨hle, hoccurs⟩ := (mem_positionsFrom hpat).mp hi
  exact findFrom_none hpat h i hle hoccurs

/-- With enough turns every position from `start` on is collected, in order. -/
theorem findAll_eq (translate : ℕ → β) (hpat : pat ≠ []) {fuel start : ℕ}
    (hfuel : text.length < fuel + start) (hits : List β) :
    findAll translate pat text fuel start hits = hits ++ (positionsFrom pat text start).map translate := by
  induction fuel generalizing start hits with
  | zero =>
    have hlong : text.length - start = 0 := by omega
    simp [findAll, positionsFrom, hlong]
  | succ fuel ih =>
    unfold findAll
    cases hfind : findFrom pat text start with
    | none =>
      rw [positionsFrom_of_none hpat hfind]
      simp
    | some i =>
      have hle := (findFrom_some hfind).1
      dsimp only
      rw [ih (by omega), positionsFrom_of_some hpat hfind]
      simp

end Find

section Chunks

variable {pat text : List α} {chunk : ℕ}

/-- `piece[-k:] if k > 0 else b""`. -/
def lastPart (k : ℕ) (piece : List α) : List α := if 0 < k then piece.drop (piece.length - k) else []

/-- An occurrence at a position touches at most two consecutive chunks. -/
def Near (chunk length i : ℕ) : Prop := (i + length - 1) / chunk ≤ i / chunk + 1

instance (chunk length i : ℕ) : Decidable (Near chunk length i) := inferInstanceAs (Decidable (_ ≤ _))

/-- An occurrence inside a window is near. -/
theorem near_of_window {length i k : ℕ} (hchunk : 0 < chunk) (hlow : k * chunk ≤ i + chunk)
    (hhigh : i + length - 1 < (k + 1) * chunk) : Near chunk length i := by
  have hlast : (i + length - 1) / chunk < k + 1 := (Nat.div_lt_iff_lt_mul hchunk).mpr hhigh
  have hfirst : k ≤ (i + chunk) / chunk := (Nat.le_div_iff_mul_le hchunk).mpr hlow
  rw [Nat.add_div_right i hchunk] at hfirst
  unfold Near
  omega

/-- A near occurrence lies inside the window. -/
theorem window_of_near {length i k : ℕ} (hchunk : 0 < chunk) (h : Near chunk length i)
    (hlast : k * chunk ≤ i + length - 1) : k * chunk ≤ i + chunk := by
  have hk : k ≤ (i + length - 1) / chunk := (Nat.le_div_iff_mul_le hchunk).mpr hlast
  have hnext : k ≤ (i + chunk) / chunk := by
    rw [Nat.add_div_right i hchunk]
    exact Nat.le_trans hk h
  exact (Nat.le_div_iff_mul_le hchunk).mp hnext

/-- A pattern no longer than a chunk and one element is never far. -/
theorem near_of_short {length : ℕ} (hchunk : 0 < chunk) (hshort : length ≤ chunk + 1) (i : ℕ) :
    Near chunk length i := by
  have hlast : (i + length - 1) / chunk ≤ (i + chunk) / chunk := Nat.div_le_div_right (by omega)
  rw [Nat.add_div_right i hchunk] at hlast
  exact hlast

omit [DecidableEq α] in
/-- Occurrences in a stretch of the text. -/
theorem occursAt_stretch (hpat : pat ≠ []) (start length i : ℕ) :
    OccursAt pat ((text.drop start).take length) i ↔
      OccursAt pat text (start + i) ∧ i + pat.length ≤ length := by
  have hpos : 0 < pat.length := List.length_pos_iff.mpr hpat
  unfold OccursAt
  rw [List.drop_take, List.drop_drop, List.prefix_take_iff]
  constructor
  · rintro ⟨hstands, hlength⟩
    exact ⟨hstands, by omega⟩
  · rintro ⟨hstands, hlength⟩
    exact ⟨hstands, by omega⟩

/-- Number of elements carried over a boundary. -/
def carry (chunk length cursor : ℕ) : ℕ := if cursor = 0 then 0 else min (length - 1) chunk

/-- The text up to `cursor` has been searched, and the end of the last chunk is carried. -/
structure Searched (chunk : ℕ) (pat text : List α) (cursor : ℕ) (tail : List α) (found : List ℕ) :
    Prop where
  /-- The cursor lies within the text. -/
  inside : cursor ≤ text.length
  /-- But at the end, whole chunks have been searched. -/
  aligned : cursor < text.length → ∃ k, cursor = k * chunk
  /-- But at the end, what is carried is the end of the last chunk. -/
  carried : cursor < text.length → carry chunk pat.length cursor ≤ cursor ∧
    tail = (text.drop (cursor - carry chunk pat.length cursor)).take (carry chunk pat.length cursor)
  /-- The occurrences found are in order. -/
  sorted : found.Pairwise (· < ·)
  /-- They are those that end up to the cursor and start in a chunk near their end. -/
  found : ∀ i, i ∈ found ↔ OccursAt pat text i ∧ i + pat.length ≤ cursor ∧ Near chunk pat.length i

omit [DecidableEq α] in
/-- At first nothing has been searched. -/
theorem searched_start (hpat : pat ≠ []) : Searched chunk pat text 0 [] [] where
  inside := Nat.zero_le _
  aligned _ := ⟨0, (Nat.zero_mul chunk).symm⟩
  carried _ := ⟨Nat.le_refl 0, rfl⟩
  sorted := List.Pairwise.nil
  found i := by
    have hpos : 0 < pat.length := List.length_pos_iff.mpr hpat
    refine iff_of_false List.not_mem_nil fun h => ?_
    have hroom := h.2.1
    omega

omit [DecidableEq α] in
/-- The tail of a full chunk. -/
theorem lastPart_stretch {cursor : ℕ} (hchunk : 0 < chunk)
    (hmore : cursor + chunk < text.length) :
    carry chunk pat.length (cursor + chunk) ≤ cursor + chunk ∧
      lastPart (pat.length - 1) ((text.drop cursor).take chunk) =
        (text.drop (cursor + chunk - carry chunk pat.length (cursor + chunk))).take
          (carry chunk pat.length (cursor + chunk)) := by
  have hcarry : carry chunk pat.length (cursor + chunk) = min (pat.length - 1) chunk := by
    rw [carry, if_neg (by omega)]
  have hlength : ((text.drop cursor).take chunk).length = chunk := by
    rw [List.length_take, List.length_drop]
    omega
  rw [hcarry]
  refine ⟨by omega, ?_⟩
  unfold lastPart
  split_ifs with hpos
  · have hskip : chunk - (pat.length - 1) + cursor = cursor + chunk - min (pat.length - 1) chunk := by
      omega
    have hkeep : chunk - (chunk - (pat.length - 1)) = min (pat.length - 1) chunk := by omega
    rw [hlength, List.drop_take, List.drop_drop, Nat.add_comm cursor, hskip, hkeep]
  · have hzero : min (pat.length - 1) chunk = 0 := by omega
    rw [hzero, List.take_zero]

/-- What is carried is shorter than the pattern, and no longer than a chunk. -/
theorem carry_le (chunk length cursor : ℕ) :
    carry chunk length cursor ≤ length - 1 ∧ carry chunk length cursor ≤ chunk := by
  unfold carry
  split_ifs
  · omega
  · omega

omit [DecidableEq α] in
/-- A stretch of the text and the chunk behind it are one stretch. -/
theorem stretch_append (text : List α) {cursor kept : ℕ} (hkept : kept ≤ cursor) (n : ℕ) :
    (text.drop (cursor - kept)).take kept ++ (text.drop cursor).take n =
      (text.drop (cursor - kept)).take (kept + n) := by
  have hcursor : cursor - kept + kept = cursor := by omega
  rw [List.take_add, List.drop_drop, hcursor]

/-- What the search of a tail and a chunk adds. -/
theorem mem_hits {cursor kept n : ℕ} (hpat : pat ≠ []) (hkept : kept ≤ cursor)
    (hshort : kept ≤ pat.length - 1) (i : ℕ) :
    (i ∈ (positionsFrom pat ((text.drop (cursor - kept)).take (kept + n)) 0).map
        fun i => cursor + i - kept) ↔
      OccursAt pat text i ∧ cursor < i + pat.length ∧ i + pat.length ≤ cursor + n ∧
        cursor ≤ i + kept := by
  have hpos : 0 < pat.length := List.length_pos_iff.mpr hpat
  rw [List.mem_map]
  constructor
  · rintro ⟨j, hj, rfl⟩
    obtain ⟨-, hoccurs⟩ := (mem_positionsFrom hpat).mp hj
    obtain ⟨htext, hroom⟩ := (occursAt_stretch hpat _ _ _).mp hoccurs
    have hposition : cursor + j - kept = cursor - kept + j := by omega
    rw [hposition]
    exact ⟨htext, by omega, by omega, by omega⟩
  · rintro ⟨hoccurs, -, hroom, hlow⟩
    have hposition : cursor - kept + (i - (cursor - kept)) = i := by omega
    refine ⟨i - (cursor - kept), (mem_positionsFrom hpat).mpr ⟨Nat.zero_le _, ?_⟩, by omega⟩
    rw [occursAt_stretch hpat, hposition]
    exact ⟨hoccurs, by omega⟩

/-- One more chunk. -/
theorem Searched.next {cursor n : ℕ} {tail : List α} {found : List ℕ} (hpat : pat ≠ [])
    (hchunk : 0 < chunk) (h : Searched chunk pat text cursor tail found) (hmore : cursor < text.length)
    (hn : n = min chunk (text.length - cursor)) :
    Searched chunk pat text (cursor + n) (lastPart (pat.length - 1) ((text.drop cursor).take n))
      (found ++ (positionsFrom pat (tail ++ (text.drop cursor).take n) 0).map
        fun i => cursor + i - tail.length) := by
  have hpos : 0 < pat.length := List.length_pos_iff.mpr hpat
  obtain ⟨k, hk⟩ := h.aligned hmore
  obtain ⟨hle, htail⟩ := h.carried hmore
  have hsucc : (k + 1) * chunk = cursor + chunk := by rw [Nat.succ_mul, hk]
  have hcarry := carry_le chunk pat.length cursor
  have htailLength : tail.length = carry chunk pat.length cursor := by
    rw [htail, List.length_take, List.length_drop]
    omega
  have hnew : ∀ i, _ ↔ _ := @mem_hits α _ pat text cursor _ n hpat hle hcarry.1
  rw [htailLength, htail, stretch_append text hle]
  refine ⟨by omega, fun hleft => ⟨k + 1, ?_⟩, fun hleft => ?_, ?_, fun i => ?_⟩
  · omega
  · have hfull : n = chunk := by omega
    rw [hfull] at hleft ⊢
    exact lastPart_stretch hchunk hleft
  · rw [List.pairwise_append]
    refine ⟨h.sorted, ?_, fun i hi j hj => ?_⟩
    · rw [List.pairwise_map]
      exact (sorted_positionsFrom _ _ _).imp fun hlt => by omega
    · have hbefore := ((h.found i).mp hi).2.1
      have hafter := ((hnew j).mp hj).2.1
      omega
  · rw [List.mem_append, h.found, hnew]
    constructor
    · rintro (⟨hoccurs, hroom, hnear⟩ | ⟨hoccurs, hlow, hroom, hstart⟩)
      · exact ⟨hoccurs, by omega, hnear⟩
      · exact ⟨hoccurs, hroom, near_of_window (k := k) hchunk (by omega) (by omega)⟩
    · rintro ⟨hoccurs, hroom, hnear⟩
      by_cases hbefore : i + pat.length ≤ cursor
      · exact Or.inl ⟨hoccurs, hbefore, hnear⟩
      · refine Or.inr ⟨hoccurs, by omega, hroom, ?_⟩
        have hwindow := window_of_near (k := k) hchunk hnear (by omega)
        unfold carry
        split_ifs
        · omega
        · omega

omit [DecidableEq α] in
/-- The whole text has been searched: what is found is every occurrence that is near. -/
theorem Searched.done {tail : List α} {found : List ℕ} (hpat : pat ≠ [])
    (h : Searched chunk pat text text.length tail found) (i : ℕ) :
    i ∈ found ↔ OccursAt pat text i ∧ Near chunk pat.length i := by
  rw [h.found]
  constructor
  · rintro ⟨hoccurs, -, hnear⟩
    exact ⟨hoccurs, hnear⟩
  · rintro ⟨hoccurs, hnear⟩
    exact ⟨hoccurs, hoccurs.le hpat, hnear⟩

end Chunks

end DolphinRe.Substrings
