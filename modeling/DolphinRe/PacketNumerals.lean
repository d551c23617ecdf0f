import DolphinRe.GdbPackets

/-!
# Numbers in breakpoint packets

The client prints an address in base sixteen and a size in decimal; the
protocol reads both in base sixteen. The two agree exactly on addresses that
are not negative and on sizes of one decimal digit.
-/

namespace DolphinRe.PacketNumerals

open PythonText GdbPackets

/-- One more digit of a numeral. -/
def addDigit (value : ℕ) (c : Char) : Option ℕ := (hexValue c).map (16 * value + ·)

theorem hexValue_digitChar : ∀ d < 16, hexValue (Nat.digitChar d) = some d := by decide

theorem digitChar_ne_comma : ∀ d < 16, Nat.digitChar d ≠ ',' := by decide

/-- The digits of a number, read in base sixteen. -/
theorem foldlM_toDigits {b : ℕ} (hb : 1 < b) (hb' : b ≤ 16) (n : ℕ) :
    ∃ m, (Nat.toDigits b n).foldlM addDigit 0 = some m ∧ n ≤ m ∧ (b = 16 → m = n) ∧
      (b < 16 → b ≤ n → n < m) := by
  induction n using Nat.strongRecOn with
  | _ n ih =>
    have hstep : ∀ value d, d < 16 → addDigit value (Nat.digitChar d) = some (16 * value + d) := by
      intro value d hd
      simp [addDigit, hexValue_digitChar d hd]
    rw [Nat.toDigits_eq_if hb]
    split_ifs with hn
    · refine ⟨n, ?_, Nat.le_refl n, fun _ => rfl, fun _ h => by omega⟩
      simp [hstep 0 n (by omega)]
    · have hlt : n / b < n := Nat.div_lt_self (by omega) hb
      obtain ⟨m, hm, hle, heq, -⟩ := ih (n / b) hlt
      have hmod : n % b < 16 := Nat.lt_of_lt_of_le (Nat.mod_lt n (by omega)) hb'
      have hdiv : b * (n / b) + n % b = n := Nat.div_add_mod n b
      have hpos : 0 < n / b := Nat.div_pos (by omega) (by omega)
      refine ⟨16 * m + n % b, ?_, ?_, ?_, ?_⟩
      · rw [List.foldlM_append, hm]
        simp [hstep m (n % b) hmod]
      · have h16 : b * (n / b) ≤ 16 * m := Nat.mul_le_mul hb' hle
        omega
      · rintro rfl
        rw [heq rfl]
        omega
      · intro h _
        have h16 : b * (n / b) < 16 * (n / b) := Nat.mul_lt_mul_of_pos_right h hpos
        have hm16 : 16 * (n / b) ≤ 16 * m := Nat.mul_le_mul_left 16 hle
        omega

theorem readNumeral_eq (s : Str) (h : s ≠ []) : readNumeral s = s.foldlM addDigit 0 := by
  rw [readNumeral, if_neg h]
  rfl

/-- An address is read back unless it is negative. -/
theorem readNumeral_formatHex (addr : ℤ) :
    readNumeral (formatHex addr) = if addr < 0 then none else some addr.natAbs := by
  unfold formatHex hexDigits
  split_ifs with h
  · rw [readNumeral_eq _ (by simp), List.foldlM_cons]
    rfl
  · obtain ⟨m, hm, -, heq, -⟩ := foldlM_toDigits (b := 16) (by omega) (Nat.le_refl 16) addr.natAbs
    rw [readNumeral_eq _ Nat.toDigits_ne_nil, hm, heq rfl]

/-- A size is read back when it has one decimal digit, and only then. -/
theorem readNumeral_formatDec (size : ℤ) (n : ℕ) :
    readNumeral (formatDec size) = some n ∧ (n : ℤ) = size ↔ 0 ≤ size ∧ size < 10 ∧ n = size.natAbs := by
  unfold formatDec
  split_ifs with h
  · rw [readNumeral_eq _ (by simp), List.foldlM_cons]
    refine iff_of_false (fun hread => ?_) fun hsize => by omega
    simp [addDigit, hexValue, digitValue] at hread
  · obtain ⟨m, hm, hle, -, hlt⟩ := foldlM_toDigits (b := 10) (by omega) (by omega) size.natAbs
    rw [readNumeral_eq _ Nat.toDigits_ne_nil, hm]
    constructor
    · rintro ⟨hread, hn⟩
      have hmn : m = n := Option.some.inj hread
      have hsmall : ¬10 ≤ size.natAbs := fun hbig => by
        have := hlt (by omega) hbig
        omega
      omega
    · rintro ⟨h0, h10, rfl⟩
      have hm' : m = size.natAbs := by
        rw [Nat.toDigits_of_lt_base (by omega)] at hm
        have hdigit := hexValue_digitChar size.natAbs (by omega)
        simp [addDigit, hdigit] at hm
        exact hm.symm
      exact ⟨by rw [hm'], by omega⟩

/-- What holds of the sixteen digits holds of every digit of a numeral. -/
theorem forall_toDigits {P : Char → Prop} (h : ∀ d < 16, P (Nat.digitChar d)) (n : ℕ) :
    ∀ c ∈ Nat.toDigits 16 n, P c := by
  induction n using Nat.strongRecOn with
  | _ n ih =>
    intro c hc
    rw [Nat.toDigits_eq_if (by omega)] at hc
    split_ifs at hc with hn
    · rw [List.mem_singleton.mp hc]
      exact h n hn
    · rcases List.mem_append.mp hc with hc | hc
      · exact ih (n / 16) (Nat.div_lt_self (by omega) (by omega)) c hc
      · rw [List.mem_singleton.mp hc]
        exact h (n % 16) (Nat.mod_lt n (by omega))

theorem comma_not_mem_toDigits (n : ℕ) : ',' ∉ Nat.toDigits 16 n := fun h =>
  forall_toDigits (P := (· ≠ ',')) digitChar_ne_comma n ',' h rfl

theorem comma_not_mem_formatHex (addr : ℤ) : ',' ∉ formatHex addr := by
  unfold formatHex hexDigits
  split_ifs
  · rw [List.mem_cons]
    rintro (h | h)
    · exact absurd h (by decide)
    · exact comma_not_mem_toDigits _ h
  · exact comma_not_mem_toDigits _

theorem splitComma_append {s : Str} (h : ',' ∉ s) (t : Str) : splitComma (s ++ ',' :: t) = (s, t) := by
  have hall : ∀ c ∈ s, decide (c ≠ ',') = true := by
    intro c hc
    simp only [decide_eq_true_eq]
    rintro rfl
    exact h hc
  unfold splitComma
  rw [List.takeWhile_append_of_pos hall, List.dropWhile_append_of_pos hall]
  simp

/-- A breakpoint packet denotes the point it was formatted from exactly when
the address is not negative and the size has one decimal digit. -/
theorem readPoint_payload_iff (insert : Bool) (kind : BpKind) (addr size : ℤ) :
    readPoint (Command.setBreak insert kind addr size).payload = some (insert, ⟨kind, addr, size⟩) ↔
      0 ≤ addr ∧ 0 ≤ size ∧ size < 10 := by
  have hpayload : (Command.setBreak insert kind addr size).payload =
      (if insert then 'Z' else 'z') :: kind.code :: ',' ::
        (formatHex addr ++ ',' :: formatDec size) := rfl
  rw [hpayload]
  unfold readPoint
  simp only [splitComma_append (comma_not_mem_formatHex addr), BpKind.ofCode_code,
    readNumeral_formatHex]
  have hdec := readNumeral_formatDec size
  cases hread : readNumeral (formatDec size) with
  | none =>
    refine iff_of_false ?_ fun h => ?_
    · split_ifs <;> simp
    · have hsome := (hdec size.natAbs).mpr ⟨h.2.1, h.2.2, rfl⟩
      simp [hread] at hsome
  | some n =>
    have hsize : (n : ℤ) = size ↔ 0 ≤ size ∧ size < 10 := by
      constructor
      · intro h
        have hn := (hdec n).mp ⟨hread, h⟩
        exact ⟨hn.1, hn.2.1⟩
      · intro h
        obtain ⟨hsome, heq⟩ := (hdec size.natAbs).mpr ⟨h.1, h.2, rfl⟩
        rw [hread] at hsome
        rw [Option.some.inj hsome, heq]
    by_cases hneg : addr < 0
    · rw [if_pos hneg]
      exact iff_of_false (by simp) fun h => by omega
    · rw [if_neg hneg]
      have haddr : ((addr.natAbs : ℕ) : ℤ) = addr := by omega
      have hge : 0 ≤ addr := by omega
      cases insert <;> simp [haddr, hsize, hge]

end DolphinRe.PacketNumerals
