import Mathlib.Data.List.Chain
import DolphinRe.SteppedTarget

/-!
# Walks up the stack

A frame holds the stack pointer of its caller and, four bytes further on, the
return address saved there. The walk follows the stored stack pointers as long
as they grow, so its frames form a chain that ends only where it has to.
-/

namespace DolphinRe.StackWalks

open PythonText GdbPackets GdbWire GdbTokens EffectProgram SessionMachine GdbClient SessionTools ExecutionTools
  StubBehaviour MemoryWindows SteppedTarget

section Chains

/-- The big-endian word at an address. -/
def wordAt (memory : ℤ → Option UInt8) (addr : ℤ) : Option ℕ := (valuesAt memory addr 4).map fromBytesBig

/-- The stack pointer behind some frames: the first one, or the word stored at the last frame. -/
def NextSp (memory : ℤ → Option UInt8) (sp : ℕ) (frames : List (ℕ × ℕ)) (next : ℕ) : Prop :=
  match frames.getLast? with
  | none => next = sp
  | some frame => wordAt memory frame.1 = some next

/-- A chain of frames that is as long as it can be. -/
structure StackChain (memory : ℤ → Option UInt8) (readable : ℕ → Prop) (sp : ℕ) (depth : ℤ)
    (frames : List (ℕ × ℕ)) : Prop where
  /-- It has no more frames than asked for. -/
  bounded : (frames.length : ℤ) ≤ max 0 depth
  /-- It starts at the stack pointer. -/
  first : ∀ frame ∈ frames.head?, frame.1 = sp
  /-- The stack pointers increase. -/
  increasing : (frames.map Prod.fst).Pairwise (· < ·)
  /-- Each further stack pointer is the word stored at the one before. -/
  linked : frames.IsChain fun frame caller => wordAt memory frame.1 = some caller.1
  /-- The return address is the word behind it. -/
  saved : ∀ frame ∈ frames, wordAt memory (frame.1 + 4) = some frame.2
  /-- It is shorter than asked for only where the next stack pointer is null, cannot be read, or does not
  lie above the last one. -/
  maximal : (frames.length : ℤ) < depth → ∃ next, NextSp memory sp frames next ∧
    (next = 0 ∨ ¬readable next ∨ ∃ frame ∈ frames.getLast?, next ≤ frame.1)

/-- The frames that a reader of eight bytes leads to. -/
def framesFrom (read : ℕ → Option (List UInt8)) : ℕ → ℕ → List (ℕ × ℕ)
  | 0, _ => []
  | n + 1, sp =>
    if sp = 0 then []
    else
      match read sp with
      | none => []
      | some blob =>
        let prevSp := fromBytesBig (blob.take 4)
        (sp, fromBytesBig ((blob.drop 4).take 4)) :: if prevSp ≤ sp then [] else framesFrom read n prevSp

variable {memory : ℤ → Option UInt8} {read : ℕ → Option (List UInt8)}

/-- What is read are eight bytes of the memory. -/
def ReadsFrom (memory : ℤ → Option UInt8) (read : ℕ → Option (List UInt8)) : Prop :=
  ∀ sp blob, read sp = some blob → valuesAt memory sp 8 = some blob

/-- The two words of a frame. -/
theorem wordAt_frame {sp : ℕ} {blob : List UInt8} (h : valuesAt memory sp 8 = some blob) :
    wordAt memory sp = some (fromBytesBig (blob.take 4)) ∧
      wordAt memory (sp + 4) = some (fromBytesBig ((blob.drop 4).take 4)) := by
  have hfirst : valuesAt memory (sp + (0 : ℕ)) 4 = some ((blob.drop 0).take 4) := valuesAt_part h (by omega)
  have hsecond : valuesAt memory (sp + (4 : ℕ)) 4 = some ((blob.drop 4).take 4) := valuesAt_part h (by omega)
  rw [Int.natCast_zero, Int.add_zero, List.drop_zero] at hfirst
  change valuesAt memory (sp + 4) 4 = _ at hsecond
  unfold wordAt
  rw [hfirst, hsecond]
  exact ⟨rfl, rfl⟩

theorem length_framesFrom (n sp : ℕ) : (framesFrom read n sp).length ≤ n := by
  induction n generalizing sp with
  | zero => exact Nat.le_refl 0
  | succ n ih =>
    unfold framesFrom
    split_ifs
    · exact Nat.zero_le _
    · split
      · exact Nat.zero_le _
      · dsimp only
        rw [List.length_cons]
        split_ifs
        · exact Nat.succ_le_succ (Nat.zero_le n)
        · exact Nat.succ_le_succ (ih _)

theorem head_framesFrom (n sp : ℕ) : ∀ frame ∈ (framesFrom read n sp).head?, frame.1 = sp := by
  cases n with
  | zero => simp [framesFrom]
  | succ n =>
    unfold framesFrom
    split_ifs
    · simp
    · split
      · simp
      · simp

/-- Each frame leads to the next one, which lies above it. -/
theorem chain_framesFrom (hread : ReadsFrom memory read) (n sp : ℕ) :
    (framesFrom read n sp).IsChain fun frame caller =>
      wordAt memory frame.1 = some caller.1 ∧ frame.1 < caller.1 := by
  induction n generalizing sp with
  | zero => exact List.isChain_nil
  | succ n ih =>
    unfold framesFrom
    split_ifs
    · exact List.isChain_nil
    · split
      · exact List.isChain_nil
      · rename_i blob hblob
        dsimp only
        split_ifs with hle
        · exact List.isChain_singleton _
        · refine (ih _).cons fun caller hcaller => ?_
          have hword := (wordAt_frame (hread sp blob hblob)).1
          have hcallerSp := head_framesFrom n _ caller hcaller
          rw [hcallerSp]
          exact ⟨hword, by omega⟩

theorem saved_framesFrom (hread : ReadsFrom memory read) (n sp : ℕ) :
    ∀ frame ∈ framesFrom read n sp, wordAt memory (frame.1 + 4) = some frame.2 := by
  induction n generalizing sp with
  | zero => simp [framesFrom]
  | succ n ih =>
    unfold framesFrom
    split_ifs
    · simp
    · split
      · simp
      · rename_i blob hblob
        intro frame hframe
        dsimp only at hframe
        rcases List.mem_cons.mp hframe with rfl | hrest
        · exact (wordAt_frame (hread sp blob hblob)).2
        · split_ifs at hrest
          · simp at hrest
          · exact ih _ frame hrest

/-- The walk stops early for one of three reasons. -/
theorem maximal_framesFrom (hread : ReadsFrom memory read) {n sp : ℕ}
    (hshort : (framesFrom read n sp).length < n) : ∃ next, NextSp memory sp (framesFrom read n sp) next ∧
      (next = 0 ∨ read next = none ∨ ∃ frame ∈ (framesFrom read n sp).getLast?, next ≤ frame.1) := by
  induction n generalizing sp with
  | zero => exact absurd hshort (Nat.not_lt_zero _)
  | succ n ih =>
    unfold framesFrom at hshort ⊢
    by_cases hzero : sp = 0
    · rw [if_pos hzero]
      exact ⟨sp, rfl, Or.inl hzero⟩
    · rw [if_neg hzero] at hshort ⊢
      cases hblob : read sp with
      | none => exact ⟨sp, rfl, Or.inr (Or.inl hblob)⟩
      | some blob =>
        rw [hblob] at hshort
        dsimp only at hshort ⊢
        have hword := (wordAt_frame (hread sp blob hblob)).1
        by_cases hle : fromBytesBig (blob.take 4) ≤ sp
        · rw [if_pos hle]
          exact ⟨fromBytesBig (blob.take 4), hword, Or.inr (Or.inr ⟨_, rfl, hle⟩)⟩
        · rw [if_neg hle] at hshort ⊢
          rw [List.length_cons, Nat.succ_lt_succ_iff] at hshort
          obtain ⟨next, hnext, hreason⟩ := ih hshort
          refine ⟨next, ?_, ?_⟩
          · unfold NextSp at hnext ⊢
            rw [List.getLast?_cons]
            cases hlast : (framesFrom read n (fromBytesBig (blob.take 4))).getLast? with
            | none =>
              rw [hlast] at hnext
              rw [hnext]
              exact hword
            | some frame =>
              rw [hlast] at hnext
              exact hnext
          · refine hreason.imp_right (Or.imp_right ?_)
            rintro ⟨frame, hframe, hbelow⟩
            rw [Option.mem_def] at hframe
            refine ⟨frame, ?_, hbelow⟩
            rw [List.getLast?_cons, hframe]
            rfl

end Chains

section Walks

variable {σ τ N L : Type} {target : Target σ} {link : Link τ N L} {start s : σ} {w v : World τ L}

/-- Whether so many bytes can be read: the addresses are routed, and there is memory. -/
def Readable (target : Target σ) (s : σ) (addr size : ℤ) : Prop :=
  (∃ routed, route addr size = .ok routed) ∧ ∃ blob, valuesAt (target.memory s) addr size.toNat = some blob

theorem fetched_eq_none {addr size : ℤ} : target.fetched s addr size = none ↔ ¬Readable target s addr size := by
  unfold Target.fetched Readable
  cases hroute : route addr size with
  | error e => simp
  | ok routed =>
    cases valuesAt (target.memory s) addr size.toNat with
    | none => simp
    | some blob => simp

theorem valuesAt_of_fetched {addr size : ℤ} {blob : List UInt8} (h : target.fetched s addr size = some blob) :
    valuesAt (target.memory s) addr size.toNat = some blob := by
  unfold Target.fetched at h
  split at h
  · exact h
  · simp at h

/-- The frames that lie in the memory of the target. -/
theorem reads_walkStack (n sp : ℕ) (out : List (ℕ × ℕ)) :
    Reads target link start s (walkStack n sp out : Code τ (List (ℕ × ℕ)))
      (· = .ok (out ++ framesFrom (fun sp => target.fetched s sp 8) n sp)) := by
  induction n generalizing sp out with
  | zero =>
    refine reads_done ?_
    rw [framesFrom, List.append_nil]
  | succ n ih =>
    unfold walkStack framesFrom
    split_ifs with hzero
    · refine reads_done ?_
      rw [List.append_nil]
    · refine (reads_memRead (sp : ℤ) 8).attempt_bind fun outcome hyields => ?_
      cases outcome with
      | error e =>
        rw [yields_error.mp hyields]
        refine reads_done ?_
        rw [List.append_nil]
      | ok blob =>
        rw [yields_ok.mp hyields]
        dsimp only
        split_ifs with hle
        · exact reads_done rfl
        · refine (ih _ _).mono fun r hr => ?_
          rw [hr, List.append_assoc]
          rfl

/-- Next to a halted target, whatever its memory and its registers, `get_stack` returns the frames of a
chain that starts at `r1`, is strictly increasing, holds what the memory holds, is no longer than asked for,
and is shorter only where the next stack pointer is null, cannot be read, or does not lie above the last one. -/
theorem stack_walk_exact (hw : target.Halted start s w) (depth : ℤ) {r : Except PyError (List (ℕ × ℕ))}
    (h : (getStack depth).Reaches (target.machine link start) w r v) :
    ∃ frames, r = .ok frames ∧ StackChain (target.memory s) (fun sp => Readable target s sp 8)
      (target.gprs s 1).toNat depth frames := by
  have hr1 : (((target.registers s).map UInt32.toNat)[1]?).getD 0 = (target.gprs s 1).toNat := by
    simp [Target.registers]
  have hreads : Reads target link start s (getStack depth : Code τ (List (ℕ × ℕ))) (· = .ok
      (framesFrom (fun sp => target.fetched s sp 8) depth.toNat (target.gprs s 1).toNat)) := by
    refine reads_ensureConnected.bind_value (reads_getGprs.bind_value ?_)
    rw [hr1]
    exact reads_walkStack _ _ []
  have hread : ReadsFrom (target.memory s) fun sp => target.fetched s sp 8 :=
    fun sp blob hblob => valuesAt_of_fetched hblob
  have hchain := chain_framesFrom hread depth.toNat (target.gprs s 1).toNat
  have hlength : (framesFrom (fun sp => target.fetched s sp 8) depth.toNat (target.gprs s 1).toNat).length ≤
      depth.toNat := length_framesFrom _ _
  refine ⟨_, (Program.reaches_of_wp (hreads w hw) h).1, ?_⟩
  refine ⟨by omega, head_framesFrom _ _, ?_, hchain.imp fun _ _ hlink => hlink.1, saved_framesFrom hread _ _,
    fun hshort => ?_⟩
  · rw [← List.isChain_iff_pairwise, List.isChain_map]
    exact hchain.imp fun _ _ hlink => hlink.2
  · have hless : (framesFrom (fun sp => target.fetched s sp 8) depth.toNat (target.gprs s 1).toNat).length <
        depth.toNat := by omega
    obtain ⟨next, hnext, hreason⟩ := maximal_framesFrom hread hless
    exact ⟨next, hnext, hreason.imp_right (Or.imp_left fetched_eq_none.mp)⟩

end Walks

section Samples

/-- Two frames on the stack; the back chain of the outer one is null. -/
def twoFrames : Target Unit := stillTarget 0x80003100 0x80001000 (image 0x80001000
  [0x80, 0x00, 0x10, 0x08, 0x80, 0x00, 0x32, 0x00, 0, 0, 0, 0, 0x80, 0x00, 0x33, 0x00])

/-- The registers are reported, and the attached process copies the two frames. -/
def walked : List (Choice Origin TokenNet) :=
  replying (hexBody (block (twoFrames.registers ()))) ++
    [{net := default, host := some [0x80, 0x00, 0x10, 0x08, 0x80, 0x00, 0x32, 0x00]},
      {net := default, host := some [0, 0, 0, 0, 0x80, 0x00, 0x33, 0x00]}]

theorem stack_walk_exact_two : ∃ v,
    (getStack 4).Reaches (twoFrames.machine (tokenLink Origin) ()) HostedMemory.attachedWorld
      (.ok [(0x80001000, 0x80003200), (0x80001008, 0x80003300)]) v ∧
    ∃ frames, (Except.ok [(0x80001000, 0x80003200), (0x80001008, 0x80003300)] :
        Except PyError (List (ℕ × ℕ))) = .ok frames ∧
      StackChain (twoFrames.memory ()) (fun sp => Readable twoFrames () sp 8)
        (twoFrames.gprs () 1).toNat 4 frames := by
  have hfollows : (getStack 4).Follows (twoFrames.machine (tokenLink Origin) ()) walked
      HostedMemory.attachedWorld := by decide +kernel
  have hreach := Program.reaches_along hfollows (r := .ok [(0x80001000, 0x80003200), (0x80001008, 0x80003300)])
    (by decide +kernel)
  exact ⟨_, hreach, stack_walk_exact ⟨rfl, rfl, rfl, rfl, rfl⟩ 4 hreach⟩

end Samples

end DolphinRe.StackWalks
