import Mathlib.Algebra.GroupWithZero.Nat
import DolphinRe.ImmediatePairs

/-!
# Registers written inside immediate pairs

Instructions are given with the general registers that they write, and listed in
the syntax of the disassembler. The pass drops a pending register when it is
named first of several operands, whether that is a write or not. It overlooks
sums and unions of other registers, base registers that are updated, moves with
one operand, the further registers of a multiple load, and calls.
-/

namespace DolphinRe.PairClobbers

open PythonText HexNumerals PythonLines RadixNumerals MnemonicKinds PpcOperands PpcDisassembly ImmediatePairs

section Instructions

/-- A number of a machine word, as printed. -/
structure Immediate where
  /-- The number. -/
  value : ℤ
  /-- Its text. -/
  text : Str
  /-- The text is what is printed for it. -/
  printed : Printed value text
  /-- It has at most 32 bits. -/
  small : value.natAbs < 2 ^ 32

/-- An operand in the syntax of the disassembler. -/
inductive Operand where
  | gpr (r : Fin 32)
  | number (n : Immediate)
  /-- `d(rA)`. -/
  | address (disp : Immediate) (base : Fin 32)
  /-- Another register, a field of the condition register, a branch target. -/
  | named (text : Str) (part : Part text) (plain : ∀ r : Fin 32, text ≠ gprName r)

/-- The text of an operand. -/
def Operand.text : Operand → Str
  | .gpr r => gprName r
  | .number n => n.text
  | .address disp base => disp.text ++ '(' :: (baseName base ++ [')'])
  | .named text _ _ => text

/-- The first operand, if it is a general register. -/
def firstGpr : List Operand → Option (Fin 32)
  | .gpr r :: _ => some r
  | _ => none

/-- The base register of an address in the second operand, or in the second and third. -/
def baseOf : List Operand → Option (Fin 32)
  | _ :: .address _ base :: _ => some base
  | _ :: .gpr base :: _ => some base
  | _ => none

/-- How an instruction writes general registers. -/
inductive Form where
  /-- It writes none, as stores, comparisons and branches. -/
  | plain
  /-- It writes the first operand. -/
  | destination
  /-- A load that writes its base register back. -/
  | updatingLoad
  /-- A store that writes its base register back. -/
  | updatingStore
  /-- It writes from the first operand up to `r31`. -/
  | multiple
  /-- It writes so many bytes from the first operand on, with `r0` behind `r31`. -/
  | string (bytes : ℕ)
  /-- The called code writes these. -/
  | call (clobbered : List (Fin 32))

/-- The general registers that an instruction of a form writes. -/
def Form.Writes (operands : List Operand) (r : Fin 32) : Form → Prop
  | .plain => False
  | .destination => firstGpr operands = some r
  | .updatingLoad => firstGpr operands = some r ∨ baseOf operands = some r
  | .updatingStore => baseOf operands = some r
  | .multiple => ∃ first, firstGpr operands = some first ∧ first ≤ r
  | .string bytes => ∃ first, firstGpr operands = some first ∧ ∃ k < (bytes + 3) / 4, (first + k) % 32 = (r : ℕ)
  | .call clobbered => r ∈ clobbered

/-- An instruction. -/
inductive Instr where
  | lis (x : Fin 32) (hi : Immediate)
  | combine (op : PairOp) (x y : Fin 32) (lo : Immediate)
  | other (mnemonic : Str) (operands : List Operand) (form : Form) (ascii : ∀ c ∈ mnemonic, c.toNat < 128)
    (unpaired : mnemonic.map Char.toLower ∉ ["lis", "addi", "subi", "ori"].map String.toList)

/-- The mnemonic of an instruction. -/
def Instr.mnemonic : Instr → Str
  | .lis _ _ => "lis".toList
  | .combine op _ _ _ => op.mnemonic
  | .other mnemonic _ _ _ _ => mnemonic

/-- The operands of an instruction. -/
def Instr.operandText : Instr → Str
  | .lis x hi => joinOperands [gprName x, hi.text]
  | .combine _ x y lo => joinOperands [gprName x, gprName y, lo.text]
  | .other _ operands _ _ _ => joinOperands (operands.map Operand.text)

/-- The general registers that an instruction writes. -/
def Instr.Writes : Instr → Fin 32 → Prop
  | .lis x _, r => r = x
  | .combine _ x _ _, r => r = x
  | .other _ operands form _ _, r => form.Writes operands r

/-- An instruction as it is listed. -/
structure Listed where
  /-- What it does. -/
  instr : Instr
  /-- Its address. -/
  pc : ℤ
  /-- Its word, in hexadecimal. -/
  bytesHex : Str
  /-- Its effective address, where it has one. -/
  ea : Option ℤ
  /-- Its branch target, where it has one. -/
  branchTarget : Option ℤ

/-- The record of a listed instruction. -/
def Listed.insn (tables : CharTables) (l : Listed) : DisasmInstruction where
  pc := l.pc
  bytesHex := l.bytesHex
  mnemonic := l.instr.mnemonic
  operands := l.instr.operandText
  kind := classify tables.toLowerCase l.instr.mnemonic
  ea := l.ea
  immValue := none
  branchTarget := l.branchTarget

end Instructions

section Survival

variable (tables : CharTables) (limit : DigitLimit)

/-- The pass tags the instruction at an index. -/
def Tagged (prog : List Listed) (j : ℕ) : Prop :=
  ∃ ins, (postProcessImmLoadPairs tables limit (prog.map (Listed.insn tables)))[j]? = some ins ∧
    ins.kind = .immLoadPair

/-- Every tagged instruction combines a register with itself, and between it and an earlier load of the
high half nothing writes the register. -/
def SurvivesNoClobber (prog : List Listed) : Prop :=
  ∀ before l after, prog = before ++ l :: after → Tagged tables limit prog before.length →
    ∃ op x lo, l.instr = .combine op x x lo ∧ ∃ front high hi gap, before = front ++ high :: gap ∧
      high.instr = .lis x hi ∧ ∀ g ∈ gap, ¬g.instr.Writes x

/-- The first of several operands, if it is a general register. -/
def firstOfSeveral : List Operand → Option (Fin 32)
  | .gpr r :: _ :: _ => some r
  | _ => none

/-- The pass drops a register at an instruction. -/
def Noticed (x : Fin 32) : Instr → Prop
  | .lis _ _ => False
  | .combine _ y z _ => y = x ∧ z = x
  | .other _ operands _ _ _ => firstOfSeveral operands = some x

/-- Where a register is written between the last load of its high half and a combination with itself, the
pass drops it somewhere between the two. -/
def ClobbersNoticed (prog : List Listed) : Prop :=
  ∀ front high gap l after x hi op lo, prog = (front ++ high :: gap) ++ l :: after →
    high.instr = .lis x hi → l.instr = .combine op x x lo → (∀ g ∈ gap, ∀ hi', g.instr ≠ .lis x hi') →
    (∃ g ∈ gap, g.instr.Writes x) → ∃ g ∈ gap, Noticed x g.instr

end Survival

section Operands

variable {tables : CharTables} {limit : DigitLimit}

/-- Operands can stand between commas. -/
theorem part_text (o : Operand) : Part o.text := by
  cases o with
  | gpr r => exact part_gprName r
  | number n => exact part_printed n.printed
  | address disp base =>
    have hdisp := part_printed disp.printed
    obtain ⟨hbase, -⟩ := part_baseName base
    have hne := disp.printed.ne_nil
    constructor
    · constructor
      · intro c hc
        rw [Operand.text, List.head?_append_of_ne_nil _ hne] at hc
        exact hdisp.trimmed.1 c hc
      · intro c hc
        rw [Operand.text, List.getLast?_append_of_ne_nil _ (List.cons_ne_nil _ _), ← List.cons_append,
          List.getLast?_concat, Option.mem_def, Option.some.injEq] at hc
        rw [← hc]
        decide
    · intro hcomma
      rcases List.mem_append.mp hcomma with hfront | hback
      · exact hdisp.uncut hfront
      · rcases List.mem_cons.mp hback with hopen | hback
        · exact absurd hopen (by decide)
        · rcases List.mem_append.mp hback with hname | hclose
          · exact hbase.uncut hname
          · exact absurd (List.mem_singleton.mp hclose) (by decide)
  | named text part plain => exact part

/-- Only a register is printed like one. -/
theorem gpr_of_text {o : Operand} {x : Fin 32} (h : o.text = gprName x) : o = .gpr x := by
  have hprinted : ∀ (n : Immediate) (rest : Str), n.text ++ rest ≠ gprName x := by
    intro n rest heq
    obtain ⟨c, tail, htext⟩ := List.exists_cons_of_ne_nil n.printed.ne_nil
    rw [htext, List.cons_append] at heq
    have hc : c = 'r' := (List.cons.inj heq).1
    have hchar := n.printed.chars c (by rw [htext]; exact List.mem_cons_self)
    rw [hc] at hchar
    exact absurd hchar (by decide)
  cases o with
  | gpr r =>
    have hval := gprName_injective h
    rw [Fin.ext hval]
  | number n => exact absurd ((List.append_nil n.text).trans h) (hprinted n [])
  | address disp base => exact absurd h (hprinted disp _)
  | named text part plain => exact absurd h (plain x)

/-- The first of several operands. -/
theorem firstPart_several (o second : Operand) (rest : List Operand) :
    firstPart (joinOperands ((o :: second :: rest).map Operand.text)) = o.text := by
  have hpart := part_text o
  have hall : ∀ c ∈ o.text, decide (c ≠ ',') = true := by
    intro c hc
    exact decide_eq_true fun heq => hpart.uncut (heq ▸ hc)
  have hcomma : ',' ∈ o.text ++ ',' :: ' ' :: joinOperands ((second :: rest).map Operand.text) :=
    List.mem_append_right _ List.mem_cons_self
  have hfront : (o.text ++ ',' :: ' ' :: joinOperands ((second :: rest).map Operand.text)).takeWhile
      (· ≠ ',') = o.text := by
    rw [List.takeWhile_append_of_pos hall]
    simp
  rw [List.map_cons, joinOperands_cons _ (by simp), firstPart, if_pos hcomma, hfront,
    strip_trimmed hpart.trimmed]

/-- A single operand is not looked at. -/
theorem firstPart_single (o : Operand) : firstPart (joinOperands ([o].map Operand.text)) = [] := by
  rw [List.map_cons, List.map_nil, joinOperands_single, firstPart, if_neg (part_text o).uncut]

/-- What is taken for the destination is the first operand, and not the only one. -/
theorem firstDestinationRegister_spec {operands : List Operand} {t : Str}
    (h : firstDestinationRegister tables (joinOperands (operands.map Operand.text)) = some t) :
    ∃ o second rest, operands = o :: second :: rest ∧ t = o.text := by
  have hfirst : t = firstPart (joinOperands (operands.map Operand.text)) ∧ t ≠ [] := by
    unfold firstDestinationRegister at h
    split at h
    · rename_i digits heq
      split_ifs at h
      rw [heq, ← Option.some.inj h]
      exact ⟨rfl, List.cons_ne_nil _ _⟩
    · exact absurd h (by simp)
  obtain ⟨ht, hne⟩ := hfirst
  cases operands with
  | nil => exact absurd ht hne
  | cons o rest =>
    cases rest with
    | nil =>
      rw [firstPart_single] at ht
      exact absurd ht hne
    | cons second rest =>
      rw [firstPart_several] at ht
      exact ⟨o, second, rest, rfl, ht⟩

/-- A register that is first of several operands is taken for the destination. -/
theorem firstDestinationRegister_several (r : Fin 32) (second : Operand) (rest : List Operand) :
    firstDestinationRegister tables (joinOperands ((Operand.gpr r :: second :: rest).map Operand.text)) =
      some (gprName r) := by
  have hdigits : (Nat.toDigits 10 (r : ℕ)).all tables.isDigit = true := by
    have hnumeral : Numeral 10 r (Nat.toDigits 10 (r : ℕ)) := numeral_toDigits (by omega) (by omega) r
    have hall : ∀ n < 32, (Nat.toDigits 10 n).all Char.isDigit = true := by decide
    rw [List.all_eq_true]
    intro c hc
    rw [tables.asciiDigit c (ascii_of_hexValue (hnumeral.digits (by omega) c hc))]
    exact List.all_eq_true.mp (hall r r.isLt) c hc
  have hne : Nat.toDigits 10 (r : ℕ) ≠ [] := Nat.toDigits_ne_nil
  have hname : (Operand.gpr r).text = 'r' :: Nat.toDigits 10 (r : ℕ) := rfl
  unfold firstDestinationRegister
  rw [firstPart_several, hname]
  exact if_pos ⟨hne, hdigits⟩

/-- The destination is a register exactly for a register that is first of several operands. -/
theorem firstDestinationRegister_gpr (operands : List Operand) (x : Fin 32) :
    firstDestinationRegister tables (joinOperands (operands.map Operand.text)) = some (gprName x) ↔
      firstOfSeveral operands = some x := by
  constructor
  · intro h
    obtain ⟨o, second, rest, rfl, htext⟩ := firstDestinationRegister_spec h
    rw [gpr_of_text htext.symm]
    rfl
  · intro h
    unfold firstOfSeveral at h
    split at h
    · rename_i r second rest
      rw [← Option.some.inj h]
      exact firstDestinationRegister_several r second rest
    · exact absurd h (by simp)

end Operands

section Pending

variable {tables : CharTables} {limit : DigitLimit} {x : Fin 32} {prog : List Listed}

/-- Whether a register is pending behind an instruction. -/
def heldStep (x : Fin 32) (held : Bool) : Instr → Bool
  | .lis y _ => if y = x then true else held
  | .combine _ y z _ => if y = x ∧ z = x then false else held
  | .other _ operands _ _ _ => if firstOfSeveral operands = some x then false else held

/-- Whether a register is pending behind some instructions. -/
def held (x : Fin 32) (prog : List Listed) : Bool := prog.foldl (fun b l => heldStep x b l.instr) false

theorem gprName_eq_iff (x y : Fin 32) : gprName x = gprName y ↔ x = y := by
  constructor
  · exact fun h => Fin.ext (gprName_injective h)
  · exact fun h => by rw [h]

/-- Other mnemonics go to the test of the destination. -/
theorem tagInsn_other (idx : ℕ) (pending : Pending) (l : Listed) {mnemonic : Str} {operands : List Operand}
    {form : Form} {ascii : ∀ c ∈ mnemonic, c.toNat < 128}
    {unpaired : mnemonic.map Char.toLower ∉ ["lis", "addi", "subi", "ori"].map String.toList}
    (hl : l.instr = .other mnemonic operands form ascii unpaired) :
    tagInsn tables limit idx pending (l.insn tables) =
      match firstDestinationRegister tables (joinOperands (operands.map Operand.text)) with
      | some dst => (l.insn tables, Function.update pending dst none)
      | none => (l.insn tables, pending) := by
  have hmnemonic : (l.insn tables).mnemonic = mnemonic := by
    unfold Listed.insn
    rw [hl]
    rfl
  have hoperands : (l.insn tables).operands = joinOperands (operands.map Operand.text) := by
    unfold Listed.insn
    rw [hl]
    rfl
  have hnotin : tables.lower mnemonic ∉ ["lis", "addi", "subi", "ori"].map String.toList := by
    rw [tables.ascii mnemonic ascii]
    exact unpaired
  simp only [List.map_cons, List.map_nil, List.mem_cons, List.not_mem_nil, or_false, not_or] at hnotin
  obtain ⟨hlis, haddi, hsubi, hori⟩ := hnotin
  have hpair : ¬(tables.lower mnemonic = "addi".toList ∨ tables.lower mnemonic = "subi".toList ∨
      tables.lower mnemonic = "ori".toList) := by
    rw [not_or, not_or]
    exact ⟨haddi, hsubi, hori⟩
  unfold tagInsn
  dsimp only
  rw [hmnemonic, hoperands, if_neg hlis]
  exact if_neg hpair

/-- A load of a high half is listed as such. -/
theorem insn_lis {l : Listed} {hi : Immediate} (hl : l.instr = .lis x hi) :
    l.insn tables = loadHigh (l.insn tables) x hi.text := by
  unfold Listed.insn loadHigh
  rw [hl]
  rfl

theorem insn_combine {l : Listed} {op : PairOp} {y z : Fin 32} {lo : Immediate}
    (hl : l.instr = .combine op y z lo) : l.insn tables = combineLow (l.insn tables) op y z lo.text := by
  unfold Listed.insn combineLow
  rw [hl]
  rfl

/-- The table of the pass follows the steps. -/
theorem isSome_tagInsn (idx : ℕ) (pending : Pending) (l : Listed) :
    ((tagInsn tables limit idx pending (l.insn tables)).2 (gprName x)).isSome =
      heldStep x (pending (gprName x)).isSome l.instr := by
  cases hl : l.instr with
  | lis y hi =>
    rw [insn_lis hl, tagInsn_loadHigh y hi.printed hi.small, heldStep]
    dsimp only
    by_cases hsame : y = x
    · rw [if_pos hsame, hsame, Function.update_self]
      rfl
    · have hname : gprName x ≠ gprName y := fun heq => hsame ((gprName_eq_iff x y).mp heq).symm
      rw [if_neg hsame, Function.update_of_ne hname]
  | combine op y z lo =>
    rw [insn_combine hl, tagInsn_combineLow op y z lo.printed lo.small, heldStep]
    cases hpending : pending (gprName y) with
    | none =>
      dsimp only
      by_cases hsame : y = x ∧ z = x
      · rw [if_pos hsame, ← hsame.1, hpending]
        rfl
      · rw [if_neg hsame]
    | some entry =>
      dsimp only
      by_cases hself : gprName z = gprName y
      · have hzy := (gprName_eq_iff z y).mp hself
        rw [if_pos hself, hzy]
        dsimp only
        by_cases hsame : y = x
        · rw [if_pos ⟨hsame, hsame⟩, hsame, Function.update_self]
          rfl
        · have hname : gprName x ≠ gprName y := fun heq => hsame ((gprName_eq_iff x y).mp heq).symm
          rw [if_neg fun h => hsame h.1, Function.update_of_ne hname]
      · rw [if_neg hself]
        have hdiffer : ¬(y = x ∧ z = x) := by
          rintro ⟨hy, hz⟩
          rw [hy, hz] at hself
          exact hself rfl
        rw [if_neg hdiffer]
  | other mnemonic operands form ascii unpaired =>
    have hdestination : firstDestinationRegister tables (joinOperands (operands.map Operand.text)) =
        some (gprName x) ↔ firstOfSeveral operands = some x := firstDestinationRegister_gpr operands x
    rw [tagInsn_other idx pending l hl, heldStep]
    by_cases hfirst : firstOfSeveral operands = some x
    · rw [if_pos hfirst, hdestination.mpr hfirst]
      dsimp only
      rw [Function.update_self]
      rfl
    · rw [if_neg hfirst]
      cases hdst : firstDestinationRegister tables (joinOperands (operands.map Operand.text)) with
      | none => rfl
      | some dst =>
        have hother : gprName x ≠ dst := by
          intro heq
          rw [hdst, ← heq] at hdestination
          exact hfirst (hdestination.mp rfl)
        dsimp only
        rw [Function.update_of_ne hother]

/-- Over a whole list. -/
theorem isSome_pendingAfter (idx : ℕ) (pending : Pending) (prog : List Listed) :
    (pendingAfter tables limit idx pending (prog.map (Listed.insn tables)) (gprName x)).isSome =
      prog.foldl (fun b l => heldStep x b l.instr) (pending (gprName x)).isSome := by
  induction prog generalizing idx pending with
  | nil => rfl
  | cons l prog ih => rw [List.map_cons, pendingAfter, ih, isSome_tagInsn, List.foldl_cons]

/-- What drops a register. -/
theorem heldStep_noticed {instr : Instr} (h : Noticed x instr) (b : Bool) : heldStep x b instr = false := by
  cases instr with
  | lis y hi => exact absurd h not_false
  | combine op y z lo =>
    have hself : y = x ∧ z = x := h
    rw [heldStep, if_pos hself]
  | other mnemonic operands form ascii unpaired =>
    have hfirst : firstOfSeveral operands = some x := h
    rw [heldStep, if_pos hfirst]

/-- What neither loads a high half nor drops the register leaves it. -/
theorem heldStep_quiet {instr : Instr} (h : ¬Noticed x instr) (hload : ∀ hi, instr ≠ .lis x hi) (b : Bool) :
    heldStep x b instr = b := by
  cases instr with
  | lis y hi =>
    have hother : y ≠ x := fun heq => hload hi (by rw [heq])
    rw [heldStep, if_neg hother]
  | combine op y z lo =>
    have hself : ¬(y = x ∧ z = x) := h
    rw [heldStep, if_neg hself]
  | other mnemonic operands form ascii unpaired =>
    have hfirst : ¬firstOfSeveral operands = some x := h
    rw [heldStep, if_neg hfirst]

theorem held_concat (x : Fin 32) (prog : List Listed) (l : Listed) :
    held x (prog ++ [l]) = heldStep x (held x prog) l.instr := by
  unfold held
  rw [List.foldl_append, List.foldl_cons, List.foldl_nil]

/-- A high half has been loaded, and nothing since then was noticed or loaded another one. -/
def LoadedQuietly (x : Fin 32) (prog : List Listed) : Prop :=
  ∃ front high hi gap, prog = front ++ high :: gap ∧ high.instr = .lis x hi ∧
    ∀ g ∈ gap, ¬Noticed x g.instr ∧ ∀ hi', g.instr ≠ .lis x hi'

/-- Behind an instruction that loads no high half. -/
theorem loadedQuietly_concat {prog : List Listed} {l : Listed} (hload : ∀ hi, l.instr ≠ .lis x hi) :
    LoadedQuietly x (prog ++ [l]) ↔ ¬Noticed x l.instr ∧ LoadedQuietly x prog := by
  constructor
  · rintro ⟨front, high, hi, gap, heq, hhigh, hgap⟩
    rcases List.eq_nil_or_concat gap with rfl | ⟨gap, last, rfl⟩
    · have hlast := (List.append_inj' heq rfl).2
      have hl : l = high := (List.cons.inj hlast).1
      rw [← hl] at hhigh
      exact absurd hhigh (hload hi)
    · have hsplit : prog ++ [l] = (front ++ high :: gap) ++ [last] := by
        rw [heq, List.concat_eq_append, List.append_assoc, List.cons_append]
      obtain ⟨hprog, hlast⟩ := List.append_inj' hsplit rfl
      have hl : l = last := (List.cons.inj hlast).1
      rw [List.concat_eq_append] at hgap
      have hquiet := hgap last (List.mem_append_right gap List.mem_cons_self)
      rw [← hl] at hquiet
      exact ⟨hquiet.1, front, high, hi, gap, hprog, hhigh, fun g hg => hgap g (List.mem_append_left _ hg)⟩
  · rintro ⟨hquiet, front, high, hi, gap, rfl, hhigh, hgap⟩
    refine ⟨front, high, hi, gap ++ [l], ?_, hhigh, fun g hg => ?_⟩
    · rw [List.append_assoc, List.cons_append]
    · rcases List.mem_append.mp hg with hg | hg
      · exact hgap g hg
      · rw [List.mem_singleton.mp hg]
        exact ⟨hquiet, hload⟩

/-- A register is pending exactly when nothing since the last load of its high half was noticed. -/
theorem held_iff (x : Fin 32) (prog : List Listed) : held x prog = true ↔ LoadedQuietly x prog := by
  induction prog using List.reverseRecOn with
  | nil =>
    constructor
    · intro h
      exact absurd h Bool.false_ne_true
    · rintro ⟨front, high, hi, gap, hnil, -⟩
      exact absurd hnil (by simp)
  | append_singleton prog l ih =>
    rw [held_concat]
    by_cases hload : ∃ hi, l.instr = .lis x hi
    · obtain ⟨hi, hl⟩ := hload
      rw [hl, heldStep, if_pos rfl]
      constructor
      · intro _
        exact ⟨prog, l, hi, [], rfl, hl, fun g hg => absurd hg List.not_mem_nil⟩
      · intro _
        rfl
    · have hother : ∀ hi, l.instr ≠ .lis x hi := fun hi hl => hload ⟨hi, hl⟩
      rw [loadedQuietly_concat hother, ← ih]
      by_cases hnoticed : Noticed x l.instr
      · rw [heldStep_noticed hnoticed]
        constructor
        · intro h
          exact absurd h Bool.false_ne_true
        · intro h
          exact absurd hnoticed h.1
      · rw [heldStep_quiet hnoticed hother]
        exact ⟨fun h => ⟨hnoticed, h⟩, fun h => h.2⟩

end Pending

section Tags

variable {tables : CharTables} {limit : DigitLimit} {x : Fin 32} {before after : List Listed} {l : Listed}

/-- The table of the pass behind some instructions. -/
def pendingBehind (tables : CharTables) (limit : DigitLimit) (prog : List Listed) : Pending :=
  pendingAfter tables limit 0 (fun _ => none) (prog.map (Listed.insn tables))

theorem isSome_pendingBehind (tables : CharTables) (limit : DigitLimit) (prog : List Listed) (y : Fin 32) :
    (pendingBehind tables limit prog (gprName y)).isSome = held y prog :=
  isSome_pendingAfter 0 (fun _ => none) prog

/-- An instruction is tagged by the step of the pass there. -/
theorem tagged_at : Tagged tables limit (before ++ l :: after) before.length ↔
    (tagInsn tables limit before.length (pendingBehind tables limit before) (l.insn tables)).1.kind =
      .immLoadPair := by
  have hlength : before.length = (before.map (Listed.insn tables)).length := (List.length_map _).symm
  unfold Tagged pendingBehind
  rw [List.map_append, List.map_cons, hlength, getElem?_postProcess]
  simp

/-- A combination is tagged when its source is pending and it is written back there. -/
theorem tagged_combine {op : PairOp} {y z : Fin 32} {lo : Immediate} (hl : l.instr = .combine op y z lo) :
    Tagged tables limit (before ++ l :: after) before.length ↔ z = y ∧ held y before = true := by
  have hplain : (combineLow (l.insn tables) op y z lo.text).kind ≠ .immLoadPair := classify_ne_immLoadPair _ _
  have hheld := isSome_pendingBehind tables limit before y
  rw [tagged_at, insn_combine hl, tagInsn_combineLow op y z lo.printed lo.small]
  cases hpending : pendingBehind tables limit before (gprName y) with
  | none =>
    rw [hpending] at hheld
    rw [← hheld]
    constructor
    · intro hkind
      exact absurd hkind hplain
    · intro h
      exact absurd h.2 Bool.false_ne_true
  | some entry =>
    rw [hpending] at hheld
    rw [← hheld]
    dsimp only
    by_cases hself : gprName z = gprName y
    · rw [if_pos hself]
      exact ⟨fun _ => ⟨(gprName_eq_iff z y).mp hself, rfl⟩, fun _ => rfl⟩
    · rw [if_neg hself]
      constructor
      · intro hkind
        exact absurd hkind hplain
      · intro h
        exact absurd ((gprName_eq_iff z y).mpr h.1) hself

/-- An instruction is tagged when it combines a pending register with itself. -/
theorem tagged_iff : Tagged tables limit (before ++ l :: after) before.length ↔
    ∃ op x lo, l.instr = .combine op x x lo ∧ held x before = true := by
  have hplain : (l.insn tables).kind ≠ .immLoadPair := classify_ne_immLoadPair _ _
  cases hl : l.instr with
  | lis y hi =>
    rw [tagged_at, insn_lis hl, tagInsn_loadHigh y hi.printed hi.small]
    constructor
    · intro hkind
      exact absurd hkind hplain
    · rintro ⟨op, z, lo, heq, -⟩
      exact absurd heq Instr.noConfusion
  | combine op y z lo =>
    rw [tagged_combine hl]
    constructor
    · rintro ⟨rfl, hheld⟩
      exact ⟨op, z, lo, rfl, hheld⟩
    · rintro ⟨op', w, lo', heq, hheld⟩
      obtain ⟨-, rfl, rfl, -⟩ := Instr.combine.inj heq
      exact ⟨rfl, hheld⟩
  | other mnemonic operands form ascii unpaired =>
    rw [tagged_at, tagInsn_other _ _ l hl]
    constructor
    · intro hkind
      cases hdst : firstDestinationRegister tables (joinOperands (operands.map Operand.text)) with
      | none =>
        rw [hdst] at hkind
        exact absurd hkind hplain
      | some dst =>
        rw [hdst] at hkind
        exact absurd hkind hplain
    · rintro ⟨op, z, lo, heq, -⟩
      exact absurd heq Instr.noConfusion

/-- The last element of a kind is in one place. -/
theorem back_unique {α : Type} {P : α → Prop} {front gap front' gap' : List α} {a a' : α}
    (h : front ++ a :: gap = front' ++ a' :: gap') (ha : P a) (ha' : P a') (hgap : ∀ b ∈ gap, ¬P b)
    (hgap' : ∀ b ∈ gap', ¬P b) : gap = gap' := by
  rcases List.append_eq_append_iff.mp h with ⟨between, -, hback⟩ | ⟨between, -, hback⟩
  · cases between with
    | nil => exact (List.cons.inj hback).2
    | cons b between =>
      have hrest : gap = between ++ a' :: gap' := (List.cons.inj hback).2
      exact absurd ha' (hgap a' (by rw [hrest]; simp))
  · cases between with
    | nil => exact (List.cons.inj hback).2.symm
    | cons b between =>
      have hrest : gap' = between ++ a :: gap := (List.cons.inj hback).2
      exact absurd ha (hgap' a (by rw [hrest]; simp))

/-- Loading a high half writes the register. -/
theorem not_lis_of_not_writes {g : Listed} (h : ¬g.instr.Writes x) (hi : Immediate) : g.instr ≠ .lis x hi := by
  intro hl
  rw [hl] at h
  exact h rfl

end Tags

/-- No tag survives a clobber exactly when every clobber between a high half and a combination is noticed,
there or elsewhere between the two. -/
theorem survives_no_clobber_iff (tables : CharTables) (limit : DigitLimit) (prog : List Listed) :
    SurvivesNoClobber tables limit prog ↔ ClobbersNoticed prog := by
  constructor
  · rintro hsurvives front high gap l after x hi op lo rfl hhigh hl hlast ⟨g, hg, hwrites⟩
    by_contra hunnoticed
    have hquiet : ∀ g ∈ gap, ¬Noticed x g.instr := fun g hg hnoticed => hunnoticed ⟨g, hg, hnoticed⟩
    have hheld : held x (front ++ high :: gap) = true :=
      (held_iff x _).mpr ⟨front, high, hi, gap, rfl, hhigh, fun g hg => ⟨hquiet g hg, hlast g hg⟩⟩
    have htagged : Tagged tables limit ((front ++ high :: gap) ++ l :: after) (front ++ high :: gap).length :=
      tagged_iff.mpr ⟨op, x, lo, hl, hheld⟩
    obtain ⟨op', y, lo', hl', front', high', hi', gap', hsplit, hhigh', hclean⟩ :=
      hsurvives _ l after rfl htagged
    rw [hl] at hl'
    obtain ⟨-, hxy, -, -⟩ := Instr.combine.inj hl'
    rw [← hxy] at hhigh' hclean
    have hsame : gap = gap' := by
      refine back_unique (P := fun g : Listed => ∃ hi, g.instr = .lis x hi) hsplit ⟨hi, hhigh⟩ ⟨hi', hhigh'⟩ ?_ ?_
      · rintro g hg ⟨hi'', hload⟩
        exact hlast g hg hi'' hload
      · rintro g hg ⟨hi'', hload⟩
        exact not_lis_of_not_writes (hclean g hg) hi'' hload
    rw [hsame] at hg
    exact hclean g hg hwrites
  · intro hnoticed before l after hprog htagged
    rw [hprog] at htagged
    obtain ⟨op, x, lo, hl, hheld⟩ := tagged_iff.mp htagged
    obtain ⟨front, high, hi, gap, hsplit, hhigh, hgap⟩ := (held_iff x before).mp hheld
    refine ⟨op, x, lo, hl, front, high, hi, gap, hsplit, hhigh, fun g hg hwrites => ?_⟩
    rw [hsplit] at hprog
    obtain ⟨g', hg', hdropped⟩ := hnoticed front high gap l after x hi op lo hprog hhigh hl
      (fun g hg => (hgap g hg).2) ⟨g, hg, hwrites⟩
    exact (hgap g' hg').1 hdropped

/-- An instruction at an address. -/
def listedAt (pc : ℤ) (instr : Instr) : Listed := ⟨instr, pc, [], none, none⟩

local instance neZero_registers : NeZero 32 := ⟨Nat.succ_ne_zero 31⟩

/-- `addi r3, r4, 8`. -/
def sumOfAnother : Listed := listedAt 0x80001004 (.combine .addi 3 4 ⟨8, "8".toList, .dec 8, by decide⟩)

/-- The sum between `lis r3, 0x8001` and `ori r3, r3, 0x4304`. -/
def overwrittenPair : List Listed :=
  [listedAt 0x80001000 (.lis 3 ⟨0x8001, "0x8001".toList, .hex 0x8001, by decide⟩), sumOfAnother,
    listedAt 0x80001008 (.combine .ori 3 3 ⟨0x4304, "0x4304".toList, .hex 0x4304, by decide⟩)]

/-- A sum of another register overwrites the high half, and the pair is tagged. -/
theorem overwritten_pair_is_tagged : Tagged asciiTables defaultLimit overwrittenPair 2 ∧
    ¬SurvivesNoClobber asciiTables defaultLimit overwrittenPair := by
  have htagged : Tagged asciiTables defaultLimit overwrittenPair 2 := by
    refine ⟨_, rfl, ?_⟩
    decide +kernel
  refine ⟨htagged, fun hsurvives => ?_⟩
  obtain ⟨op, x, lo, hl, front, high, hi, gap, hsplit, hhigh, hclean⟩ :=
    hsurvives [_, _] _ [] rfl htagged
  have hx : x = 3 := (Instr.combine.inj hl).2.1.symm
  rcases front with _ | ⟨first, _ | ⟨second, front⟩⟩
  · have hgap : gap = [sumOfAnother] := (List.cons.inj hsplit).2.symm
    exact hclean sumOfAnother (by rw [hgap]; exact List.mem_singleton_self _) hx
  · have hsecond := (List.cons.inj (List.cons.inj hsplit).2).1
    rw [← hsecond] at hhigh
    exact Instr.noConfusion hhigh
  · have hnil := (List.cons.inj (List.cons.inj hsplit).2).2
    exact absurd hnil (by simp)

end DolphinRe.PairClobbers
