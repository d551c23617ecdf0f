import Mathlib.Data.List.DropRight
import Mathlib.Data.List.Pairwise
import DolphinRe.PythonText
import DolphinRe.RuleLists

/-!
# Kinds of instructions

An instruction is classified by its mnemonic, in lower case and without the
dot of a record form: by tables of mnemonics, two prefixes and a few single
names, tried in order.
-/

namespace DolphinRe.MnemonicKinds

open PythonText RuleLists

/-- Membership in the tables is decided by this instance everywhere. -/
scoped instance lawfulBEq_str : LawfulBEq Str := inferInstance

/-- `str.lower`: letters of ASCII texts are lowered, other texts become any text. -/
structure LowerCase where
  /-- The text in lower case. -/
  lower : Str → Str
  /-- ASCII letters are lowered one by one. -/
  ascii : ∀ s, (∀ c ∈ s, c.toNat < 128) → lower s = s.map Char.toLower

/-- The one that lowers ASCII letters only. -/
def asciiLower : LowerCase := ⟨List.map Char.toLower, fun _ _ => rfl⟩

/-- `InstructionKind`. -/
inductive InstructionKind where
  | load
  | store
  | branch
  | branchCond
  | branchLink
  | branchReturn
  | immLoad
  | immLoadPair
  | fpArith
  | intArith
  | cmp
  | syscall
  | nop
  | other
  deriving DecidableEq, Repr

/-- `InstructionKind.value`. -/
def InstructionKind.value : InstructionKind → String
  | .load => "load"
  | .store => "store"
  | .branch => "branch"
  | .branchCond => "branch_cond"
  | .branchLink => "branch_link"
  | .branchReturn => "branch_return"
  | .immLoad => "imm_load"
  | .immLoadPair => "imm_load_pair"
  | .fpArith => "fp_arith"
  | .intArith => "int_arith"
  | .cmp => "cmp"
  | .syscall => "syscall"
  | .nop => "nop"
  | .other => "other"

section Tables

/-- Loads. -/
def LOAD_MNEMS : List Str :=
  ["lwz", "lwzu", "lwzx", "lwzux", "lbz", "lbzu", "lbzx", "lbzux", "lhz", "lhzu", "lhzx", "lhzux",
    "lha", "lhau", "lhax", "lhaux", "lwa", "ld", "ldu", "ldx", "ldux", "lmw", "lfd", "lfdu", "lfdx",
    "lfdux", "lfs", "lfsu", "lfsx", "lfsux", "psq_l", "psq_lu"].map String.toList

/-- Stores. -/
def STORE_MNEMS : List Str :=
  ["stw", "stwu", "stwx", "stwux", "stb", "stbu", "stbx", "stbux", "sth", "sthu", "sthx", "sthux",
    "std", "stdu", "stdx", "stdux", "stmw", "stfd", "stfdu", "stfdx", "stfdux", "stfs", "stfsu",
    "stfsx", "stfsux", "psq_st", "psq_stu"].map String.toList

/-- Integer arithmetic. -/
def INT_ARITH_MNEMS : List Str :=
  ["add", "addc", "adde", "addi", "addic", "addic.", "addis", "addme", "addze", "and", "andc",
    "andi.", "andis.", "divw", "divwu", "extsb", "extsh", "extsw", "mulhw", "mulhwu", "mulli",
    "mullw", "nand", "neg", "nor", "or", "orc", "ori", "oris", "rlwimi", "rlwinm", "rlwnm", "slw",
    "sraw", "srawi", "srw", "sub", "subc", "subf", "subfc", "subfe", "subfic", "subfme", "subfze",
    "xor", "xori", "xoris"].map String.toList

/-- Floating-point arithmetic. -/
def FP_ARITH_MNEMS : List Str :=
  ["fabs", "fadd", "fadds", "fcfid", "fctid", "fctidz", "fctiw", "fctiwz", "fdiv", "fdivs", "fmadd",
    "fmadds", "fmr", "fmsub", "fmsubs", "fmul", "fmuls", "fnabs", "fneg", "fnmadd", "fnmadds",
    "fnmsub", "fnmsubs", "fres", "frsp", "frsqrte", "fsel", "fsqrt", "fsqrts", "fsub", "fsubs",
    "fcmpo", "fcmpu", "ps_add", "ps_sub", "ps_mul", "ps_div", "ps_madd", "ps_msub", "ps_nmadd",
    "ps_nmsub", "ps_neg", "ps_mr", "ps_abs", "ps_sum0", "ps_sum1", "ps_muls0", "ps_muls1",
    "ps_madds0", "ps_madds1", "ps_cmpu0", "ps_cmpu1"].map String.toList

/-- Compares. -/
def CMP_MNEMS : List Str :=
  ["cmp", "cmpw", "cmpwi", "cmpl", "cmplw", "cmplwi"].map String.toList

/-- Conditional branches. -/
def BRANCH_COND_MNEMS : List Str :=
  ["bc", "bcl", "bca", "bcla", "bne", "beq", "blt", "ble", "bgt", "bge", "bnl", "bng", "bso", "bns",
    "bun", "bnu", "bne+", "beq+", "blt+", "ble+", "bgt+", "bge+", "bne-", "beq-", "blt-", "ble-",
    "bgt-", "bge-", "bdz", "bdnz", "bdzf", "bdnzf", "bdzt", "bdnzt"].map String.toList

/-- Unconditional branches. -/
def UNCOND_BRANCH_MNEMS : List Str :=
  ["b", "ba"].map String.toList

/-- Branches that set the link register. -/
def BRANCH_LINK_MNEMS : List Str :=
  ["bl", "bla", "bctrl", "blrl", "bcctrl", "bclrl"].map String.toList

/-- Returns. -/
def BRANCH_RETURN_MNEMS : List Str :=
  ["blr", "bctr", "bclr"].map String.toList

/-- What may follow the `b` of a conditional branch. -/
def CONDITIONS : List Str :=
  ["ne", "eq", "lt", "le", "gt", "ge", "nl", "ng", "so", "ns", "un", "nu"].map String.toList

/-- Loads of an immediate. -/
def IMM_LOAD_MNEMS : List Str := ["li", "lis"].map String.toList

/-- System calls and traps. -/
def SYSCALL_MNEMS : List Str := ["sc", "rfi", "trap", "twi", "tw"].map String.toList

end Tables

/-- `m.startswith("b") and m[1:] in {...}`. -/
def isCondition (m : Str) : Bool :=
  match m with
  | 'b' :: rest => rest ∈ CONDITIONS
  | _ => false

/-- `m.startswith(("f", "ps_"))`. -/
def isFloating (m : Str) : Bool := "f".toList.isPrefixOf m || "ps_".toList.isPrefixOf m

/-- `s.rstrip(".")`. -/
def stripDots (s : Str) : Str := s.rdropWhile (· = '.')

/-- The tests of `classify`, on the normalised mnemonic. -/
def kindOf (m : Str) : InstructionKind :=
  if m ∈ LOAD_MNEMS then .load
  else if m ∈ STORE_MNEMS then .store
  else if m ∈ UNCOND_BRANCH_MNEMS then .branch
  else if m ∈ BRANCH_LINK_MNEMS then .branchLink
  else if m ∈ BRANCH_RETURN_MNEMS then .branchReturn
  else if m ∈ BRANCH_COND_MNEMS ∨ isCondition m then .branchCond
  else if m ∈ IMM_LOAD_MNEMS then .immLoad
  else if m ∈ CMP_MNEMS then .cmp
  else if m ∈ FP_ARITH_MNEMS ∨ isFloating m then .fpArith
  else if m ∈ INT_ARITH_MNEMS then .intArith
  else if m ∈ SYSCALL_MNEMS then .syscall
  else if m = "nop".toList then .nop
  else .other

/-- `classify`. -/
def classify (lowering : LowerCase) (mnem : Str) : InstructionKind := kindOf (stripDots (lowering.lower mnem))

section Rules

/-- A table as a rule. -/
def listed (table : List Str) (kind : InstructionKind) : Rule Str InstructionKind :=
  ⟨fun m => m ∈ table, kind⟩

/-- The tables and heuristics, in the order in which they are tried. -/
def rules : List (Rule Str InstructionKind) :=
  [listed LOAD_MNEMS .load, listed STORE_MNEMS .store, listed UNCOND_BRANCH_MNEMS .branch,
    listed BRANCH_LINK_MNEMS .branchLink, listed BRANCH_RETURN_MNEMS .branchReturn,
    listed BRANCH_COND_MNEMS .branchCond, ⟨isCondition, .branchCond⟩, listed IMM_LOAD_MNEMS .immLoad,
    listed CMP_MNEMS .cmp, listed FP_ARITH_MNEMS .fpArith, ⟨isFloating, .fpArith⟩,
    listed INT_ARITH_MNEMS .intArith, listed SYSCALL_MNEMS .syscall, listed ["nop".toList] .nop]

/-- The tests in any order. -/
def kindBy (order : List (Rule Str InstructionKind)) (m : Str) : InstructionKind :=
  (firstMatch order m).getD .other

theorem kindBy_cons (rule : Rule Str InstructionKind) (order : List (Rule Str InstructionKind)) (m : Str) :
    kindBy (rule :: order) m = if rule.applies m then rule.kind else kindBy order m := by
  unfold kindBy
  rw [firstMatch_cons]
  split_ifs
  · rfl
  · rfl

theorem kindBy_listed (table : List Str) (kind : InstructionKind)
    (order : List (Rule Str InstructionKind)) (m : Str) :
    kindBy (listed table kind :: order) m = if m ∈ table then kind else kindBy order m := by
  rw [kindBy_cons]
  simp only [listed, decide_eq_true_eq]

/-- Trying the rules in order is what `classify` does. -/
theorem kindOf_eq (m : Str) : kindOf m = kindBy rules m := by
  have hnop : m ∈ ["nop".toList] ↔ m = "nop".toList := List.mem_singleton
  unfold kindOf rules
  rw [kindBy_listed, kindBy_listed, kindBy_listed, kindBy_listed, kindBy_listed, kindBy_listed, kindBy_cons,
    kindBy_listed, kindBy_listed, kindBy_listed, kindBy_cons, kindBy_listed, kindBy_listed, kindBy_listed,
    ite_or, ite_or, if_congr hnop rfl rfl]
  rfl

end Rules

section Listed

/-- The tables of the kinds. -/
def kindTables : List (List Str × InstructionKind) :=
  [(LOAD_MNEMS, .load), (STORE_MNEMS, .store), (UNCOND_BRANCH_MNEMS, .branch),
    (BRANCH_LINK_MNEMS, .branchLink), (BRANCH_RETURN_MNEMS, .branchReturn),
    (BRANCH_COND_MNEMS, .branchCond), (CMP_MNEMS, .cmp), (FP_ARITH_MNEMS, .fpArith),
    (INT_ARITH_MNEMS, .intArith)]

/-- All tables that are tried. -/
def triedTables : List (List Str × InstructionKind) :=
  kindTables ++ [(IMM_LOAD_MNEMS, .immLoad), (SYSCALL_MNEMS, .syscall), (["nop".toList], .nop)]

/-- Listed spellings that end in a dot and are in no table without it. -/
def lostSpellings : List Str := ["andi.", "andis."].map String.toList

/-- A text as one number. -/
def code (s : Str) : ℕ := s.foldl (fun n c => n * 256 + c.toNat) 0

/-- Whether no text of a table has this number. -/
def absent (n : ℕ) : List Str → Bool
  | [] => true
  | m :: table => match Nat.beq (code m) n with
    | true => false
    | false => absent n table

theorem not_mem_of_absent {m : Str} {table : List Str} (h : absent (code m) table = true) : m ∉ table := by
  induction table with
  | nil => exact List.not_mem_nil
  | cons other table ih =>
    unfold absent at h
    cases hsame : Nat.beq (code other) (code m) with
    | true =>
      rw [hsame] at h
      exact absurd h Bool.false_ne_true
    | false =>
      rw [hsame] at h
      have hne : m ≠ other := by
        rintro rfl
        rw [Nat.beq_refl] at hsame
        exact absurd hsame.symm Bool.false_ne_true
      exact List.not_mem_cons_of_ne_of_not_mem hne (ih h)

/-- Two tables have no text in common. -/
def apart (t u : List Str × InstructionKind) : Bool := t.1.all fun m => absent (code m) u.1

/-- Whether the heuristics that apply to a text name this kind. -/
def heeded (m : Str) (kind : InstructionKind) : Bool :=
  (!isCondition m || decide (kind = .branchCond)) && (!isFloating m || decide (kind = .fpArith))

/-- Whether the normalisation leads from a text to a text of the same table. -/
def returns (m : Str) (table : List Str) : Bool :=
  match m.getLast? with
  | some '.' => decide (m ∈ lostSpellings) || decide (stripDots m ∈ table)
  | _ => true

/-- What the tables are like. -/
theorem tables_checked : triedTables.Pairwise (fun t u => apart t u = true) ∧
    ∀ t ∈ kindTables, (t.1.all fun m => heeded m t.2 && returns m t.1) = true := by
  decide +kernel

variable {t u : List Str × InstructionKind} {m : Str}

/-- A text of a kind's table is in no table of another kind. -/
theorem not_mem_of_kind_ne (ht : t ∈ kindTables) (hm : m ∈ t.1) (hu : u ∈ triedTables) (hkind : u.2 ≠ t.2) :
    m ∉ u.1 := by
  have hsymm : Std.Symm fun t u : List Str × InstructionKind => u.2 = t.2 ∨ ∀ m ∈ t.1, m ∉ u.1 := by
    refine ⟨fun t u h => ?_⟩
    rcases h with hsame | hnone
    · exact Or.inl hsame.symm
    · exact Or.inr fun m hm hother => hnone m hother hm
  have hpairs : triedTables.Pairwise fun t u => u.2 = t.2 ∨ ∀ m ∈ t.1, m ∉ u.1 := by
    refine tables_checked.1.imp fun {t u} hapart => Or.inr fun m hm => ?_
    exact not_mem_of_absent (List.all_eq_true.mp hapart m hm)
  have htried : t ∈ triedTables := List.mem_append_left _ ht
  have hrefl : ∀ t ∈ triedTables, t.2 = t.2 ∨ ∀ m ∈ t.1, m ∉ t.1 := fun t _ => Or.inl rfl
  exact (hpairs.forall_of_forall hrefl htried hu).resolve_left hkind m hm

theorem heeded_of_listed (ht : t ∈ kindTables) (hm : m ∈ t.1) : heeded m t.2 = true := by
  have hchecked := List.all_eq_true.mp (tables_checked.2 t ht) m hm
  rw [Bool.and_eq_true] at hchecked
  exact hchecked.1

/-- The normalisation leads from a listed text to a text of the same table. -/
theorem stripDots_listed (ht : t ∈ kindTables) (hm : m ∈ t.1) (hkept : m ∉ lostSpellings) :
    stripDots m ∈ t.1 := by
  have hchecked := List.all_eq_true.mp (tables_checked.2 t ht) m hm
  rw [Bool.and_eq_true] at hchecked
  have hreturns := hchecked.2
  unfold returns at hreturns
  split at hreturns
  · rw [Bool.or_eq_true, decide_eq_true_eq, decide_eq_true_eq] at hreturns
    exact hreturns.resolve_left hkept
  · rename_i hlast
    have hplain : stripDots m = m := by
      refine List.rdropWhile_eq_self_iff.mpr fun hne hdot => hlast ?_
      rw [List.getLast?_eq_some_getLast hne, of_decide_eq_true hdot]
    rw [hplain]
    exact hm

/-- Every rule that applies to a listed text names its kind. -/
theorem rules_agree (ht : t ∈ kindTables) (hm : m ∈ t.1) :
    ∀ rule ∈ rules, rule.applies m = true → rule.kind = t.2 := by
  have htable : ∀ (i : ℕ) (hi : i < triedTables.length),
      (listed triedTables[i].1 triedTables[i].2).applies m = true → triedTables[i].2 = t.2 := by
    intro i hi happlies
    by_contra hkind
    exact not_mem_of_kind_ne ht hm (List.getElem_mem hi) hkind (of_decide_eq_true happlies)
  have hheeded := heeded_of_listed ht hm
  unfold heeded at hheeded
  rw [Bool.and_eq_true] at hheeded
  have hcond : isCondition m = true → InstructionKind.branchCond = t.2 := by
    intro happlies
    have hkind := hheeded.1
    rw [happlies, Bool.not_true, Bool.false_or, decide_eq_true_eq] at hkind
    exact hkind.symm
  have hfloat : isFloating m = true → InstructionKind.fpArith = t.2 := by
    intro happlies
    have hkind := hheeded.2
    rw [happlies, Bool.not_true, Bool.false_or, decide_eq_true_eq] at hkind
    exact hkind.symm
  intro rule hmem
  simp only [rules, List.mem_cons, List.not_mem_nil, or_false] at hmem
  rcases hmem with rfl | rfl | rfl | rfl | rfl | rfl | rfl | rfl | rfl | rfl | rfl | rfl | rfl | rfl
  · exact htable 0 (by decide)
  · exact htable 1 (by decide)
  · exact htable 2 (by decide)
  · exact htable 3 (by decide)
  · exact htable 4 (by decide)
  · exact htable 5 (by decide)
  · exact hcond
  · exact htable 9 (by decide)
  · exact htable 6 (by decide)
  · exact htable 7 (by decide)
  · exact hfloat
  · exact htable 8 (by decide)
  · exact htable 10 (by decide)
  · exact htable 11 (by decide)

/-- A listed text is settled. -/
theorem settled_of_listed (ht : t ∈ kindTables) (hm : m ∈ t.1) : Settled rules m t.2 := by
  have hrule : ∃ rule ∈ rules, rule.applies m = true := by
    simp only [kindTables, List.mem_cons, List.not_mem_nil, or_false] at ht
    rcases ht with rfl | rfl | rfl | rfl | rfl | rfl | rfl | rfl | rfl
    · exact ⟨rules[0], List.getElem_mem _, decide_eq_true hm⟩
    · exact ⟨rules[1], List.getElem_mem _, decide_eq_true hm⟩
    · exact ⟨rules[2], List.getElem_mem _, decide_eq_true hm⟩
    · exact ⟨rules[3], List.getElem_mem _, decide_eq_true hm⟩
    · exact ⟨rules[4], List.getElem_mem _, decide_eq_true hm⟩
    · exact ⟨rules[5], List.getElem_mem _, decide_eq_true hm⟩
    · exact ⟨rules[8], List.getElem_mem _, decide_eq_true hm⟩
    · exact ⟨rules[9], List.getElem_mem _, decide_eq_true hm⟩
    · exact ⟨rules[11], List.getElem_mem _, decide_eq_true hm⟩
  exact ⟨hrule, rules_agree ht hm⟩

end Listed

section Agreement

/-- `s.removesuffix(".")`. -/
def withoutDot (s : Str) : Str := if s.getLast? = some '.' then s.dropLast else s

theorem dotted_cases (s : Str) : withoutDot s = s ∧ s.getLast? ≠ some '.' ∨ s = withoutDot s ++ ['.'] := by
  unfold withoutDot
  by_cases hlast : s.getLast? = some '.'
  · rw [if_pos hlast]
    exact Or.inr (List.dropLast_append_getLast? '.' hlast).symm
  · rw [if_neg hlast]
    exact Or.inl ⟨rfl, hlast⟩

theorem stripDots_withoutDot (s : Str) : stripDots (withoutDot s) = stripDots s := by
  rcases dotted_cases s with ⟨hsame, -⟩ | hdotted
  · rw [hsame]
  · have hdrop : stripDots (withoutDot s ++ ['.']) = stripDots (withoutDot s) :=
      List.rdropWhile_concat_pos _ _ _ (by decide)
    rw [← hdotted] at hdrop
    exact hdrop.symm

/-- A listed mnemonic, with or without the dot of a record form, has the kind of its table, whatever
the order of the tables and heuristics. -/
structure AgreesWithTables (lowering : LowerCase) (mnem : Str) : Prop where
  /-- A listed spelling has the kind of its table. -/
  listed : ∀ t ∈ kindTables, lowering.lower mnem ∈ t.1 → classify lowering mnem = t.2
  /-- So has one that is listed without its dot. -/
  record : (∀ t ∈ kindTables, lowering.lower mnem ∉ t.1) →
    ∀ t ∈ kindTables, withoutDot (lowering.lower mnem) ∈ t.1 → classify lowering mnem = t.2
  /-- For these the order of the rules does not matter. -/
  ordered : (∃ t ∈ kindTables, lowering.lower mnem ∈ t.1 ∨ withoutDot (lowering.lower mnem) ∈ t.1) →
    ∀ order : List (Rule Str InstructionKind), order.Perm rules →
      kindBy order (stripDots (lowering.lower mnem)) = classify lowering mnem

variable {t : List Str × InstructionKind} {m : Str}

/-- A listed text that is not lost is classified by its table, in any order. -/
theorem kindBy_stripDots (ht : t ∈ kindTables) (hm : m ∈ t.1) (hkept : m ∉ lostSpellings)
    {order : List (Rule Str InstructionKind)} (hperm : order.Perm rules) :
    kindBy order (stripDots m) = t.2 := by
  have hsettled := (settled_of_listed ht (stripDots_listed ht hm hkept)).perm hperm
  unfold kindBy
  rw [hsettled.firstMatch_eq, Option.getD_some]

/-- The lost spellings are listed and classified as something else; with another dot they are in no
table. -/
theorem lost_checked : ∀ m ∈ lostSpellings, kindOf (stripDots m) = .other ∧
    ∀ t ∈ kindTables, m ++ ['.'] ∉ t.1 := by
  decide +kernel

theorem lost_listed : ∀ m ∈ lostSpellings, m ∈ INT_ARITH_MNEMS := by decide +kernel

end Agreement

/-- The classifier agrees with its tables except on the two listed spellings whose dot it removes
before it looks them up. -/
theorem classify_agrees_iff (lowering : LowerCase) (mnem : Str) : AgreesWithTables lowering mnem ↔
    lowering.lower mnem ∉ lostSpellings ∧ withoutDot (lowering.lower mnem) ∉ lostSpellings := by
  have hint : (INT_ARITH_MNEMS, InstructionKind.intArith) ∈ kindTables := List.getElem_mem (n := 8) (by decide)
  constructor
  · intro h
    constructor
    · intro hlost
      have hkind := h.listed _ hint (lost_listed _ hlost)
      unfold classify at hkind
      rw [(lost_checked _ hlost).1] at hkind
      exact absurd hkind (by decide)
    · intro hlost
      have hunlisted : ∀ t ∈ kindTables, lowering.lower mnem ∉ t.1 := by
        rcases dotted_cases (lowering.lower mnem) with ⟨hsame, hlast⟩ | hdotted
        · have hends : ∀ m ∈ lostSpellings, m.getLast? = some '.' := by decide
          rw [hsame] at hlost
          exact absurd (hends _ hlost) hlast
        · rw [hdotted]
          exact (lost_checked _ hlost).2
      have hkind := h.record hunlisted _ hint (lost_listed _ hlost)
      unfold classify at hkind
      rw [← stripDots_withoutDot, (lost_checked _ hlost).1] at hkind
      exact absurd hkind (by decide)
  · rintro ⟨hkept, hrecord⟩
    have hlisted : ∀ t ∈ kindTables, lowering.lower mnem ∈ t.1 ∨ withoutDot (lowering.lower mnem) ∈ t.1 →
        ∀ order : List (Rule Str InstructionKind), order.Perm rules →
          kindBy order (stripDots (lowering.lower mnem)) = t.2 := by
      intro t ht hm order hperm
      rcases hm with hm | hm
      · exact kindBy_stripDots ht hm hkept hperm
      · rw [← stripDots_withoutDot]
        exact kindBy_stripDots ht hm hrecord hperm
    have hclassify : classify lowering mnem = kindBy rules (stripDots (lowering.lower mnem)) := kindOf_eq _
    constructor
    · intro t ht hm
      rw [hclassify]
      exact hlisted t ht (Or.inl hm) rules (List.Perm.refl rules)
    · intro _ t ht hm
      rw [hclassify]
      exact hlisted t ht (Or.inr hm) rules (List.Perm.refl rules)
    · rintro ⟨t, ht, hm⟩ order hperm
      rw [hclassify, hlisted t ht hm order hperm, hlisted t ht hm rules (List.Perm.refl rules)]

/-- `andi.` is listed as integer arithmetic and classified as something else. -/
theorem andi_is_not_classified : ¬AgreesWithTables asciiLower "andi.".toList := by
  intro h
  have hint : (INT_ARITH_MNEMS, InstructionKind.intArith) ∈ kindTables := List.getElem_mem (n := 8) (by decide)
  have hkind := h.listed _ hint (lost_listed _ (by decide))
  have hother : classify asciiLower "andi.".toList = .other := by decide +kernel
  rw [hother] at hkind
  exact absurd hkind (by decide)

end DolphinRe.MnemonicKinds
