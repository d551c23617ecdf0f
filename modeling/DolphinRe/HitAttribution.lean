import DolphinRe.SessionMachine
import Mathlib.Data.List.Nodup

/-!
# Which breakpoint a stop belongs to

The registry holds breakpoints under distinct numbers. The annotated address is
compared with the first byte of a watchpoint only, and the lone watchpoint is
the last resort whatever the annotation said: both directions of the
attribution hold exactly outside these two cases.
-/

namespace DolphinRe.HitAttribution

open PythonText GdbPackets GdbTokens GdbWire StopReplies EffectProgram SessionMachine

section Registries

/-- Every number belongs to one registered breakpoint. -/
def Distinct (specs : List BreakpointSpec) : Prop := (specs.map BreakpointSpec.bpId).Nodup

instance (specs : List BreakpointSpec) : Decidable (Distinct specs) :=
  inferInstanceAs (Decidable (List.Nodup _))

/-- The breakpoints of a session: a dictionary keyed by their numbers. -/
structure Registry where
  /-- The values in insertion order. -/
  specs : List BreakpointSpec
  /-- The keys are distinct. -/
  distinct : Distinct specs

theorem Registry.eq_of_bpId (registry : Registry) {x y : BreakpointSpec} (hx : x ∈ registry.specs)
    (hy : y ∈ registry.specs) (h : x.bpId = y.bpId) : x = y :=
  List.inj_on_of_nodup_map registry.distinct hx hy h

theorem distinct_register {specs : List BreakpointSpec} (h : Distinct specs) (spec : BreakpointSpec) :
    Distinct (register spec specs) := by
  unfold Distinct register at *
  split_ifs with hold
  · have hkeys : (specs.map fun old => if old.bpId = spec.bpId then spec else old).map
        BreakpointSpec.bpId = specs.map BreakpointSpec.bpId := by
      rw [List.map_map]
      refine List.map_congr_left fun old _ => ?_
      rw [Function.comp_apply]
      split_ifs with heq
      · exact heq.symm
      · rfl
    rw [hkeys]
    exact h
  · rw [List.map_append, List.map_singleton, List.nodup_append]
    have hnew : ∀ old ∈ specs, old.bpId ≠ spec.bpId := by simpa using hold
    refine ⟨h, List.nodup_singleton _, fun key hkey other hother => ?_⟩
    obtain ⟨old, hmem, rfl⟩ := List.mem_map.mp hkey
    rw [List.mem_singleton.mp hother]
    exact hnew old hmem

theorem distinct_unregister {specs : List BreakpointSpec} (h : Distinct specs) (bpId : ℕ) :
    Distinct (unregister bpId specs) :=
  List.Nodup.sublist (List.filter_sublist.map BreakpointSpec.bpId) h

theorem distinct_amend {specs : List BreakpointSpec} (h : Distinct specs) (bpId : ℕ)
    {f : BreakpointSpec → BreakpointSpec} (hf : ∀ spec, (f spec).bpId = spec.bpId) :
    Distinct (amend bpId f specs) := by
  have hkeys : (amend bpId f specs).map BreakpointSpec.bpId = specs.map BreakpointSpec.bpId := by
    unfold amend
    rw [List.map_map]
    refine List.map_congr_left fun spec _ => ?_
    rw [Function.comp_apply]
    split_ifs
    · exact hf spec
    · rfl
  unfold Distinct
  rw [hkeys]
  exact h

variable {τ N L : Type}

/-- Every access of a session leaves a registry behind. -/
theorem distinct_step (link : Link τ N L) (o : Op τ) (c : Choice τ N) {w : World τ L}
    (h : Distinct w.breakpoints) : Distinct (World.step link o c w).2.breakpoints := by
  have habsorb : Distinct (w.absorb link c.acts).breakpoints := by
    rw [World.absorb_breakpoints]
    exact h
  cases o with
  | registerBp spec => exact distinct_register h spec
  | unregisterBp bpId => exact distinct_unregister h bpId
  | clearBreakpoints => exact List.nodup_nil
  | setCaptures bpId captures => exact distinct_amend h bpId fun _ => rfl
  | setAutoContinue bpId enabled => exact distinct_amend h bpId fun _ => rfl
  | appendLog bpId capture raw => exact distinct_amend h bpId fun _ => rfl
  | send message =>
    change Distinct (World.send link message c (w.absorb link c.acts)).2.breakpoints
    unfold World.send
    split_ifs <;> exact habsorb
  | consumeAck =>
    change Distinct (World.consumeAck link c (w.absorb link c.acts)).2.breakpoints
    unfold World.consumeAck
    split_ifs <;> exact habsorb
  | readPacketFromWire timeout =>
    change Distinct (World.readPacket link c (w.absorb link c.acts)).2.breakpoints
    unfold World.readPacket
    split_ifs <;> exact habsorb
  | connect =>
    change Distinct (World.connect link c (w.absorb link c.acts)).2.breakpoints
    unfold World.connect
    split_ifs <;> exact habsorb
  | markRunning =>
    change Distinct (if _ then {w with state := .connectedRunning} else w).breakpoints
    split_ifs <;> exact h
  | markPaused =>
    change Distinct (if _ then {w with state := .connectedPaused} else w).breakpoints
    split_ifs <;> exact h
  | close =>
    change Distinct (if _ then w.closed link else w).breakpoints
    split_ifs <;> exact h
  | _ => first
    | exact h
    | exact habsorb

/-- In every run the session's breakpoints form a registry. -/
theorem keeps_distinct (link : Link τ N L) {α : Type} (p : Program (signature τ) PyError α) :
    p.Keeps (machine link) fun w : World τ L => Distinct w.breakpoints := by
  intro w h
  refine Program.wp_of_uses (P := fun _ => True)
    (I := fun w : World τ L => Distinct w.breakpoints) ?_
    p.uses_any h
  intro o c w _ _ h
  exact distinct_step link o c h

end Registries

section Annotations

/-- Parsing sets an annotated address only next to an annotated kind. -/
def Annotated (parsed : StopReply) : Prop :=
  (parsed.watchAddr ≠ none → parsed.watchKind ≠ none) ∧
    (parsed.watchKind ≠ none → kindFilter parsed.watchKind ≠ none)

theorem kindFilter_ne_none {k : Str} (h : k = "watch".toList ∨ k = "rwatch".toList ∨ k = "awatch".toList) :
    kindFilter (some k) ≠ none := by
  rcases h with rfl | rfl | rfl
  · decide
  · decide
  · decide

theorem annotated_readField {out : StopReply} (h : Annotated out) (kv : Str) :
    Annotated (readField out kv) := by
  unfold readField
  by_cases hcolon : ':' ∈ kv
  · rw [if_pos hcolon]
    generalize kv.takeWhile (· ≠ ':') = k
    generalize (kv.dropWhile (· ≠ ':')).drop 1 = v
    dsimp only
    cases parseHexInt k with
    | none =>
      dsimp only
      split_ifs with hkind
      · exact ⟨fun _ => Option.some_ne_none k, fun _ => kindFilter_ne_none hkind⟩
      · exact h
    | some regnum =>
      cases parseHexInt v with
      | none => exact h
      | some value => exact h
  · rw [if_neg hcolon]
    exact h

theorem annotated_parseStopReply (raw : Str) : Annotated (parseStopReply raw) := by
  have hstart : ∀ out : StopReply, out.watchAddr = none → out.watchKind = none → Annotated out := by
    intro out haddr hkind
    exact ⟨fun hne => absurd haddr hne, fun hne => absurd hkind hne⟩
  have hfields : ∀ (fields : List Str) (out : StopReply), Annotated out →
      Annotated (fields.foldl readField out) := by
    intro fields
    induction fields with
    | nil => exact fun out h => h
    | cons kv fields ih => exact fun out h => ih _ (annotated_readField h kv)
  unfold parseStopReply
  dsimp only
  split
  · exact hstart _ rfl rfl
  · split_ifs
    · split
      · exact hstart _ rfl rfl
      · split
        · exact hstart _ rfl rfl
        · exact hfields _ _ (hstart _ rfl rfl)
    · split
      · exact hstart _ rfl rfl
      · exact hstart _ rfl rfl
    · exact hstart _ rfl rfl
    · exact hstart _ rfl rfl

end Annotations

section Rules

variable {parsed : StopReply}

/-- The reply is annotated with the kind and the first address of a watchpoint. -/
def Names (parsed : StopReply) (spec : BreakpointSpec) : Prop :=
  kindFilter parsed.watchKind = some spec.kind ∧ parsed.watchAddr = some spec.addr

/-- The reply's program counter is the address of a breakpoint. -/
def AtPc (parsed : StopReply) (spec : BreakpointSpec) : Prop :=
  BpKind.isBreakpoint spec.kind = true ∧ parsed.pc = some spec.addr

/-- The only registered watchpoint. -/
def Lone (specs : List BreakpointSpec) (spec : BreakpointSpec) : Prop :=
  BpKind.isWatchpoint spec.kind = true ∧
    ∀ other ∈ specs, BpKind.isWatchpoint other.kind = true → other = spec

instance (parsed : StopReply) (spec : BreakpointSpec) : Decidable (Names parsed spec) :=
  inferInstanceAs (Decidable (_ ∧ _))

instance (parsed : StopReply) (spec : BreakpointSpec) : Decidable (AtPc parsed spec) :=
  inferInstanceAs (Decidable (_ ∧ _))

instance (specs : List BreakpointSpec) (spec : BreakpointSpec) : Decidable (Lone specs spec) :=
  inferInstanceAs (Decidable (_ ∧ _))

theorem not_watchpoint_of_breakpoint {kind : BpKind} (h : BpKind.isBreakpoint kind = true) :
    BpKind.isWatchpoint kind = false := by
  cases kind with
  | swBp => rfl
  | hwBp => rfl
  | writeWp => exact absurd h Bool.false_ne_true
  | readWp => exact absurd h Bool.false_ne_true
  | accessWp => exact absurd h Bool.false_ne_true

/-- Annotations stand for watchpoints. -/
theorem watchpoint_of_kindFilter {watchKind : Option Str} {kind : BpKind}
    (h : kindFilter watchKind = some kind) : BpKind.isWatchpoint kind = true := by
  unfold kindFilter at h
  split_ifs at h
  · exact Option.some.inj h ▸ rfl
  · exact Option.some.inj h ▸ rfl
  · exact Option.some.inj h ▸ rfl

/-- The first rule of an annotated reply: the first entry the annotation names. -/
theorem matchWatch_eq (h : Annotated parsed) (specs : List BreakpointSpec) :
    matchWatch parsed specs =
      (specs.find? fun spec => Names parsed spec).map BreakpointSpec.bpId := by
  unfold matchWatch
  cases haddr : parsed.watchAddr with
  | none =>
    have hnone : (specs.find? fun spec => Names parsed spec) = none := by
      rw [List.find?_eq_none]
      intro spec _
      simp [Names, haddr]
    rw [hnone]
    rfl
  | some addr =>
    have hkind : kindFilter parsed.watchKind ≠ none := h.2 (h.1 (by rw [haddr]; simp))
    dsimp only
    congr 2
    funext spec
    simp only [Names, haddr, hkind, false_or, Option.some.injEq]
    congr 1
    rw [eq_iff_iff]
    exact ⟨fun ⟨haddr, hkind⟩ => ⟨hkind, haddr.symm⟩, fun ⟨hkind, haddr⟩ => ⟨haddr.symm, hkind⟩⟩

/-- The second rule: the first breakpoint at the program counter. -/
theorem matchPc_eq (parsed : StopReply) (specs : List BreakpointSpec) :
    matchPc parsed specs = (specs.find? fun spec => AtPc parsed spec).map BreakpointSpec.bpId := by
  unfold matchPc
  cases hpc : parsed.pc with
  | none =>
    have hnone : (specs.find? fun spec => AtPc parsed spec) = none := by
      rw [List.find?_eq_none]
      intro spec _
      simp [AtPc, hpc]
    rw [hnone]
    rfl
  | some pc =>
    dsimp only
    congr 2
    funext spec
    simp only [AtPc, hpc, Option.some.injEq]
    congr 1
    rw [eq_iff_iff]
    exact and_congr_right fun _ => eq_comm

/-- The last rule: the only watchpoint. -/
theorem matchLone_eq_some_iff (registry : Registry) (bpId : ℕ) :
    matchLone registry.specs = some bpId ↔
      ∃ spec ∈ registry.specs, Lone registry.specs spec ∧ spec.bpId = bpId := by
  have hmem : ∀ spec, spec ∈ registry.specs.filter (fun spec => BpKind.isWatchpoint spec.kind) ↔
      spec ∈ registry.specs ∧ BpKind.isWatchpoint spec.kind = true := fun spec => List.mem_filter
  have hnodup : (registry.specs.filter fun spec => BpKind.isWatchpoint spec.kind).Nodup :=
    (List.Nodup.of_map _ registry.distinct).filter _
  unfold matchLone
  generalize registry.specs.filter (fun spec => BpKind.isWatchpoint spec.kind) = watchpoints at *
  constructor
  · intro h
    match watchpoints with
    | [] => simp at h
    | [spec] =>
      obtain ⟨hspec, hkind⟩ := (hmem spec).mp (List.mem_singleton_self spec)
      refine ⟨spec, hspec, ⟨hkind, fun other hother hwatch => ?_⟩, Option.some.inj h⟩
      exact List.mem_singleton.mp ((hmem other).mpr ⟨hother, hwatch⟩)
    | _ :: _ :: _ => simp at h
  · rintro ⟨spec, hspec, ⟨hkind, hlone⟩, rfl⟩
    have hall : ∀ other ∈ watchpoints, other = spec := fun other hother =>
      hlone other ((hmem other).mp hother).1 ((hmem other).mp hother).2
    have hin := (hmem spec).mpr ⟨hspec, hkind⟩
    match watchpoints with
    | [] => simp at hin
    | [first] => rw [hall first (List.mem_singleton_self first)]
    | first :: second :: rest =>
      have hfirst := hall first (by simp)
      have hsecond := hall second (by simp)
      rw [hfirst, hsecond] at hnodup
      simp at hnodup

/-- What an attribution says about the reply and the registry. -/
theorem attributed (registry : Registry) (h : Annotated parsed) {spec : BreakpointSpec}
    (hspec : spec ∈ registry.specs) (hmatch : matchBp parsed registry.specs = some spec.bpId) :
    Names parsed spec ∨ (AtPc parsed spec ∧ ∀ other ∈ registry.specs, ¬Names parsed other) ∨
      (Lone registry.specs spec ∧ (∀ other ∈ registry.specs, ¬AtPc parsed other) ∧
        ∀ other ∈ registry.specs, ¬Names parsed other) := by
  unfold matchBp at hmatch
  rw [matchWatch_eq h, matchPc_eq] at hmatch
  cases hwatch : registry.specs.find? fun spec => Names parsed spec with
  | some first =>
    rw [hwatch] at hmatch
    have hfirst : first = spec := registry.eq_of_bpId (List.mem_of_find?_eq_some hwatch) hspec
      (Option.some.inj hmatch)
    have hnamed := List.find?_some hwatch
    rw [hfirst] at hnamed
    exact Or.inl (of_decide_eq_true hnamed)
  | none =>
    have hnames : ∀ other ∈ registry.specs, ¬Names parsed other := by
      simpa using List.find?_eq_none.mp hwatch
    rw [hwatch] at hmatch
    cases hpc : registry.specs.find? fun spec => AtPc parsed spec with
    | some first =>
      rw [hpc] at hmatch
      have hfirst : first = spec := registry.eq_of_bpId (List.mem_of_find?_eq_some hpc) hspec
        (Option.some.inj hmatch)
      have hat := List.find?_some hpc
      rw [hfirst] at hat
      exact Or.inr (Or.inl ⟨of_decide_eq_true hat, hnames⟩)
    | none =>
      have hat : ∀ other ∈ registry.specs, ¬AtPc parsed other := by
        simpa using List.find?_eq_none.mp hpc
      rw [hpc] at hmatch
      obtain ⟨only, honly, hlone, hid⟩ := (matchLone_eq_some_iff registry _).mp hmatch
      have heq : only = spec := registry.eq_of_bpId honly hspec hid
      exact Or.inr (Or.inr ⟨heq ▸ hlone, hat, hnames⟩)

/-- The first entry the annotation names wins. -/
theorem matchBp_of_first (h : Annotated parsed) {before after : List BreakpointSpec}
    {spec : BreakpointSpec} (hspec : Names parsed spec) (hbefore : ∀ other ∈ before, ¬Names parsed other) :
    matchBp parsed (before ++ spec :: after) = some spec.bpId := by
  have hfind : ((before ++ spec :: after).find? fun spec => Names parsed spec) = some spec := by
    rw [List.find?_eq_some_iff_append]
    refine ⟨decide_eq_true hspec, before, after, rfl, fun other hother => ?_⟩
    rw [decide_eq_false (hbefore other hother)]
    rfl
  unfold matchBp
  rw [matchWatch_eq h, hfind]
  rfl

/-- The lone watchpoint is taken when neither the annotation nor the program counter decides. -/
theorem matchBp_of_lone (registry : Registry) (h : Annotated parsed) {spec : BreakpointSpec}
    (hspec : spec ∈ registry.specs) (hlone : Lone registry.specs spec)
    (hnames : ∀ other ∈ registry.specs, ¬Names parsed other)
    (hat : ∀ other ∈ registry.specs, ¬AtPc parsed other) :
    matchBp parsed registry.specs = some spec.bpId := by
  have hwatch : (registry.specs.find? fun spec => Names parsed spec) = none := by
    rw [List.find?_eq_none]
    simpa using hnames
  have hpc : (registry.specs.find? fun spec => AtPc parsed spec) = none := by
    rw [List.find?_eq_none]
    simpa using hat
  unfold matchBp
  rw [matchWatch_eq h, matchPc_eq, hwatch, hpc,
    (matchLone_eq_some_iff registry spec.bpId).mpr ⟨spec, hspec, hlone, rfl⟩]
  rfl

end Rules

section Soundness

/-- An attribution is backed by what the reply says. -/
def Backed (parsed : StopReply) (specs : List BreakpointSpec) : Prop :=
  ∀ spec ∈ specs, matchBp parsed specs = some spec.bpId →
    (BpKind.isWatchpoint spec.kind = true → Names parsed spec ∨
      parsed.watchKind = none ∧ (∀ other ∈ specs, ¬AtPc parsed other) ∧ Lone specs spec) ∧
    (BpKind.isBreakpoint spec.kind = true → parsed.pc = some spec.addr)

/-- The reply is annotated, nothing registered fits the annotation or the
program counter, and one watchpoint is registered. -/
def Stray (parsed : StopReply) (specs : List BreakpointSpec) : Prop :=
  parsed.watchKind ≠ none ∧ (∀ spec ∈ specs, ¬Names parsed spec) ∧
    (∀ spec ∈ specs, ¬AtPc parsed spec) ∧ ∃ spec ∈ specs, Lone specs spec

/-- Attribution is backed by the reply except for stray annotations, which go to
the lone watchpoint. -/
theorem backed_iff_not_stray (raw : Str) (registry : Registry) :
    Backed (parseStopReply raw) registry.specs ↔ ¬Stray (parseStopReply raw) registry.specs := by
  have hannotated := annotated_parseStopReply raw
  generalize parseStopReply raw = parsed at *
  constructor
  · rintro hbacked ⟨hkind, hnames, hat, spec, hspec, hlone⟩
    have hmatch := matchBp_of_lone registry hannotated hspec hlone hnames hat
    rcases (hbacked spec hspec hmatch).1 hlone.1 with hnamed | ⟨hnone, -⟩
    · exact hnames spec hspec hnamed
    · exact hkind hnone
  · intro hstray spec hspec hmatch
    rcases attributed registry hannotated hspec hmatch with hnamed | ⟨hpc, -⟩ | ⟨hlone, hat, hnames⟩
    · have hwatch := watchpoint_of_kindFilter hnamed.1
      refine ⟨fun _ => Or.inl hnamed, fun hbreak => ?_⟩
      rw [not_watchpoint_of_breakpoint hbreak] at hwatch
      exact absurd hwatch Bool.false_ne_true
    · refine ⟨fun hwatch => ?_, fun _ => hpc.2⟩
      rw [not_watchpoint_of_breakpoint hpc.1] at hwatch
      exact absurd hwatch Bool.false_ne_true
    · refine ⟨fun _ => Or.inr ⟨?_, hat, hlone⟩, fun hbreak => ?_⟩
      · by_contra hkind
        exact hstray ⟨hkind, hnames, hat, spec, hspec, hlone⟩
      · have hwatch := hlone.1
        rw [not_watchpoint_of_breakpoint hbreak] at hwatch
        exact absurd hwatch Bool.false_ne_true

/-- A write reported at an address nobody watches is attributed to the only
watchpoint, which is elsewhere. -/
theorem stray_annotation_is_attributed :
    ¬∀ (raw : Str) (registry : Registry), Backed (parseStopReply raw) registry.specs := by
  intro h
  let elsewhere : BreakpointSpec := {bpId := 1, addr := 0x80001000, kind := .writeWp}
  have hbacked := h "T05watch:80002000;".toList ⟨[elsewhere], by decide⟩ elsewhere (by simp) (by decide)
  rcases hbacked.1 (by decide) with hnames | hnone
  · exact absurd hnames (by decide)
  · exact absurd hnone.1 (by decide)

end Soundness

section Completeness

/-- The bytes a watchpoint covers. -/
def Covers (spec : BreakpointSpec) (a : ℤ) : Prop := spec.addr ≤ a ∧ a < spec.addr + spec.size

instance (spec : BreakpointSpec) (a : ℤ) : Decidable (Covers spec a) := inferInstanceAs (Decidable (_ ∧ _))

/-- One registered watchpoint of the annotated kind covers the annotated address. -/
structure CoveredOnlyBy (parsed : StopReply) (specs : List BreakpointSpec) (a : ℤ) (spec : BreakpointSpec) :
    Prop where
  /-- It is registered. -/
  registered : spec ∈ specs
  /-- Its kind is the annotated one. -/
  kind : kindFilter parsed.watchKind = some spec.kind
  /-- The reply carries the address. -/
  addr : parsed.watchAddr = some a
  /-- It covers the address. -/
  covers : Covers spec a
  /-- No other watchpoint of its kind does. -/
  only : ∀ other ∈ specs, other.kind = spec.kind → Covers other a → other = spec

/-- The watchpoint that covers the annotated address is found when it starts
there and no earlier entry of its kind does, or as the only watchpoint when
nothing else fits. -/
theorem found_iff (parsed : StopReply) (registry : Registry) (a : ℤ) (spec : BreakpointSpec)
    (h : CoveredOnlyBy parsed registry.specs a spec) :
    matchBp parsed registry.specs = some spec.bpId ↔
      (Names parsed spec ∧ ∃ before after, registry.specs = before ++ spec :: after ∧
        ∀ other ∈ before, ¬Names parsed other) ∨
      ((∀ other ∈ registry.specs, ¬Names parsed other) ∧
        (∀ other ∈ registry.specs, ¬AtPc parsed other) ∧ Lone registry.specs spec) := by
  have hkind : kindFilter parsed.watchKind ≠ none := by
    rw [h.kind]
    exact Option.some_ne_none _
  have hannotated : Annotated parsed := by
    refine ⟨fun _ hnone => ?_, fun _ => hkind⟩
    rw [hnone] at hkind
    exact hkind (by decide)
  have hwatch := watchpoint_of_kindFilter h.kind
  constructor
  · intro hmatch
    rcases attributed registry hannotated h.registered hmatch with hnamed | ⟨hpc, -⟩ | ⟨hlone, hat, hnames⟩
    · refine Or.inl ⟨hnamed, ?_⟩
      cases hfind : registry.specs.find? fun spec => Names parsed spec with
      | none => exact absurd hnamed (by simpa using List.find?_eq_none.mp hfind spec h.registered)
      | some first =>
        obtain ⟨hfirst, before, after, hsplit, hbefore⟩ := List.find?_eq_some_iff_append.mp hfind
        have hnone : ∀ other ∈ before, ¬Names parsed other := by simpa using hbefore
        have hmatch' : matchBp parsed (before ++ first :: after) = some first.bpId :=
          matchBp_of_first hannotated (of_decide_eq_true hfirst) hnone
        rw [← hsplit, hmatch] at hmatch'
        have heq : spec = first := registry.eq_of_bpId h.registered (List.mem_of_find?_eq_some hfind)
          (Option.some.inj hmatch')
        exact ⟨before, after, heq ▸ hsplit, hnone⟩
    · rw [not_watchpoint_of_breakpoint hpc.1] at hwatch
      exact absurd hwatch Bool.false_ne_true
    · exact Or.inr ⟨hnames, hat, hlone⟩
  · rintro (⟨hnamed, before, after, hsplit, hbefore⟩ | ⟨hnames, hat, hlone⟩)
    · rw [hsplit]
      exact matchBp_of_first hannotated hnamed hbefore
    · exact matchBp_of_lone registry hannotated h.registered hlone hnames hat

theorem found_among_others :
    matchBp (parseStopReply "T0540:80003100;watch:80003000;".toList)
        [{bpId := 1, addr := 0x80003100, kind := .swBp}, {bpId := 2, addr := 0x80001000, kind := .writeWp},
          {bpId := 3, addr := 0x80003000, kind := .writeWp}] = some 3 := by
  let breakpoint : BreakpointSpec := {bpId := 1, addr := 0x80003100, kind := .swBp}
  let first : BreakpointSpec := {bpId := 2, addr := 0x80001000, kind := .writeWp}
  let second : BreakpointSpec := {bpId := 3, addr := 0x80003000, kind := .writeWp}
  have honly : CoveredOnlyBy (parseStopReply "T0540:80003100;watch:80003000;".toList)
      [breakpoint, first, second] 0x80003000 second := ⟨by simp, by decide, by decide, by decide, by decide⟩
  exact (found_iff (parseStopReply "T0540:80003100;watch:80003000;".toList)
    ⟨[breakpoint, first, second], by decide⟩ 0x80003000 second honly).mpr
      (Or.inl ⟨by decide, [breakpoint, first], [], rfl, by decide⟩)

/-- A write inside the watched range, with a second watchpoint registered, is
attributed to nothing. -/
theorem inner_hit_is_lost :
    ¬∀ (parsed : StopReply) (registry : Registry) (a : ℤ) (spec : BreakpointSpec),
      CoveredOnlyBy parsed registry.specs a spec →
        matchBp parsed registry.specs = some spec.bpId := by
  intro h
  let first : BreakpointSpec := {bpId := 1, addr := 0x80001000, kind := .writeWp}
  let second : BreakpointSpec := {bpId := 2, addr := 0x80003000, kind := .writeWp}
  have hfound := h (parseStopReply "T05watch:80001002;".toList) ⟨[first, second], by decide⟩
    0x80001002 first ⟨by simp, by decide, by decide, by decide, by decide⟩
  exact absurd hfound (by decide)

end Completeness

end DolphinRe.HitAttribution
