import DolphinRe.EffectProgram
import Mathlib.Logic.Relation

/-!
# Programs that share their world

Other threads may run before an operation that yields, unless the program
holds the lock. What they may do is a relation between worlds. A program is
then reasoned about piece by piece: single operations, commands whose later
operations do not yield, and bodies that hold the lock are executed without
interference, and between them only what the other threads keep is known.
-/

namespace DolphinRe.Interference

open EffectProgram

/-- Where other threads may run. -/
structure Scheduling (S : Signature) where
  /-- Operations before which another thread may run. -/
  yields : S.Op → Bool
  /-- The operation that takes the lock. -/
  locks : S.Op → Bool
  /-- The operation that gives the lock back. -/
  unlocks : S.Op → Bool

variable {S : Signature} {ε α β C W : Type}

/-- A machine whose world is shared with other threads; the second component
of a state tells whether the program holds the lock. -/
def Machine.shared (M : Machine S C W) (sched : Scheduling S) (others : W → W → Prop) :
    Machine S (C × W) (W × Bool) where
  step o c x :=
    ((M.step o c.1 c.2).1, (M.step o c.1 c.2).2,
      if sched.locks o then true else if sched.unlocks o then false else x.2)
  admits o c x :=
    (c.2 = x.1 ∨ x.2 = false ∧ sched.yields o = true ∧ others x.1 c.2) ∧ M.admits o c.1 c.2

variable {M : Machine S C W} {sched : Scheduling S} {others : W → W → Prop}

/-- Operations that neither take nor give back the lock. -/
def Scheduling.plain (sched : Scheduling S) (o : S.Op) : Prop :=
  sched.locks o = false ∧ sched.unlocks o = false

/-- Plain operations before which no other thread runs. -/
def Scheduling.silent (sched : Scheduling S) (o : S.Op) : Prop :=
  sched.plain o ∧ sched.yields o = false

/-- With the lock held, a program runs undisturbed. -/
theorem wp_shared_held {p : Program S ε α} (hp : p.Uses sched.plain) {Q : Except ε α → W → Prop}
    {w : W} (h : p.wp M Q w) :
    p.wp (Machine.shared M sched others) (fun r x => x.2 = true ∧ Q r x.1) (w, true) := by
  induction p generalizing w with
  | done a => exact ⟨rfl, h⟩
  | raise e => exact ⟨rfl, h⟩
  | perform o next ih =>
    rintro ⟨c, v⟩ ⟨hother, hc⟩
    have hsame : v = w := by
      rcases hother with hsame | ⟨hfree, -⟩
      · exact hsame
      · simp at hfree
    subst hsame
    have hheld : (if sched.locks o then true else if sched.unlocks o then false else true) = true := by
      rw [hp.1.1, hp.1.2]
      rfl
    have hstep : (Machine.shared M sched others).step o (c, v) (v, true) =
        ((M.step o c v).1, (M.step o c v).2, true) := by
      unfold Machine.shared
      dsimp only
      rw [hheld]
    rw [hstep]
    exact ih _ (hp.2 _) (h c hc)

/-- Silent operations run undisturbed. -/
theorem wp_shared_silent {p : Program S ε α} (hp : p.Uses sched.silent) {Q : Except ε α → W → Prop}
    {w : W} (h : p.wp M Q w) :
    p.wp (Machine.shared M sched others) (fun r x => x.2 = false ∧ Q r x.1) (w, false) := by
  induction p generalizing w with
  | done a => exact ⟨rfl, h⟩
  | raise e => exact ⟨rfl, h⟩
  | perform o next ih =>
    rintro ⟨c, v⟩ ⟨hother, hc⟩
    obtain ⟨⟨⟨hlocks, hunlocks⟩, hyields⟩, hrest⟩ := hp
    have hsame : v = w := by
      rcases hother with hsame | ⟨-, hyield, -⟩
      · exact hsame
      · simp [hyields] at hyield
    subst hsame
    have hstep : (Machine.shared M sched others).step o (c, v) (v, false) =
        ((M.step o c v).1, (M.step o c v).2, false) := by
      unfold Machine.shared
      dsimp only
      rw [hlocks, hunlocks]
      rfl
    rw [hstep]
    exact ih _ (hrest _) (h c hc)

/-- At most one operation that yields, and it comes first. -/
def IsCommand (sched : Scheduling S) : Program S ε α → Prop
  | .done _ => True
  | .raise _ => True
  | .perform o next => sched.plain o ∧ ∀ answer, (next answer).Uses sched.silent

theorem isCommand_of_uses {p : Program S ε α} (hp : p.Uses sched.silent) : IsCommand sched p := by
  cases p with
  | done a => trivial
  | raise e => trivial
  | perform o next => exact ⟨hp.1.1, hp.2⟩

theorem isCommand_bind {p : Program S ε α} {f : α → Program S ε β} (hp : IsCommand sched p)
    (hf : ∀ a, (f a).Uses sched.silent) : IsCommand sched (p.bind f) := by
  cases p with
  | done a => exact isCommand_of_uses (hf a)
  | raise e => trivial
  | perform o next => exact ⟨hp.1, fun answer => Program.uses_bind (hp.2 answer) hf⟩

section Stable

variable {I J : W → Prop}

/-- What the other threads keep. -/
def Stable (others : W → W → Prop) (I : W → Prop) : Prop := ∀ w v, I w → others w v → I v

/-- The lock is free and an invariant holds. -/
def Free (I : W → Prop) (x : W × Bool) : Prop := x.2 = false ∧ I x.1

/-- An operation meets what the other threads keep. -/
theorem before_shared (hI : Stable others I) {o : S.Op} {c : C × W} {x : W × Bool} (hx : I x.1)
    (hc : (Machine.shared M sched others).admits o c x) : I c.2 := by
  rcases hc.1 with hsame | ⟨-, -, hothers⟩
  · rw [hsame]
    exact hx
  · exact hI _ _ hx hothers

/-- An operation after which nothing yields: other threads may run before it. -/
theorem wp_shared_command (hI : Stable others I) {o : S.Op} {next : S.Answer o → Program S ε α}
    (ho : sched.plain o) (hnext : ∀ answer, (next answer).Uses sched.silent)
    {Q : Except ε α → W → Prop} (h : ∀ w, I w → (Program.perform o next).wp M Q w) {w : W}
    (hw : I w) : (Program.perform o next).wp (Machine.shared M sched others)
      (fun r x => x.2 = false ∧ Q r x.1) (w, false) := by
  rintro ⟨c, v⟩ hadmits
  have hv : I v := before_shared hI hw hadmits
  have hc := hadmits.2
  have hstep : (Machine.shared M sched others).step o (c, v) (w, false) =
      ((M.step o c v).1, (M.step o c v).2, false) := by
    unfold Machine.shared
    dsimp only
    rw [ho.1, ho.2]
    rfl
  rw [hstep]
  exact wp_shared_silent (hnext _) (h v hv c hc)

/-- A body between the operation that takes the lock and the one that gives it back. -/
theorem wp_shared_locked (hI : Stable others I) {lock unlock : S.Op} {p : Program S ε α}
    (hlock : sched.locks lock = true) (hunlock : sched.locks unlock = false)
    (hgives : sched.unlocks unlock = true) (hp : p.Uses sched.plain)
    {Q : Except ε α → W → Prop}
    (h : ∀ w, I w → (Program.perform lock fun _ =>
      p.ensuring (Program.perform unlock fun _ => .done ())).wp M Q w) {w : W} (hw : I w) :
    (Program.perform lock fun _ => p.ensuring (Program.perform unlock fun _ => .done ())).wp
      (Machine.shared M sched others) (fun r x => x.2 = false ∧ Q r x.1) (w, false) := by
  rintro ⟨c, v⟩ hadmits
  have hv : I v := before_shared hI hw hadmits
  have hc := hadmits.2
  have hstep : (Machine.shared M sched others).step lock (c, v) (w, false) =
      ((M.step lock c v).1, (M.step lock c v).2, true) := by
    unfold Machine.shared
    dsimp only
    rw [hlock]
    rfl
  rw [hstep, Program.wp_ensuring]
  have hbody := h v hv c hc
  rw [Program.wp_ensuring] at hbody
  refine Program.wp_mono ?_ (wp_shared_held hp hbody)
  rintro r ⟨u, held⟩ ⟨hheld, hu⟩
  dsimp only at hheld hu
  subst hheld
  rintro ⟨c', v'⟩ ⟨hother', hc'⟩
  have hsame : v' = u := by
    rcases hother' with hsame | ⟨hfree, -⟩
    · exact hsame
    · simp at hfree
  subst hsame
  have hrelease : (Machine.shared M sched others).step unlock (c', v') (v', true) =
      ((M.step unlock c' v').1, (M.step unlock c' v').2, false) := by
    unfold Machine.shared
    dsimp only
    rw [hunlock, hgives]
    rfl
  rw [hrelease]
  exact ⟨rfl, hu c' hc'⟩

/-- Other threads run before the program at most: what it ensures undisturbed
from every world they may leave it in, it ensures next to them. -/
def Atomic (M : Machine S C W) (sched : Scheduling S) (others : W → W → Prop) (I : W → Prop)
    (p : Program S ε α) : Prop :=
  ∀ (Q : Except ε α → W → Prop) (w : W), I w → (∀ v, I v → p.wp M Q v) →
    p.wp (Machine.shared M sched others) (fun r x => x.2 = false ∧ Q r x.1) (w, false)

theorem atomic_command (hI : Stable others I) {p : Program S ε α} (hp : IsCommand sched p) :
    Atomic M sched others I p := by
  intro Q w hw h
  cases p with
  | done a => exact ⟨rfl, h w hw⟩
  | raise e => exact ⟨rfl, h w hw⟩
  | perform o next => exact wp_shared_command hI hp.1 hp.2 h hw

theorem atomic_locked (hI : Stable others I) {lock unlock : S.Op} {p : Program S ε α}
    (hlock : sched.locks lock = true) (hunlock : sched.locks unlock = false)
    (hgives : sched.unlocks unlock = true) (hp : p.Uses sched.plain) :
    Atomic M sched others I (Program.perform lock fun _ =>
      p.ensuring (Program.perform unlock fun _ => .done ())) :=
  fun _ _ hw h => wp_shared_locked hI hlock hunlock hgives hp h hw

/-- What an atomic program keeps undisturbed, it keeps next to other threads that keep it. -/
theorem Atomic.keeps {p : Program S ε α} (hp : Atomic M sched others I p) (h : p.Keeps M I) :
    p.Keeps (Machine.shared M sched others) (Free I) := by
  rintro ⟨w, held⟩ ⟨hfree, hw⟩
  dsimp only at hfree hw
  subst hfree
  exact hp _ w hw h

/-- Other threads need not run at all. -/
theorem wp_of_shared {p : Program S ε α} {Q : Except ε α → W → Prop} {w : W} {held : Bool}
    (h : p.wp (Machine.shared M sched others) (fun r x => Q r x.1) (w, held)) : p.wp M Q w := by
  induction p generalizing w held with
  | done a => exact h
  | raise e => exact h
  | perform o next ih => exact fun c hc => ih _ (h (c, w) ⟨Or.inl rfl, hc⟩)

/-- An execution without interference is one next to other threads. -/
theorem reaches_shared {p : Program S ε α} {w v : W} {r : Except ε α} (h : p.Reaches M w r v)
    (held : Bool) : ∃ after, p.Reaches (Machine.shared M sched others) (w, held) r (v, after) := by
  induction p generalizing w held with
  | done a =>
    obtain ⟨rfl, rfl⟩ := h
    exact ⟨held, rfl, rfl⟩
  | raise e =>
    obtain ⟨rfl, rfl⟩ := h
    exact ⟨held, rfl, rfl⟩
  | perform o next ih =>
    obtain ⟨c, hc, h⟩ := h
    obtain ⟨after, hafter⟩ := ih _ h
      (if sched.locks o then true else if sched.unlocks o then false else held)
    exact ⟨after, (c, w), ⟨Or.inl rfl, hc⟩, hafter⟩

theorem keeps_of_shared {p : Program S ε α}
    (h : p.Keeps (Machine.shared M sched others) (Free I)) : p.Keeps M I :=
  fun w hw => wp_of_shared (Program.wp_mono (fun _ _ hx => hx.2) (h (w, false) ⟨rfl, hw⟩))

end Stable

section Interleaved

variable {I K J : W → Prop}

/-- A machine whose world other threads may change before every operation; the
second component of a state lists every world passed. -/
def Machine.interleaved (M : Machine S C W) (others : W → W → Prop) :
    Machine S (C × W) (W × List W) where
  step o c x := ((M.step o c.1 c.2).1, (M.step o c.1 c.2).2, x.2 ++ [c.2, (M.step o c.1 c.2).2])
  admits o c x := others x.1 c.2 ∧ M.admits o c.1 c.2

/-- One property holds now, and another held in every world passed. -/
def Passed (I K : W → Prop) (x : W × List W) : Prop := K x.1 ∧ ∀ v ∈ x.2, I v

theorem Passed.mono {x : W × List W} (h : Passed I K x) (hK : ∀ w, K w → J w) : Passed I J x :=
  ⟨hK _ h.1, h.2⟩

/-- One operation, after whatever the other threads do. -/
theorem passed_step (hI : ∀ w, K w → I w) (hI' : ∀ w, J w → I w) (hstable : Stable others K)
    {o : S.Op} {c : C × W} (hstep : M.admits o c.1 c.2 → K c.2 → J (M.step o c.1 c.2).2)
    {x : W × List W} (hc : (Machine.interleaved M others).admits o c x) (hx : Passed I K x) :
    Passed I J ((Machine.interleaved M others).step o c x).2 := by
  obtain ⟨hothers, hadmits⟩ := hc
  have hbefore : K c.2 := hstable _ _ hx.1 hothers
  have hafter : J (M.step o c.1 c.2).2 := hstep hadmits hbefore
  refine ⟨hafter, fun v hv => ?_⟩
  rcases List.mem_append.mp hv with hv | hv
  · exact hx.2 v hv
  · rcases List.mem_cons.mp hv with rfl | hv
    · exact hI _ hbefore
    · rw [List.mem_singleton.mp hv]
      exact hI' _ hafter

/-- Operations that keep a property keep it among all worlds passed. -/
theorem passed_of_uses (hI : ∀ w, K w → I w) (hstable : Stable others K) {P : S.Op → Prop}
    (hstep : ∀ o c w, P o → M.admits o c w → K w → K (M.step o c w).2) {p : Program S ε α}
    (hp : p.Uses P) : p.Keeps (Machine.interleaved M others) (Passed I K) := by
  intro x hx
  refine Program.wp_of_uses (I := Passed I K) (fun o c y ho hc hy => ?_) hp hx
  exact passed_step hI hI hstable (hstep o c.1 c.2 ho) hc hy

/-- Operations that keep what the other threads keep, keep it next to them. -/
theorem keeps_interleaved (hstable : Stable others I) {P : S.Op → Prop}
    (hstep : ∀ o c w, P o → M.admits o c w → I w → I (M.step o c w).2) {p : Program S ε α}
    (hp : p.Uses P) : p.Keeps (Machine.interleaved M others) (fun x => I x.1) := by
  intro x hx
  refine Program.wp_of_uses (I := fun y : W × List W => I y.1) (fun o c y ho hc hy => ?_) hp hx
  obtain ⟨hothers, hadmits⟩ := hc
  exact hstep o c.1 c.2 ho hadmits (hstable _ _ hy hothers)

/-- One operation, after whatever the other threads do. -/
theorem triple_interleaved (hstable : Stable others I) {o : S.Op} {G : S.Answer o → W → Prop}
    {E : W × List W → Prop} (hstep : ∀ c w, M.admits o c w → I w → G (M.step o c w).1 (M.step o c w).2) :
    (Program.perform o .done : Program S ε (S.Answer o)).Triple (Machine.interleaved M others)
      (fun x => I x.1) (fun a x => G a x.1) E :=
  fun _ hx c hc => hstep c.1 c.2 hc.2 (hstable _ _ hx hc.1)

/-- An execution without interference is one of the interleaved executions. -/
theorem reaches_interleaved (hrefl : ∀ w, others w w) {p : Program S ε α} {w v : W}
    {r : Except ε α} (h : p.Reaches M w r v) (past : List W) :
    ∃ visited, p.Reaches (Machine.interleaved M others) (w, past) r (v, past ++ visited) := by
  induction p generalizing w past with
  | done a =>
    obtain ⟨rfl, rfl⟩ := h
    exact ⟨[], rfl, by simp⟩
  | raise e =>
    obtain ⟨rfl, rfl⟩ := h
    exact ⟨[], rfl, by simp⟩
  | perform o next ih =>
    obtain ⟨c, hc, h⟩ := h
    obtain ⟨visited, hrest⟩ := ih _ h (past ++ [w, (M.step o c w).2])
    refine ⟨[w, (M.step o c w).2] ++ visited, (c, w), ⟨hrefl w, hc⟩, ?_⟩
    rw [← List.append_assoc]
    exact hrest

end Interleaved

section Judged

variable {I : W → Prop} {guard : S.Op → C → W → Prop} {met : Prop}

/-- A shared machine that records whether a condition held of every operation
of the program, in the world the operation met. -/
def Machine.judged (M : Machine S C W) (sched : Scheduling S) (others : W → W → Prop)
    (guard : S.Op → C → W → Prop) : Machine S (C × W) ((W × Bool) × Prop) :=
  (Machine.shared M sched others).recording fun o c _ => guard o c.1 c.2

/-- A property of the world, and whether the condition has held so far. -/
def Judged (met : Prop) (I : W → Prop) (x : (W × Bool) × Prop) : Prop := I x.1.1 ∧ (x.2 ↔ met)

theorem Judged.mono {J : W → Prop} {x : (W × Bool) × Prop} (h : Judged met I x)
    (hIJ : ∀ w, I w → J w) : Judged met J x :=
  ⟨hIJ _ h.1, h.2⟩

/-- The same next to a record. -/
theorem Judged.before (hI : Stable others I) {o : S.Op} {c : C × W} {x : (W × Bool) × Prop}
    (hx : Judged met I x) (hc : (Machine.judged M sched others guard).admits o c x) :
    I c.2 ∧ M.admits o c.1 c.2 :=
  ⟨before_shared hI hx.1 hc, hc.2⟩

/-- One operation: either the condition holds of it, or nothing can make up for that. -/
theorem triple_judged (hI : Stable others I) {o : S.Op} {G F : S.Answer o → W → Prop}
    {E : (W × Bool) × Prop → Prop}
    (hmet : ∀ c v, M.admits o c v → I v → guard o c v → G (M.step o c v).1 (M.step o c v).2)
    (hmissed : ∀ c v, M.admits o c v → I v → ¬guard o c v → F (M.step o c v).1 (M.step o c v).2) :
    (Program.perform o .done : Program S ε (S.Answer o)).Triple (Machine.judged M sched others guard)
      (Judged met I) (fun a x => Judged met (G a) x ∨ Judged False (F a) x) E := by
  intro x hx c hc
  obtain ⟨hv, hadmits⟩ := hx.before hI hc
  by_cases hguard : guard o c.1 c.2
  · exact Or.inl ⟨hmet _ _ hadmits hv hguard, (and_iff_left hguard).trans hx.2⟩
  · exact Or.inr ⟨hmissed _ _ hadmits hv hguard, iff_false_intro fun h => hguard h.2⟩

/-- An operation of which the condition always holds. -/
theorem triple_free (hI : Stable others I) {o : S.Op} {G : S.Answer o → W → Prop}
    {E : (W × Bool) × Prop → Prop} (hguard : ∀ c v, guard o c v)
    (hstep : ∀ c v, M.admits o c v → I v → G (M.step o c v).1 (M.step o c v).2) :
    (Program.perform o .done : Program S ε (S.Answer o)).Triple (Machine.judged M sched others guard)
      (Judged met I) (fun a => Judged met (G a)) E := by
  intro x hx c hc
  obtain ⟨hv, hadmits⟩ := hx.before hI hc
  exact ⟨hstep _ _ hadmits hv, (and_iff_left (hguard c.1 c.2)).trans hx.2⟩

/-- What was missed once stays missed. -/
theorem keeps_missed (p : Program S ε α) :
    p.Keeps (Machine.judged M sched others guard) (Judged False fun _ => True) := by
  intro x hx
  refine Program.wp_of_uses (I := Judged False fun _ => True) (fun o c y _ _ hy => ?_)
    (Program.uses_any p) hx
  exact ⟨trivial, iff_false_intro fun h => hy.2.mp h.1⟩

/-- Operations that keep what the other threads keep, keep it next to them. -/
theorem keeps_shared (hI : Stable others I) {P : S.Op → Prop}
    (hstep : ∀ o c w, P o → M.admits o c w → I w → I (M.step o c w).2) {p : Program S ε α}
    (hp : p.Uses P) : p.Keeps (Machine.shared M sched others) fun x => I x.1 := by
  intro x hx
  refine Program.wp_of_uses (I := fun y : W × Bool => I y.1) (fun o c y ho hc hy => ?_) hp hx
  exact hstep o c.1 c.2 ho hc.2 (before_shared hI hy hc)

end Judged

section Operations

/-- What operations of a kind can do to a world, in any number and order. -/
def operating (M : Machine S C W) (P : S.Op → Prop) : W → W → Prop :=
  Relation.ReflTransGen fun w v => ∃ o c, P o ∧ M.admits o c w ∧ v = (M.step o c w).2

/-- Whole executions of programs that use such operations only are covered. -/
theorem operating_of_reaches {P : S.Op → Prop} {p : Program S ε α} (hp : p.Uses P) {w v : W}
    {r : Except ε α} (h : p.Reaches M w r v) : operating M P w v := by
  induction p generalizing w with
  | done a =>
    obtain ⟨-, rfl⟩ := h
    exact Relation.ReflTransGen.refl
  | raise e =>
    obtain ⟨-, rfl⟩ := h
    exact Relation.ReflTransGen.refl
  | perform o next ih =>
    obtain ⟨c, hc, h⟩ := h
    exact Relation.ReflTransGen.head ⟨o, c, hp.1, hc, rfl⟩ (ih _ (hp.2 _) h)

theorem stable_operating {P : S.Op → Prop} {I : W → Prop}
    (hstep : ∀ o c w, P o → M.admits o c w → I w → I (M.step o c w).2) :
    Stable (operating M P) I := by
  intro w v hw h
  induction h with
  | refl => exact hw
  | tail _ hlast ih =>
    obtain ⟨o, c, ho, hc, rfl⟩ := hlast
    exact hstep o c _ ho hc ih

end Operations

end DolphinRe.Interference
