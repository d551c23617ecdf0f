import Mathlib.Logic.Basic
import Mathlib.Tactic.Basic

/-!
# Programs over primitive effects

A program is a tree of primitive operations whose answers come from an
environment. The same tree is executed by any number of machines: a machine
says what one operation does to a world once the environment has made its
choice. Weakest preconditions quantify over every choice the machine admits,
so a proved triple covers every behaviour of the environment. Nothing in this
module mentions a concrete client, protocol or state.
-/

namespace DolphinRe.EffectProgram

/-- Primitive operations, the answer each one receives, and whether the
operation consumes a choice of the environment. -/
structure Signature where
  /-- The primitive operations. -/
  Op : Type
  /-- The answer that resumes the program after an operation. -/
  Answer : Op → Type
  /-- Operations that consult the environment. -/
  external : Op → Bool

/-- A program returns a value, raises, or performs one operation and resumes
with its answer. -/
inductive Program (S : Signature) (ε α : Type) where
  | done (value : α)
  | raise (error : ε)
  | perform (op : S.Op) (next : S.Answer op → Program S ε α)

variable {S : Signature} {ε α β C W : Type}

namespace Program

/-- Sequential composition; a raised error skips the continuation. -/
def bind : Program S ε α → (α → Program S ε β) → Program S ε β
  | done a, f => f a
  | raise e, _ => raise e
  | perform o next, f => perform o fun answer => (next answer).bind f

instance : Monad (Program S ε) where
  pure := done
  bind := bind

/-- Run a program to its outcome, turning a raised error into a value. -/
def attempt : Program S ε α → Program S ε (Except ε α)
  | done a => done (.ok a)
  | raise e => done (.error e)
  | perform o next => perform o fun answer => (next answer).attempt

/-- Resume from an outcome. -/
def ofExcept : Except ε α → Program S ε α
  | .ok a => done a
  | .error e => raise e

/-- `try: p except e: handler e`; the handler may raise again. -/
def handle (p : Program S ε α) (handler : ε → Program S ε α) : Program S ε α :=
  p.attempt.bind fun
    | .ok a => done a
    | .error e => handler e

/-- `try: p finally: cleanup`; an error of the cleanup replaces the outcome. -/
def ensuring (p : Program S ε α) (cleanup : Program S ε Unit) : Program S ε α :=
  p.attempt.bind fun outcome => cleanup.bind fun _ => ofExcept outcome

/-- Returning a value in `do` notation ends the program with it. -/
@[simp] theorem pure_eq (a : α) : (pure a : Program S ε α) = done a := rfl

/-- Sequencing in `do` notation is composition. -/
@[simp] theorem bind_eq (p : Program S ε α) (f : α → Program S ε β) : p >>= f = p.bind f := rfl

/-- What follows a value is given that value. -/
@[simp] theorem done_bind (a : α) (f : α → Program S ε β) : (done a).bind f = f a := rfl

/-- Nothing follows an error. -/
@[simp] theorem raise_bind (e : ε) (f : α → Program S ε β) : (raise e).bind f = raise e := rfl

/-- What follows an operation follows each of its answers. -/
@[simp] theorem perform_bind (o : S.Op) (next : S.Answer o → Program S ε α)
    (f : α → Program S ε β) :
    (perform o next).bind f = perform o fun answer => (next answer).bind f := rfl

/-- Ending with the value adds nothing. -/
theorem bind_done (p : Program S ε α) : p.bind done = p := by
  induction p with
  | done a => rfl
  | raise e => rfl
  | perform o next ih => exact congrArg (perform o) (funext fun answer => ih answer)

/-- Composition is associative. -/
theorem bind_assoc {γ : Type} (p : Program S ε α) (f : α → Program S ε β)
    (g : β → Program S ε γ) : (p.bind f).bind g = p.bind fun a => (f a).bind g := by
  induction p with
  | done a => rfl
  | raise e => rfl
  | perform o next ih => exact congrArg (perform o) (funext fun answer => ih answer)

end Program

/-- What one operation does to a world under a choice of the environment, and
which choices are admitted there. -/
structure Machine (S : Signature) (C W : Type) where
  /-- Answer and successor world of one operation. -/
  step : (op : S.Op) → C → W → S.Answer op × W
  /-- Environment choices admitted at an operation. -/
  admits : S.Op → C → W → Prop

/-- Keep the steps of a machine and admit fewer choices. -/
def Machine.restrict (M : Machine S C W) (guard : S.Op → C → W → Prop) : Machine S C W :=
  {M with admits := fun o c w => M.admits o c w ∧ guard o c w}

/-- Keep the steps of a machine and record whether a condition held at every
operation so far. -/
def Machine.recording (M : Machine S C W) (guard : S.Op → C → W → Prop) : Machine S C (W × Prop) where
  step o c x := ((M.step o c x.1).1, (M.step o c x.1).2, x.2 ∧ guard o c x.1)
  admits o c x := M.admits o c x.1

namespace Program

/-- The choice an operation sees; an exhausted script yields the default. -/
def choiceFor [Inhabited C] (S : Signature) (o : S.Op) (script : List C) : C :=
  if S.external o then script.headD default else default

/-- The script left after an operation. -/
def scriptAfter (S : Signature) (o : S.Op) (script : List C) : List C :=
  if S.external o then script.tail else script

/-- Execute a program against a script of environment choices. -/
def run [Inhabited C] (M : Machine S C W) :
    Program S ε α → List C → W → Except ε α × W × List C
  | done a, script, w => (.ok a, w, script)
  | raise e, script, w => (.error e, w, script)
  | perform o next, script, w =>
    match M.step o (choiceFor S o script) w with
    | (answer, w') => (next answer).run M (scriptAfter S o script) w'

/-- Every choice consumed along the execution is admitted. -/
def Follows [Inhabited C] (M : Machine S C W) : Program S ε α → List C → W → Prop
  | done _, _, _ => True
  | raise _, _, _ => True
  | perform o next, script, w =>
    M.admits o (choiceFor S o script) w ∧
      (next (M.step o (choiceFor S o script) w).1).Follows M (scriptAfter S o script)
        (M.step o (choiceFor S o script) w).2

/-- Whether a script is followed can be computed when admission can. -/
def decideFollows [Inhabited C] (M : Machine S C W) [∀ o c w, Decidable (M.admits o c w)] :
    (p : Program S ε α) → (script : List C) → (w : W) → Decidable (p.Follows M script w)
  | done _, _, _ => isTrue trivial
  | raise _, _, _ => isTrue trivial
  | perform o next, script, w =>
    @instDecidableAnd _ _ inferInstance
      (decideFollows M (next (M.step o (choiceFor S o script) w).1) (scriptAfter S o script)
        (M.step o (choiceFor S o script) w).2)

instance [Inhabited C] (M : Machine S C W) [∀ o c w, Decidable (M.admits o c w)]
    (p : Program S ε α) (script : List C) (w : W) : Decidable (p.Follows M script w) :=
  decideFollows M p script w

/-- Weakest precondition over every admitted choice at every operation. -/
def wp (M : Machine S C W) : Program S ε α → (Except ε α → W → Prop) → W → Prop
  | done a, Q, w => Q (.ok a) w
  | raise e, Q, w => Q (.error e) w
  | perform o next, Q, w =>
    ∀ c, M.admits o c w → (next (M.step o c w).1).wp M Q (M.step o c w).2

section Rules

variable {M : Machine S C W}

/-- Executions satisfy what their weakest precondition promises. -/
theorem run_of_wp [Inhabited C] {p : Program S ε α} {Q : Except ε α → W → Prop}
    {script : List C} {w : W} (hp : p.wp M Q w) (hf : p.Follows M script w) :
    Q (p.run M script w).1 (p.run M script w).2.1 := by
  induction p generalizing script w with
  | done a => exact hp
  | raise e => exact hp
  | perform o next ih => exact ih _ (hp _ hf.1) hf.2

/-- Whatever ensures a condition ensures a weaker one. -/
theorem wp_mono {p : Program S ε α} {Q R : Except ε α → W → Prop}
    (h : ∀ r w, Q r w → R r w) {w : W} (hp : p.wp M Q w) : p.wp M R w := by
  induction p generalizing w with
  | done a => exact h _ _ hp
  | raise e => exact h _ _ hp
  | perform o next ih => exact fun c hc => ih _ (hp c hc)

/-- Every program ensures what always holds. -/
theorem wp_true (p : Program S ε α) (w : W) : p.wp M (fun _ _ => True) w := by
  induction p generalizing w with
  | done a => trivial
  | raise e => trivial
  | perform o next ih => exact fun c _ => ih _ _

/-- Two conditions may be ensured separately. -/
theorem wp_and {p : Program S ε α} {Q R : Except ε α → W → Prop} {w : W}
    (hq : p.wp M Q w) (hr : p.wp M R w) : p.wp M (fun r w' => Q r w' ∧ R r w') w := by
  induction p generalizing w with
  | done a => exact ⟨hq, hr⟩
  | raise e => exact ⟨hq, hr⟩
  | perform o next ih => exact fun c hc => ih _ (hq c hc) (hr c hc)

/-- Fewer admitted choices only weaken the obligation. -/
theorem wp_restrict {guard : S.Op → C → W → Prop} {p : Program S ε α}
    {Q : Except ε α → W → Prop} {w : W} (hp : p.wp M Q w) : p.wp (M.restrict guard) Q w := by
  induction p generalizing w with
  | done a => exact hp
  | raise e => exact hp
  | perform o next ih => exact fun c hc => ih _ (hp c hc.1)

/-- Continue with a value, or keep the error. -/
def onValue (f : α → Program S ε β) (M : Machine S C W) (Q : Except ε β → W → Prop) :
    Except ε α → W → Prop
  | .ok a, w => (f a).wp M Q w
  | .error e, w => Q (.error e) w

/-- After a value, the continuation runs. -/
@[simp] theorem onValue_ok (f : α → Program S ε β) (Q : Except ε β → W → Prop) (a : α) (w : W) :
    onValue f M Q (.ok a) w = (f a).wp M Q w := rfl

/-- After an error, it does not. -/
@[simp] theorem onValue_error (f : α → Program S ε β) (Q : Except ε β → W → Prop) (e : ε) (w : W) :
    onValue f M Q (.error e) w = Q (.error e) w := rfl

/-- A value ensures what holds of it in the world as it is. -/
@[simp] theorem wp_done (a : α) (Q : Except ε α → W → Prop) (w : W) :
    (done a : Program S ε α).wp M Q w = Q (.ok a) w := rfl

/-- So does an error. -/
@[simp] theorem wp_raise (e : ε) (Q : Except ε α → W → Prop) (w : W) :
    (raise e : Program S ε α).wp M Q w = Q (.error e) w := rfl

/-- A composition ensures what its first part leads the second one to. -/
theorem wp_bind (p : Program S ε α) (f : α → Program S ε β) (Q : Except ε β → W → Prop) (w : W) :
    (p.bind f).wp M Q w ↔ p.wp M (onValue f M Q) w := by
  induction p generalizing w with
  | done a => exact Iff.rfl
  | raise e => exact Iff.rfl
  | perform o next ih =>
    constructor
    · exact fun h c hc => (ih _ _).mp (h c hc)
    · exact fun h c hc => (ih _ _).mpr (h c hc)

/-- An attempt always ends with a value, the outcome. -/
theorem wp_attempt (p : Program S ε α) (Q : Except ε (Except ε α) → W → Prop) (w : W) :
    p.attempt.wp M Q w ↔ p.wp M (fun r w' => Q (.ok r) w') w := by
  induction p generalizing w with
  | done a => exact Iff.rfl
  | raise e => exact Iff.rfl
  | perform o next ih =>
    constructor
    · exact fun h c hc => (ih _ _).mp (h c hc)
    · exact fun h c hc => (ih _ _).mpr (h c hc)

/-- An outcome ensures what holds of it. -/
@[simp] theorem wp_ofExcept (r : Except ε α) (Q : Except ε α → W → Prop) (w : W) :
    (ofExcept r : Program S ε α).wp M Q w = Q r w := by
  cases r <;> rfl

/-- What the last part ensures from any world, whatever comes before it. -/
theorem wp_bind_last {p : Program S ε α} {f : α → Program S ε β} {Q : Except ε β → W → Prop}
    (herror : ∀ e w, Q (.error e) w) (hf : ∀ a w, (f a).wp M Q w) (w : W) : (p.bind f).wp M Q w := by
  induction p generalizing w with
  | done a => exact hf a w
  | raise e => exact herror e w
  | perform o next ih => exact fun c _ => ih _ _

/-- Values pass a handler, errors are handed to it. -/
theorem wp_handle (p : Program S ε α) (handler : ε → Program S ε α)
    (Q : Except ε α → W → Prop) (w : W) :
    (p.handle handler).wp M Q w ↔ p.wp M (fun r w' => match r with
      | .ok a => Q (.ok a) w'
      | .error e => (handler e).wp M Q w') w := by
  unfold handle
  rw [wp_bind, wp_attempt]
  constructor
  · refine wp_mono fun r w' h => ?_
    cases r <;> exact h
  · refine wp_mono fun r w' h => ?_
    cases r <;> exact h

/-- The cleanup runs after either outcome, and its own error takes precedence. -/
theorem wp_ensuring (p : Program S ε α) (cleanup : Program S ε Unit)
    (Q : Except ε α → W → Prop) (w : W) :
    (p.ensuring cleanup).wp M Q w ↔ p.wp M (fun r w' =>
      cleanup.wp M (fun s w'' => match s with
        | .ok _ => Q r w''
        | .error e => Q (.error e) w'') w') w := by
  unfold ensuring
  rw [wp_bind, wp_attempt]
  constructor
  · refine wp_mono fun r w' h => ?_
    refine wp_mono ?_ ((wp_bind _ _ _ _).mp h)
    intro s w'' hs
    cases s with
    | ok _ => simpa only [onValue_ok, wp_ofExcept] using hs
    | error e => exact hs
  · refine wp_mono fun r w' h => ?_
    refine (wp_bind _ _ _ _).mpr (wp_mono ?_ h)
    intro s w'' hs
    cases s with
    | ok _ => simpa only [onValue_ok, wp_ofExcept] using hs
    | error e => exact hs

end Rules

section Executions

variable {M : Machine S C W}

/-- Some execution from a world ends with an outcome in another world. -/
def Reaches (M : Machine S C W) : Program S ε α → W → Except ε α → W → Prop
  | done a, w, r, v => r = .ok a ∧ v = w
  | raise e, w, r, v => r = .error e ∧ v = w
  | perform o next, w, r, v =>
    ∃ c, M.admits o c w ∧ (next (M.step o c w).1).Reaches M (M.step o c w).2 r v

/-- Executions satisfy what their weakest precondition promises. -/
theorem reaches_of_wp {p : Program S ε α} {Q : Except ε α → W → Prop} {w v : W} {r : Except ε α}
    (hp : p.wp M Q w) (h : p.Reaches M w r v) : Q r v := by
  induction p generalizing w with
  | done a =>
    obtain ⟨rfl, rfl⟩ := h
    exact hp
  | raise e =>
    obtain ⟨rfl, rfl⟩ := h
    exact hp
  | perform o next ih =>
    obtain ⟨c, hc, h⟩ := h
    exact ih _ (hp c hc) h

/-- A run along an admitted script is an execution. -/
theorem reaches_run [Inhabited C] {p : Program S ε α} {script : List C} {w : W}
    (h : p.Follows M script w) : p.Reaches M w (p.run M script w).1 (p.run M script w).2.1 := by
  induction p generalizing script w with
  | done a => exact ⟨rfl, rfl⟩
  | raise e => exact ⟨rfl, rfl⟩
  | perform o next ih => exact ⟨_, h.1, ih _ h.2⟩

/-- The same with the outcome of the run named. -/
theorem reaches_along [Inhabited C] {p : Program S ε α} {script : List C} {w : W} {r : Except ε α}
    (h : p.Follows M script w) (hr : (p.run M script w).1 = r) :
    p.Reaches M w r (p.run M script w).2.1 :=
  hr ▸ reaches_run h

/-- Where every operation admits a choice, every program has an execution. -/
theorem exists_reaches (h : ∀ o w, ∃ c, M.admits o c w) (p : Program S ε α) (w : W) :
    ∃ r v, p.Reaches M w r v := by
  induction p generalizing w with
  | done a => exact ⟨.ok a, w, rfl, rfl⟩
  | raise e => exact ⟨.error e, w, rfl, rfl⟩
  | perform o next ih =>
    obtain ⟨c, hc⟩ := h o w
    obtain ⟨r, v, hreach⟩ := ih (M.step o c w).1 (M.step o c w).2
    exact ⟨r, v, c, hc, hreach⟩

/-- Every execution can be recorded. -/
theorem reaches_recording {guard : S.Op → C → W → Prop} {p : Program S ε α} {w v : W}
    {r : Except ε α} (h : p.Reaches M w r v) (before : Prop) :
    ∃ met, p.Reaches (M.recording guard) (w, before) r (v, met) := by
  induction p generalizing w before with
  | done a =>
    obtain ⟨rfl, rfl⟩ := h
    exact ⟨before, rfl, rfl⟩
  | raise e =>
    obtain ⟨rfl, rfl⟩ := h
    exact ⟨before, rfl, rfl⟩
  | perform o next ih =>
    obtain ⟨c, hc, h⟩ := h
    obtain ⟨met, hmet⟩ := ih _ h (before ∧ guard o c w)
    exact ⟨met, c, hc, hmet⟩

/-- An execution of a composition is one of its first part, continued unless it raised. -/
theorem reaches_bind (p : Program S ε α) (f : α → Program S ε β) {r : Except ε β} {w v : W} :
    (p.bind f).Reaches M w r v ↔
      (∃ a u, p.Reaches M w (.ok a) u ∧ (f a).Reaches M u r v) ∨
        ∃ e, p.Reaches M w (.error e) v ∧ r = .error e := by
  induction p generalizing w with
  | done a =>
    constructor
    · intro h
      exact Or.inl ⟨a, w, ⟨rfl, rfl⟩, h⟩
    · rintro (⟨a', u, ⟨ha, rfl⟩, h⟩ | ⟨e, ⟨he, _⟩, _⟩)
      · rw [Except.ok.injEq] at ha
        exact ha ▸ h
      · simp at he
  | raise e =>
    constructor
    · intro h
      exact Or.inr ⟨e, ⟨rfl, h.2⟩, h.1⟩
    · rintro (⟨a', u, ⟨ha, _⟩, _⟩ | ⟨e', ⟨he, hv⟩, hr⟩)
      · simp at ha
      · rw [Except.error.injEq] at he
        exact ⟨he ▸ hr, hv⟩
  | perform o next ih =>
    constructor
    · rintro ⟨c, hc, h⟩
      rcases (ih _).mp h with ⟨a, u, hp, hf⟩ | ⟨e, hp, hr⟩
      · exact Or.inl ⟨a, u, ⟨c, hc, hp⟩, hf⟩
      · exact Or.inr ⟨e, ⟨c, hc, hp⟩, hr⟩
    · rintro (⟨a, u, ⟨c, hc, hp⟩, hf⟩ | ⟨e, ⟨c, hc, hp⟩, hr⟩)
      · exact ⟨c, hc, (ih _).mpr (Or.inl ⟨a, u, hp, hf⟩)⟩
      · exact ⟨c, hc, (ih _).mpr (Or.inr ⟨e, hp, hr⟩)⟩

/-- A composition has an execution when its first part has one and every value it returns is taken up. -/
theorem exists_bind {p : Program S ε α} {f : α → Program S ε β} {w : W} (hp : ∃ r v, p.Reaches M w r v)
    (hf : ∀ a v, p.Reaches M w (.ok a) v → ∃ r u, (f a).Reaches M v r u) :
    ∃ r v, (p.bind f).Reaches M w r v := by
  obtain ⟨r, v, hreach⟩ := hp
  cases r with
  | ok a =>
    obtain ⟨r', u, hnext⟩ := hf a v hreach
    exact ⟨r', u, (reaches_bind p f).mpr (Or.inl ⟨a, v, hreach, hnext⟩)⟩
  | error e => exact ⟨.error e, v, (reaches_bind p f).mpr (Or.inr ⟨e, hreach, rfl⟩)⟩

/-- An outcome can be reached. -/
theorem exists_ofExcept (r : Except ε α) (w : W) : ∃ s v, (ofExcept r : Program S ε α).Reaches M w s v := by
  cases r with
  | ok a => exact ⟨.ok a, w, rfl, rfl⟩
  | error e => exact ⟨.error e, w, rfl, rfl⟩

/-- An attempt reaches the outcomes of its program as values. -/
theorem reaches_attempt (p : Program S ε α) {r : Except ε (Except ε α)} {w v : W} :
    p.attempt.Reaches M w r v ↔ ∃ s, r = .ok s ∧ p.Reaches M w s v := by
  induction p generalizing w with
  | done a => exact ⟨fun h => ⟨_, h.1, rfl, h.2⟩, fun ⟨s, hr, hs, hv⟩ => ⟨hs ▸ hr, hv⟩⟩
  | raise e => exact ⟨fun h => ⟨_, h.1, rfl, h.2⟩, fun ⟨s, hr, hs, hv⟩ => ⟨hs ▸ hr, hv⟩⟩
  | perform o next ih =>
    constructor
    · rintro ⟨c, hc, h⟩
      obtain ⟨s, hr, hs⟩ := (ih _).mp h
      exact ⟨s, hr, c, hc, hs⟩
    · rintro ⟨s, hr, c, hc, hs⟩
      exact ⟨c, hc, (ih _).mpr ⟨s, hr, hs⟩⟩

/-- An outcome reaches itself and nothing else. -/
theorem reaches_ofExcept (s : Except ε α) {r : Except ε α} {w v : W} :
    (ofExcept s).Reaches M w r v ↔ r = s ∧ v = w := by
  cases s <;> exact Iff.rfl

/-- A protected part runs to its outcome; the cleanup follows, and keeps that outcome unless it
raises itself. -/
theorem reaches_ensuring (p : Program S ε α) (cleanup : Program S ε Unit) {r : Except ε α}
    {w v : W} : (p.ensuring cleanup).Reaches M w r v ↔
      ∃ outcome u closing, p.Reaches M w outcome u ∧ cleanup.Reaches M u closing v ∧
        r = closing.bind fun _ => outcome := by
  unfold ensuring
  rw [reaches_bind]
  constructor
  · rintro (⟨outcome, u, hp, hrest⟩ | ⟨e, hp, _⟩)
    · obtain ⟨s, hs, hp⟩ := (reaches_attempt p).mp hp
      rw [Except.ok.injEq] at hs
      subst hs
      rcases (reaches_bind _ _).mp hrest with ⟨_, u', hc, hlast⟩ | ⟨e, hc, hr⟩
      · obtain ⟨hr, rfl⟩ := (reaches_ofExcept _).mp hlast
        exact ⟨outcome, u, .ok (), hp, hc, hr⟩
      · exact ⟨outcome, u, .error e, hp, hc, hr⟩
    · obtain ⟨s, hs, _⟩ := (reaches_attempt p).mp hp
      simp at hs
  · rintro ⟨outcome, u, closing, hp, hc, hr⟩
    refine Or.inl ⟨outcome, u, (reaches_attempt p).mpr ⟨outcome, rfl, hp⟩, ?_⟩
    cases closing with
    | ok _ =>
      exact (reaches_bind _ _).mpr (Or.inl ⟨(), v, hc, (reaches_ofExcept _).mpr ⟨hr, rfl⟩⟩)
    | error e => exact (reaches_bind _ _).mpr (Or.inr ⟨e, hc, hr⟩)

/-- Two programs with the same executions. -/
def SameRuns (M : Machine S C W) (p q : Program S ε α) : Prop :=
  ∀ w r v, p.Reaches M w r v ↔ q.Reaches M w r v

/-- A program runs like itself. -/
theorem sameRuns_refl (p : Program S ε α) : SameRuns M p p := fun _ _ _ => Iff.rfl

/-- Parts with the same executions have compositions with the same executions. -/
theorem SameRuns.bind {p q : Program S ε α} {f g : α → Program S ε β} (hp : SameRuns M p q)
    (hf : ∀ a, SameRuns M (f a) (g a)) : SameRuns M (p.bind f) (q.bind g) := by
  intro w r v
  rw [reaches_bind, reaches_bind]
  constructor
  · rintro (⟨a, u, hpart, hrest⟩ | ⟨e, hpart, hr⟩)
    · exact Or.inl ⟨a, u, (hp w _ u).mp hpart, (hf a u r v).mp hrest⟩
    · exact Or.inr ⟨e, (hp w _ v).mp hpart, hr⟩
  · rintro (⟨a, u, hpart, hrest⟩ | ⟨e, hpart, hr⟩)
    · exact Or.inl ⟨a, u, (hp w _ u).mpr hpart, (hf a u r v).mpr hrest⟩
    · exact Or.inr ⟨e, (hp w _ v).mpr hpart, hr⟩

/-- Programs that run alike do so when their errors are caught. -/
theorem SameRuns.attempt {p q : Program S ε α} (hp : SameRuns M p q) :
    SameRuns M p.attempt q.attempt := by
  intro w r v
  rw [reaches_attempt, reaches_attempt]
  exact exists_congr fun s => and_congr_right fun _ => hp w s v

end Executions

section Invariants

variable {M : Machine S C W}

/-- Every operation the program can reach satisfies `P`. -/
def Uses (P : S.Op → Prop) : Program S ε α → Prop
  | done _ => True
  | raise _ => True
  | perform o next => P o ∧ ∀ answer, (next answer).Uses P

/-- A value uses no operation. -/
@[simp] theorem uses_done (P : S.Op → Prop) (a : α) : (done a : Program S ε α).Uses P := trivial

/-- Neither does an error. -/
@[simp] theorem uses_raise (P : S.Op → Prop) (e : ε) : (raise e : Program S ε α).Uses P := trivial

/-- Any program uses operations of some kind. -/
theorem uses_any (p : Program S ε α) : p.Uses fun _ => True := by
  induction p with
  | done a => trivial
  | raise e => trivial
  | perform o next ih => exact ⟨trivial, ih⟩

/-- A program that uses some operations uses operations of any wider kind. -/
theorem Uses.mono {P Q : S.Op → Prop} {p : Program S ε α} (hp : p.Uses P)
    (h : ∀ o, P o → Q o) : p.Uses Q := by
  induction p with
  | done a => trivial
  | raise e => trivial
  | perform o next ih => exact ⟨h o hp.1, fun answer => ih answer (hp.2 answer)⟩

/-- A composition uses what its parts use. -/
theorem uses_bind {P : S.Op → Prop} {p : Program S ε α} {f : α → Program S ε β}
    (hp : p.Uses P) (hf : ∀ a, (f a).Uses P) : (p.bind f).Uses P := by
  induction p with
  | done a => exact hf a
  | raise e => trivial
  | perform o next ih => exact ⟨hp.1, fun answer => ih answer (hp.2 answer)⟩

/-- An attempt uses what its program uses. -/
theorem uses_attempt {P : S.Op → Prop} {p : Program S ε α} (hp : p.Uses P) :
    p.attempt.Uses P := by
  induction p with
  | done a => trivial
  | raise e => trivial
  | perform o next ih => exact ⟨hp.1, fun answer => ih answer (hp.2 answer)⟩

/-- An outcome uses no operation. -/
theorem uses_ofExcept (P : S.Op → Prop) (r : Except ε α) :
    (ofExcept r : Program S ε α).Uses P := by
  cases r <;> trivial

/-- A handled program uses what it and its handler use. -/
theorem uses_handle {P : S.Op → Prop} {p : Program S ε α} {handler : ε → Program S ε α}
    (hp : p.Uses P) (hh : ∀ e, (handler e).Uses P) : (p.handle handler).Uses P := by
  refine uses_bind (uses_attempt hp) fun r => ?_
  cases r with
  | ok a => trivial
  | error e => exact hh e

/-- So does a program with a cleanup. -/
theorem uses_ensuring {P : S.Op → Prop} {p : Program S ε α} {cleanup : Program S ε Unit}
    (hp : p.Uses P) (hc : cleanup.Uses P) : (p.ensuring cleanup).Uses P :=
  uses_bind (uses_attempt hp) fun r => uses_bind hc fun _ => uses_ofExcept P r

/-- An invariant kept by every operation a program uses is kept by the program. -/
theorem wp_of_uses {P : S.Op → Prop} {I : W → Prop}
    (hstep : ∀ o c w, P o → M.admits o c w → I w → I (M.step o c w).2)
    {p : Program S ε α} (hp : p.Uses P) {w : W} (hw : I w) : p.wp M (fun _ w' => I w') w := by
  induction p generalizing w with
  | done a => exact hw
  | raise e => exact hw
  | perform o next ih => exact fun c hc => ih _ (hp.2 _) (hstep o c w hp.1 hc hw)

/-- A program keeps an invariant, whether it returns or raises. -/
def Keeps (M : Machine S C W) (I : W → Prop) (p : Program S ε α) : Prop :=
  ∀ w, I w → p.wp M (fun _ w' => I w') w

variable {I : W → Prop}

/-- A value keeps every invariant. -/
theorem keeps_done (a : α) : Keeps M I (done a : Program S ε α) := fun _ h => h

/-- So does an error. -/
theorem keeps_raise (e : ε) : Keeps M I (raise e : Program S ε α) := fun _ h => h

/-- So does an outcome. -/
theorem keeps_ofExcept (r : Except ε α) : Keeps M I (ofExcept r : Program S ε α) := by
  cases r with
  | ok a => exact keeps_done a
  | error e => exact keeps_raise e

/-- An operation that keeps an invariant may be followed by programs that keep it. -/
theorem keeps_perform {o : S.Op} {next : S.Answer o → Program S ε α}
    (hstep : ∀ c w, M.admits o c w → I w → I (M.step o c w).2)
    (hnext : ∀ answer, Keeps M I (next answer)) : Keeps M I (perform o next) :=
  fun w h c hc => hnext _ _ (hstep c w hc h)

/-- A composition keeps what its parts keep. -/
theorem keeps_bind {p : Program S ε α} {f : α → Program S ε β} (hp : Keeps M I p)
    (hf : ∀ a, Keeps M I (f a)) : Keeps M I (p.bind f) := by
  intro w h
  rw [wp_bind]
  refine wp_mono ?_ (hp w h)
  intro r w' h'
  cases r with
  | ok a => exact hf a w' h'
  | error e => exact h'

/-- An attempt keeps what its program keeps. -/
theorem keeps_attempt {p : Program S ε α} (hp : Keeps M I p) : Keeps M I p.attempt := by
  intro w h
  rw [wp_attempt]
  exact hp w h

/-- A handled program keeps what it and its handler keep. -/
theorem keeps_handle {p : Program S ε α} {handler : ε → Program S ε α} (hp : Keeps M I p)
    (hh : ∀ e, Keeps M I (handler e)) : Keeps M I (p.handle handler) := by
  refine keeps_bind (keeps_attempt hp) fun r => ?_
  cases r with
  | ok a => exact keeps_done a
  | error e => exact hh e

/-- So does a program with a cleanup. -/
theorem keeps_ensuring {p : Program S ε α} {cleanup : Program S ε Unit} (hp : Keeps M I p)
    (hc : Keeps M I cleanup) : Keeps M I (p.ensuring cleanup) :=
  keeps_bind (keeps_attempt hp) fun r => keeps_bind hc fun _ => keeps_ofExcept r

/-- A property of programs that holds of a composition when it holds of its parts. -/
structure Compositional (K : (α : Type) → Program S ε α → Prop) : Prop where
  /-- It holds of a value. -/
  done : ∀ {α : Type} (a : α), K α (done a)
  /-- It holds of an error. -/
  raise : ∀ {α : Type} (e : ε), K α (raise e)
  /-- It holds of a program with a continuation. -/
  bind : ∀ {α β : Type} {p : Program S ε α} {f : α → Program S ε β}, K α p → (∀ a, K β (f a)) →
    K β (p.bind f)
  /-- It holds of a program whose errors are caught. -/
  attempt : ∀ {α : Type} {p : Program S ε α}, K α p → K _ p.attempt

namespace Compositional

variable {K : (α : Type) → Program S ε α → Prop} (hK : Compositional K)

include hK

/-- It holds of an outcome. -/
theorem ofExcept (r : Except ε α) : K α (ofExcept r) := by
  cases r with
  | ok a => exact hK.done a
  | error e => exact hK.raise e

/-- It holds of a handled program. -/
theorem handle {p : Program S ε α} {handler : ε → Program S ε α} (hp : K α p)
    (hh : ∀ e, K α (handler e)) : K α (p.handle handler) := by
  refine hK.bind (hK.attempt hp) fun r => ?_
  cases r with
  | ok a => exact hK.done a
  | error e => exact hh e

/-- It holds of a program with a cleanup. -/
theorem ensuring {p : Program S ε α} {cleanup : Program S ε Unit} (hp : K α p)
    (hc : K Unit cleanup) : K α (p.ensuring cleanup) :=
  hK.bind (hK.attempt hp) fun r => hK.bind hc fun _ => hK.ofExcept r

/-- A compositional property of the single operations a program uses is one of the program. -/
theorem of_uses {P : S.Op → Prop} (hop : ∀ o, P o → K (S.Answer o) (perform o .done))
    {p : Program S ε α} (hp : p.Uses P) : K α p := by
  induction p with
  | done a => exact hK.done a
  | raise e => exact hK.raise e
  | perform o next ih => exact hK.bind (hop o hp.1) fun answer => ih answer (hp.2 answer)

end Compositional

/-- Keeping an invariant is such a property. -/
theorem keeps_compositional (M : Machine S C W) (I : W → Prop) :
    Compositional (S := S) (ε := ε) fun _ p => Keeps M I p :=
  ⟨keeps_done, keeps_raise, keeps_bind, keeps_attempt⟩

/-- So is using operations of a kind only. -/
theorem uses_compositional (P : S.Op → Prop) :
    Compositional (S := S) (ε := ε) fun _ p => p.Uses P :=
  ⟨uses_done P, uses_raise P, uses_bind, uses_attempt⟩

/-- A program keeps an invariant and raises nothing but the given errors. -/
def RaisesOnly (M : Machine S C W) (I : W → Prop) (E : ε → Prop) (p : Program S ε α) : Prop :=
  ∀ w, I w → p.wp M (fun r w' => I w' ∧ ∀ e, r = .error e → E e) w

variable {E F : ε → Prop}

/-- Errors of a kind are errors of any wider kind. -/
theorem RaisesOnly.mono {p : Program S ε α} (hp : RaisesOnly M I E p) (hEF : ∀ e, E e → F e) :
    RaisesOnly M I F p :=
  fun w h => wp_mono (fun _ _ hr => ⟨hr.1, fun e he => hEF e (hr.2 e he)⟩) (hp w h)

/-- A value raises nothing. -/
theorem raisesOnly_done (a : α) : RaisesOnly M I E (done a : Program S ε α) :=
  fun _ h => ⟨h, fun _ he => by simp at he⟩

/-- An error raises itself. -/
theorem raisesOnly_raise {e : ε} (he : E e) : RaisesOnly M I E (raise e : Program S ε α) :=
  fun _ h => ⟨h, fun e' he' => by simp only [Except.error.injEq] at he'; exact he' ▸ he⟩

/-- Operations raise nothing by themselves. -/
theorem raisesOnly_perform {o : S.Op} {next : S.Answer o → Program S ε α}
    (hstep : ∀ c w, M.admits o c w → I w → I (M.step o c w).2)
    (hnext : ∀ answer, RaisesOnly M I E (next answer)) : RaisesOnly M I E (perform o next) :=
  fun w h c hc => hnext _ _ (hstep c w hc h)

/-- A composition raises what its parts raise. -/
theorem raisesOnly_bind {p : Program S ε α} {f : α → Program S ε β} (hp : RaisesOnly M I E p)
    (hf : ∀ a, RaisesOnly M I E (f a)) : RaisesOnly M I E (p.bind f) := by
  intro w h
  rw [wp_bind]
  refine wp_mono ?_ (hp w h)
  rintro r w' ⟨h', he⟩
  cases r with
  | ok a => exact hf a w' h'
  | error e => exact ⟨h', fun e' he' => by simp only [Except.error.injEq] at he'; exact he' ▸ he e rfl⟩

/-- An attempt followed by a continuation that knows which errors were possible. -/
theorem raisesOnly_attempt_bind {p : Program S ε α} {f : Except ε α → Program S ε β}
    (hp : RaisesOnly M I E p) (hok : ∀ a, RaisesOnly M I F (f (.ok a)))
    (herror : ∀ e, E e → RaisesOnly M I F (f (.error e))) :
    RaisesOnly M I F (p.attempt.bind f) := by
  intro w h
  rw [wp_bind, wp_attempt]
  refine wp_mono ?_ (hp w h)
  rintro r w' ⟨h', he⟩
  cases r with
  | ok a => exact hok a w' h'
  | error e => exact herror e (he e rfl) w' h'

/-- A handled program raises what its handler raises. -/
theorem raisesOnly_handle {p : Program S ε α} {handler : ε → Program S ε α}
    (hp : RaisesOnly M I E p) (hh : ∀ e, E e → RaisesOnly M I F (handler e)) :
    RaisesOnly M I F (p.handle handler) :=
  raisesOnly_attempt_bind hp raisesOnly_done hh

/-- A program with a cleanup raises what both raise. -/
theorem raisesOnly_ensuring {p : Program S ε α} {cleanup : Program S ε Unit}
    (hp : RaisesOnly M I E p) (hc : RaisesOnly M I E cleanup) :
    RaisesOnly M I E (p.ensuring cleanup) :=
  raisesOnly_attempt_bind hp (fun a => raisesOnly_bind hc fun _ => raisesOnly_done a)
    fun _ he => raisesOnly_bind hc fun _ => raisesOnly_raise he

/-- A program keeps an invariant, and what it returns has a property. -/
def Gives (M : Machine S C W) (I : W → Prop) (G : α → Prop) (p : Program S ε α) : Prop :=
  ∀ w, I w → p.wp M (fun r v => I v ∧ ∀ a, r = .ok a → G a) w

/-- A program with values of a kind keeps the invariant. -/
theorem Gives.keeps {G : α → Prop} {p : Program S ε α} (hp : Gives M I G p) : Keeps M I p :=
  fun w h => wp_mono (fun _ _ hr => hr.1) (hp w h)

/-- A value gives itself. -/
theorem gives_done {G : α → Prop} {a : α} (ha : G a) : Gives M I G (done a : Program S ε α) :=
  fun _ h => ⟨h, fun b hb => by rw [Except.ok.injEq] at hb; exact hb ▸ ha⟩

/-- An error gives no value. -/
theorem gives_raise {G : α → Prop} (e : ε) : Gives M I G (raise e : Program S ε α) :=
  fun _ h => ⟨h, fun _ hb => by simp at hb⟩

/-- The second part need only be correct for values that the first one gives. -/
theorem gives_bind {G : α → Prop} {H : β → Prop} {p : Program S ε α} {f : α → Program S ε β}
    (hp : Gives M I G p) (hf : ∀ a, G a → Gives M I H (f a)) : Gives M I H (p.bind f) := by
  intro w h
  rw [wp_bind]
  refine wp_mono (fun r v hr => ?_) (hp w h)
  cases r with
  | ok a => exact hf a (hr.2 a rfl) v hr.1
  | error e => exact ⟨hr.1, fun b hb => by simp at hb⟩

/-- After an attempt either outcome goes on. -/
theorem gives_attempt_bind {G : α → Prop} {H : β → Prop} {p : Program S ε α}
    {f : Except ε α → Program S ε β} (hp : Gives M I G p)
    (hok : ∀ a, G a → Gives M I H (f (.ok a))) (herror : ∀ e, Gives M I H (f (.error e))) :
    Gives M I H (p.attempt.bind f) := by
  intro w h
  rw [wp_bind, wp_attempt]
  refine wp_mono (fun r v hr => ?_) (hp w h)
  cases r with
  | ok a => exact hok a (hr.2 a rfl) v hr.1
  | error e => exact herror e v hr.1

/-- A handled program gives what it and its handler give. -/
theorem gives_handle {G : α → Prop} {p : Program S ε α} {handler : ε → Program S ε α}
    (hp : Gives M I G p) (hh : ∀ e, Gives M I G (handler e)) : Gives M I G (p.handle handler) :=
  gives_attempt_bind hp (fun _ => gives_done) hh

/-- The cleanup changes no value. -/
theorem gives_ensuring {G : α → Prop} {p : Program S ε α} {cleanup : Program S ε Unit}
    (hp : Gives M I G p) (hc : Keeps M I cleanup) : Gives M I G (p.ensuring cleanup) := by
  have hclean : Gives M I (fun _ => True) cleanup :=
    fun w h => wp_mono (fun _ _ hr => ⟨hr, fun _ _ => trivial⟩) (hc w h)
  refine gives_attempt_bind hp (fun a ha => gives_bind hclean fun _ _ => gives_done ha) fun e => ?_
  exact gives_bind hclean fun _ _ => gives_raise e

/-- From one property a program returns into a second or raises into a third. -/
def Triple (M : Machine S C W) (I : W → Prop) (p : Program S ε α) (G : α → W → Prop)
    (E : W → Prop) : Prop :=
  ∀ w, I w → p.wp M (fun r v => match r with
    | .ok a => G a v
    | .error _ => E v) w

section Triples

variable {G : α → W → Prop} {H : β → W → Prop} {E F : W → Prop}

/-- An invariant is a condition before and after. -/
theorem Keeps.triple {p : Program S ε α} (hp : Keeps M I p) : Triple M I p (fun _ => I) I :=
  fun w hw => wp_mono (fun r _ hr => by cases r <;> exact hr) (hp w hw)

/-- Conversely, a condition before and after either outcome is an invariant. -/
theorem Triple.keeps {p : Program S ε α} (hp : Triple M I p (fun _ => I) I) : Keeps M I p :=
  fun w hw => wp_mono (fun r _ hr => by cases r <;> exact hr) (hp w hw)

/-- Conditions after the program may be weakened. -/
theorem Triple.mono {p : Program S ε α} {G' : α → W → Prop} (hp : Triple M I p G E)
    (hG : ∀ a w, G a w → G' a w) (hE : ∀ w, E w → F w) : Triple M I p G' F := by
  intro w hw
  refine wp_mono (fun r v hr => ?_) (hp w hw)
  cases r with
  | ok a => exact hG a v hr
  | error e => exact hE v hr

/-- After a value the condition of values has to hold at once. -/
theorem triple_done {a : α} (h : ∀ w, I w → G a w) : Triple M I (done a : Program S ε α) G E := h

/-- After an error the condition of errors has to. -/
theorem triple_raise {e : ε} (h : ∀ w, I w → E w) : Triple M I (raise e : Program S ε α) G E := h

/-- Two properties to start from. -/
theorem triple_or {J : W → Prop} {p : Program S ε α} (hI : Triple M I p G E) (hJ : Triple M J p G E) :
    Triple M (fun w => I w ∨ J w) p G E :=
  fun w hw => hw.elim (hI w) (hJ w)

/-- The condition after the first part is the one before the second. -/
theorem triple_bind {p : Program S ε α} {f : α → Program S ε β} (hp : Triple M I p G E)
    (hf : ∀ a, Triple M (G a) (f a) H E) : Triple M I (p.bind f) H E := by
  intro w hw
  rw [wp_bind]
  refine wp_mono (fun r v hr => ?_) (hp w hw)
  cases r with
  | ok a => exact hf a v hr
  | error e => exact hr

/-- The condition of errors is the one before the handler. -/
theorem triple_handle {p : Program S ε α} {handler : ε → Program S ε α} (hp : Triple M I p G E)
    (hh : ∀ e, Triple M E (handler e) G F) : Triple M I (p.handle handler) G F := by
  intro w hw
  rw [wp_handle]
  refine wp_mono (fun r v hr => ?_) (hp w hw)
  cases r with
  | ok a => exact hr
  | error e => exact hh e v hr

/-- A cleanup that may raise itself. -/
theorem triple_ensuring {p : Program S ε α} {cleanup : Program S ε Unit} {H : α → W → Prop}
    (hp : Triple M I p G E) (hok : ∀ a, Triple M (G a) cleanup (fun _ => H a) F)
    (herror : Triple M E cleanup (fun _ => F) F) : Triple M I (p.ensuring cleanup) H F := by
  intro w hw
  rw [wp_ensuring]
  refine wp_mono (fun r v hr => ?_) (hp w hw)
  cases r with
  | ok a =>
    refine wp_mono (fun s u hs => ?_) (hok a v hr)
    cases s <;> exact hs
  | error e =>
    refine wp_mono (fun s u hs => ?_) (herror v hr)
    cases s <;> exact hs

end Triples

/-- From one property there are executions, and all end with one result in another property. -/
def Settles (M : Machine S C W) (I J : W → Prop) (p : Program S ε α) (r : Except ε α) : Prop :=
  ∀ w, I w → p.wp M (fun outcome v => outcome = r ∧ J v) w ∧ ∃ outcome v, p.Reaches M w outcome v

section Settled

variable {J : W → Prop} {r : Except ε α} {p : Program S ε α}

/-- Every run of a settled program ends with its outcome. -/
theorem Settles.ends (h : Settles M I J p r) {w v : W} {outcome : Except ε α} (hw : I w)
    (hreach : p.Reaches M w outcome v) : outcome = r ∧ J v :=
  reaches_of_wp (h w hw).1 hreach

/-- An outcome is settled. -/
theorem settles_ofExcept (r : Except ε α) : Settles M I I (ofExcept r : Program S ε α) r := by
  intro w hw
  rw [wp_ofExcept]
  exact ⟨⟨rfl, hw⟩, exists_ofExcept r w⟩

/-- What follows a settled part starts where the part ends. -/
theorem Settles.bind {f : α → Program S ε β} {g : α → Except ε β} (hp : Settles M I J p r)
    (hf : ∀ a, r = .ok a → Settles M J J (f a) (g a)) : Settles M I J (p.bind f) (r.bind g) := by
  intro w hw
  obtain ⟨hwp, hreach⟩ := hp w hw
  constructor
  · rw [wp_bind]
    refine wp_mono ?_ hwp
    rintro outcome v ⟨rfl, hv⟩
    cases outcome with
    | error e => exact ⟨rfl, hv⟩
    | ok a => exact (hf a rfl v hv).1
  · refine exists_bind hreach fun a v hv => ?_
    obtain ⟨hr, hJ⟩ := reaches_of_wp hwp hv
    exact (hf a hr.symm v hJ).2

/-- So is an attempt of a settled program. -/
theorem Settles.attempt (hp : Settles M I J p r) : Settles M I J p.attempt (.ok r) := by
  intro w hw
  obtain ⟨hwp, outcome, v, hreach⟩ := hp w hw
  rw [wp_attempt]
  constructor
  · refine wp_mono ?_ hwp
    rintro _ u ⟨rfl, hu⟩
    exact ⟨rfl, hu⟩
  · exact ⟨.ok outcome, v, (reaches_attempt p).mpr ⟨outcome, rfl, hreach⟩⟩

/-- A handler of a part that does not raise is never entered. -/
theorem Settles.handle {a : α} {handler : ε → Program S ε α} (hp : Settles M I J p (.ok a)) :
    Settles M I J (p.handle handler) (.ok a) := by
  refine hp.attempt.bind (g := fun _ => .ok a) fun outcome houtcome => ?_
  rw [← Except.ok.inj houtcome]
  exact settles_ofExcept (.ok a)

/-- A value computed from a settled result. -/
theorem Settles.map (hp : Settles M I J p r) (f : α → β) :
    Settles M I J (p.bind fun a => done (f a)) (r.map f) := by
  have hlast := hp.bind (f := fun a => done (f a)) (g := fun a => .ok (f a))
    fun a _ => settles_ofExcept (.ok (f a))
  cases r <;> exact hlast

end Settled

end Invariants

end Program

/-- A machine simulated by another: each admitted step has a counterpart with
the same answer that keeps the worlds related. -/
structure Simulates {C' W' : Type} (M : Machine S C W) (M' : Machine S C' W')
    (R : W → W' → Prop) : Prop where
  /-- Related worlds take matching steps to related worlds. -/
  step : ∀ o c w w', R w w' → M.admits o c w → ∃ c', M'.admits o c' w' ∧
    (M.step o c w).1 = (M'.step o c' w').1 ∧ R (M.step o c w).2 (M'.step o c' w').2

/-- What is proved of a program on the simulating machine holds on the simulated one. -/
theorem Simulates.wp {C' W' : Type} {M : Machine S C W} {M' : Machine S C' W'}
    {R : W → W' → Prop} (h : Simulates M M' R) {p : Program S ε α}
    {Q : Except ε α → W → Prop} {Q' : Except ε α → W' → Prop}
    (hQ : ∀ r w w', R w w' → Q' r w' → Q r w) {w : W} {w' : W'} (hw : R w w')
    (hp : p.wp M' Q' w') : p.wp M Q w := by
  induction p generalizing w w' with
  | done a => exact hQ _ _ _ hw hp
  | raise e => exact hQ _ _ _ hw hp
  | perform o next ih =>
    intro c hc
    obtain ⟨c', hc', hanswer, hw'⟩ := h.step o c w w' hw hc
    have hnext := hp c' hc'
    rw [← hanswer] at hnext
    exact ih _ hw' hnext

end DolphinRe.EffectProgram
