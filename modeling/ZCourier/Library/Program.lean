import Mathlib.Data.List.Basic

/-!
# Programs over an interface of effects

`Prog E R α` is the code of one activity: it performs effects `e : E`, each of which is answered
by a response of type `R e`, and in the end returns a value. An `EffectSpec` says which responses
and successor states an effect may have and what must hold where it is performed; `Prog.Meets` is
the resulting program logic, with `Prog.Meets.bind` as its main rule.
-/

namespace ZCourier.Library

/-- A program: a returned value, or an effect followed by a program for each response. -/
inductive Prog (E : Type) (R : E → Type) (α : Type) : Type where
  | ret (value : α)
  | perform (effect : E) (next : R effect → Prog E R α)

/-- One performed effect together with the response it got. -/
structure Event (E : Type) (R : E → Type) where
  effect : E
  response : R effect

variable {E : Type} {R : E → Type} {α β σ : Type}

namespace Prog

/-- Sequential composition: run the first program, then the one its value selects. -/
protected def bind : Prog E R α → (α → Prog E R β) → Prog E R β
  | .ret value, rest => rest value
  | .perform effect next, rest => .perform effect fun response => (next response).bind rest

instance : Monad (Prog E R) where
  pure := .ret
  bind := .bind

/-- The program that performs one effect and returns its response. -/
def call (effect : E) : Prog E R (R effect) :=
  .perform effect .ret

/-- Run a program to its end on a state; the `n`-th effect is answered with the `n`-th input. -/
def eval {In : Type} (exec : (effect : E) → In → σ → R effect × σ) :
    Prog E R α → (Nat → In) → σ → α × σ
  | .ret value, _, state => (value, state)
  | .perform effect next, inputs, state =>
    let (response, state) := exec effect (inputs 0) state
    (next response).eval exec (fun n => inputs (n + 1)) state

/-- The value of a program that has nothing left to perform. -/
def result? : Prog E R α → Option α
  | .ret value => some value
  | .perform _ _ => none

/-- The effect a program performs next. -/
def next? : Prog E R α → Option E
  | .ret _ => none
  | .perform effect _ => some effect

@[simp] theorem pure_eq (value : α) : (pure value : Prog E R α) = .ret value := rfl

@[simp] theorem ret_bind (value : α) (rest : α → Prog E R β) :
    (Prog.ret value : Prog E R α) >>= rest = rest value := rfl

@[simp] theorem perform_bind (effect : E) (next : R effect → Prog E R α)
    (rest : α → Prog E R β) :
    Prog.perform effect next >>= rest =
      .perform effect fun response => next response >>= rest := rfl

@[simp] theorem call_bind (effect : E) (rest : R effect → Prog E R β) :
    (call effect : Prog E R (R effect)) >>= rest = .perform effect rest := rfl

@[simp] theorem result?_ret (value : α) : (Prog.ret value : Prog E R α).result? = some value :=
  rfl

@[simp] theorem result?_perform (effect : E) (next : R effect → Prog E R α) :
    (Prog.perform effect next).result? = none := rfl

theorem eq_ret_of_result? {prog : Prog E R α} {value : α} (h : prog.result? = some value) :
    prog = .ret value := by
  cases prog with
  | ret other => exact congrArg Prog.ret (Option.some.inj h)
  | perform effect next => cases h

theorem eq_perform_of_next? {prog : Prog E R α} {effect : E} (h : prog.next? = some effect) :
    ∃ next, prog = .perform effect next := by
  cases prog with
  | ret value => cases h
  | perform effect' next =>
    obtain rfl := Option.some.inj h
    exact ⟨next, rfl⟩

/-- Every effect the program can perform, whatever the responses, satisfies `p`. -/
def Performs (p : E → Prop) : Prog E R α → Prop
  | .ret _ => True
  | .perform effect next => p effect ∧ ∀ response, (next response).Performs p

theorem Performs.mono {p q : E → Prop} {prog : Prog E R α} (h : prog.Performs p)
    (hpq : ∀ effect, p effect → q effect) : prog.Performs q := by
  induction prog with
  | ret value => trivial
  | perform effect next ih => exact ⟨hpq effect h.1, fun response => ih response (h.2 response)⟩

theorem Performs.bind {p : E → Prop} {prog : Prog E R α} {rest : α → Prog E R β}
    (h : prog.Performs p) (hrest : ∀ value, (rest value).Performs p) :
    (prog >>= rest).Performs p := by
  induction prog with
  | ret value => exact hrest value
  | perform effect next ih => exact ⟨h.1, fun response => ih response (h.2 response)⟩

theorem Performs.call_bind {p : E → Prop} {effect : E} {rest : R effect → Prog E R β}
    (heffect : p effect) (hrest : ∀ response, (rest response).Performs p) :
    (call effect >>= rest).Performs p :=
  ⟨heffect, hrest⟩

end Prog

/-- What effects may do to a state of type `σ`: `pre` must hold wherever an effect is
performed, and `step` relates the state before, the response and the state after. -/
structure EffectSpec (E : Type) (R : E → Type) (σ : Type) where
  pre : E → σ → Prop
  step : (effect : E) → σ → R effect → σ → Prop

/-- The specification in which the state is the list of the events so far: an effect
must be allowed after them, and only possible responses occur. -/
def EffectSpec.protocol (allowed : List (Event E R) → E → Prop)
    (possible : (effect : E) → R effect → Prop) : EffectSpec E R (List (Event E R)) where
  pre effect log := allowed log effect
  step effect log response log' := possible effect response ∧ log' = log ++ [⟨effect, response⟩]

namespace Prog

/-- From the given state, every effect the program performs meets the specification's
precondition, and every value it returns satisfies `post` in the state it returns in. -/
def Meets (spec : EffectSpec E R σ) (post : α → σ → Prop) : Prog E R α → σ → Prop
  | .ret value, state => post value state
  | .perform effect next, state =>
    spec.pre effect state ∧
      ∀ response state', spec.step effect state response state' →
        (next response).Meets spec post state'

variable {spec : EffectSpec E R σ}

variable {post : α → σ → Prop} {state : σ}

@[simp] theorem meets_ret {value : α} :
    (Prog.ret value : Prog E R α).Meets spec post state ↔ post value state := Iff.rfl

variable {prog : Prog E R α}

/-- A weaker postcondition is met as well. -/
theorem Meets.mono {post post' : α → σ → Prop} (h : prog.Meets spec post state)
    (hpost : ∀ value state, post value state → post' value state) :
    prog.Meets spec post' state := by
  induction prog generalizing state with
  | ret value => exact hpost value state h
  | perform effect next ih =>
    exact ⟨h.1, fun response state' hstep => ih response (h.2 response state' hstep)⟩

/-- A specification with weaker preconditions and fewer steps is met as well. -/
theorem Meets.weaken {spec' : EffectSpec E R σ} (h : prog.Meets spec post state)
    (hpre : ∀ effect state, spec.pre effect state → spec'.pre effect state)
    (hstep : ∀ effect state response state', spec'.step effect state response state' →
      spec.step effect state response state') : prog.Meets spec' post state := by
  induction prog generalizing state with
  | ret value => exact h
  | perform effect next ih =>
    exact ⟨hpre _ _ h.1, fun response state' hs => ih response (h.2 _ _ (hstep _ _ _ _ hs))⟩

/-- The composition rule: the first part establishes what the second part starts from. -/
theorem Meets.bind {post : α → σ → Prop} {post' : β → σ → Prop} {prog : Prog E R α}
    {rest : α → Prog E R β} {state : σ} (h : prog.Meets spec post state)
    (hrest : ∀ value state, post value state → (rest value).Meets spec post' state) :
    (prog >>= rest).Meets spec post' state := by
  induction prog generalizing state with
  | ret value => exact hrest value state h
  | perform effect next ih =>
    exact ⟨h.1, fun response state' hstep => ih response (h.2 response state' hstep)⟩

/-- Running a program to its end establishes its postcondition. -/
theorem Meets.eval {In : Type} {exec : (effect : E) → In → σ → R effect × σ}
    (h : prog.Meets spec post state) (hexec : ∀ effect input state,
      spec.step effect state (exec effect input state).1 (exec effect input state).2)
    (inputs : Nat → In) : post (prog.eval exec inputs state).1 (prog.eval exec inputs state).2 := by
  induction prog generalizing inputs state with
  | ret value => exact h
  | perform effect next ih => exact ih _ (h.2 _ _ (hexec effect (inputs 0) state)) _

/-- A program keeps an invariant that each of its effects keeps. -/
theorem Performs.keeps {p : E → Prop} {inv : σ → Prop} (h : prog.Performs p)
    (hkeeps : ∀ {effect state}, p effect → inv state → spec.pre effect state ∧
      ∀ response state', spec.step effect state response state' → inv state') (hinv : inv state) :
    prog.Meets spec (fun _ => inv) state := by
  induction prog generalizing state with
  | ret value => exact hinv
  | perform effect next ih =>
    obtain ⟨hpre, hstep⟩ := hkeeps h.1 hinv
    exact ⟨hpre, fun response state' hs =>
      ih response (h.2 response) (hstep response state' hs)⟩

variable {possible : (effect : E) → R effect → Prop}

/-- A program obeys a protocol that only restricts which effects occur. -/
theorem Performs.meets {p : E → Prop} (h : prog.Performs p) (log : List (Event E R)) :
    prog.Meets (.protocol (fun _ => p) possible) (fun _ _ => True) log :=
  h.keeps (fun heffect _ => ⟨heffect, fun _ _ _ => trivial⟩) trivial

theorem Meets.performs {p : E → Prop} {allowed : List (Event E R) → E → Prop}
    {post : α → List (Event E R) → Prop} {log : List (Event E R)}
    (h : prog.Meets (.protocol allowed possible) post log) (hp : prog.Performs p) :
    prog.Meets (.protocol (fun log effect => p effect ∧ allowed log effect) possible) post log := by
  induction prog generalizing log with
  | ret value => exact h
  | perform effect next ih =>
    exact ⟨⟨hp.1, h.1⟩, fun response log' hs => ih response (h.2 response log' hs) (hp.2 response)⟩

/-- Performing an effect under a protocol. -/
theorem Meets.call_bind {allowed : List (Event E R) → E → Prop} {post : α → List (Event E R) → Prop}
    {effect : E} {rest : R effect → Prog E R α} {log : List (Event E R)}
    (heffect : allowed log effect) (hrest : ∀ response, possible effect response →
      (rest response).Meets (.protocol allowed possible) post (log ++ [⟨effect, response⟩])) :
    (Prog.call effect >>= rest).Meets (.protocol allowed possible) post log := by
  refine ⟨heffect, ?_⟩
  rintro response log' ⟨hpossible, rfl⟩
  exact hrest response hpossible

/-- Whatever a program does, it adds to the log. -/
theorem meets_extends (prog : Prog E R α) (log : List (Event E R)) :
    prog.Meets (.protocol (fun _ _ => True) fun _ _ => True)
      (fun _ log' => log <+: log') log := by
  suffices h : ∀ start, log <+: start →
      prog.Meets (.protocol (fun _ _ => True) fun _ _ => True)
        (fun _ log' => log <+: log') start from h log (List.prefix_refl _)
  induction prog with
  | ret value => exact fun start hstart => hstart
  | perform effect next ih =>
    intro start hstart
    refine ⟨trivial, ?_⟩
    rintro response log' ⟨-, rfl⟩
    exact ih response _ (hstart.trans (List.prefix_append _ _))

end Prog

end ZCourier.Library
