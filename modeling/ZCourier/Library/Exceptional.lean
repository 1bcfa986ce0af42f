import Mathlib.Data.List.Basic

/-!
# Code that changes a state and may throw

`Code σ ε α` is sequential code over a state of type `σ`: it returns a value or throws, in either
case with a new state, or does not come to an end. `Code.Ensures` says what holds at each of its
ends; there is one rule for each way of putting code together. Read `Ensures.tryCatch` and
`Ensures.ensuring` first.
-/

namespace ZCourier.Library

/-- Code over a state: it returns, throws, or does not come to an end. -/
abbrev Code (σ ε : Type) : Type → Type := ExceptT ε (StateT σ Option)

namespace Code

variable {σ ε α β : Type}

/-- Run code on a state. -/
def exec (code : Code σ ε α) (state : σ) : Option (Except ε α × σ) :=
  StateT.run (ExceptT.run code) state

/-- Code that does not come to an end. -/
def stuck : Code σ ε α := ExceptT.mk fun _ => none

/-- `try` with a `finally` and no `catch`: an exception of the cleanup takes the place of the one
that is under way. -/
def ensuring (body : Code σ ε α) (cleanup : Code σ ε Unit) : Code σ ε α := do
  let value ← tryCatch body fun err => do
    cleanup
    throw err
  cleanup
  return value

/-- A loop that is cut after the given number of turns: `inl` goes on with the next value, `inr`
leaves the loop. Every finite execution of the loop is one of these for some number of turns. -/
def iterate (body : β → Code σ ε (β ⊕ α)) : Nat → β → Code σ ε α
  | 0, _ => stuck
  | turns + 1, value => do
      match ← body value with
      | .inl next => iterate body turns next
      | .inr result => return result

/-- What holds when code ends that is run on a state: `ok` if it returns, `fails` if it throws. -/
def Ensures (code : Code σ ε α) (ok : α → σ → Prop) (fails : ε → σ → Prop) (state : σ) : Prop :=
  ∀ result state', code.exec state = some (result, state') →
    match result with
    | .ok value => ok value state'
    | .error err => fails err state'

section Rules

variable {ok ok' : α → σ → Prop} {fails fails' : ε → σ → Prop} {state : σ}

variable {code : Code σ ε α}

theorem Ensures.returned (h : code.Ensures ok fails state) {value : α} {state' : σ}
    (hexec : code.exec state = some (.ok value, state')) : ok value state' :=
  h _ _ hexec

theorem Ensures.thrown (h : code.Ensures ok fails state) {err : ε} {state' : σ}
    (hexec : code.exec state = some (.error err, state')) : fails err state' :=
  h _ _ hexec

theorem Ensures.mono (h : code.Ensures ok fails state)
    (hok : ∀ value state', ok value state' → ok' value state')
    (hfails : ∀ err state', fails err state' → fails' err state') :
    code.Ensures ok' fails' state := by
  intro result state' hexec
  cases result with
  | ok value => exact hok value state' (h.returned hexec)
  | error err => exact hfails err state' (h.thrown hexec)

theorem Ensures.ret {value : α} (h : ok value state) :
    (pure value : Code σ ε α).Ensures ok fails state := by
  intro result state' hexec
  cases hexec
  exact h

theorem Ensures.throw {err : ε} (h : fails err state) :
    (throw err : Code σ ε α).Ensures ok fails state := by
  intro result state' hexec
  cases hexec
  exact h

theorem Ensures.trivial : code.Ensures (fun _ _ => True) (fun _ _ => True) state := by
  intro result state' hexec
  cases result <;> exact True.intro

theorem Ensures.stuck : (stuck : Code σ ε α).Ensures ok fails state := by
  intro result state' hexec
  cases hexec

theorem Ensures.bind {code : Code σ ε β} {rest : β → Code σ ε α} {mid : β → σ → Prop}
    (h : code.Ensures mid fails state)
    (hrest : ∀ value state', mid value state' → (rest value).Ensures ok fails state') :
    (code >>= rest).Ensures ok fails state := by
  intro result state' hexec
  have hunfold : (code >>= rest).exec state = (code.exec state).bind fun
      | (.ok value, state') => (rest value).exec state'
      | (.error err, state') => some (.error err, state') := by
    show Option.bind (code.exec state) _ = _
    congr 1
    funext ⟨first, middle⟩
    cases first <;> rfl
  rw [hunfold] at hexec
  obtain ⟨⟨first, middle⟩, hcode, hexec⟩ := Option.bind_eq_some_iff.mp hexec
  cases first with
  | ok value => exact hrest value middle (h.returned hcode) result state' hexec
  | error err =>
    cases hexec
    exact h.thrown hcode

/-- `bind`, where the first part says less or more of the exceptions than is asked for. -/
theorem Ensures.andThen {code : Code σ ε β} {rest : β → Code σ ε α} {mid : β → σ → Prop}
    (h : code.Ensures mid fails' state)
    (hfails : ∀ err state', fails' err state' → fails err state')
    (hrest : ∀ value state', mid value state' → (rest value).Ensures ok fails state') :
    (code >>= rest).Ensures ok fails state :=
  (h.mono (fun _ _ hmid => hmid) hfails).bind hrest

theorem Ensures.tryCatch {handler : ε → Code σ ε α} {mid : ε → σ → Prop}
    (h : code.Ensures ok mid state)
    (hhandler : ∀ err state', mid err state' → (handler err).Ensures ok fails state') :
    (tryCatch code handler).Ensures ok fails state := by
  intro result state' hexec
  have hunfold : (MonadExcept.tryCatch code handler).exec state = (code.exec state).bind fun
      | (.ok value, state') => some (.ok value, state')
      | (.error err, state') => (handler err).exec state' := by
    show Option.bind (code.exec state) _ = _
    congr 1
    funext ⟨first, middle⟩
    cases first <;> rfl
  rw [hunfold] at hexec
  obtain ⟨⟨first, middle⟩, hcode, hexec⟩ := Option.bind_eq_some_iff.mp hexec
  cases first with
  | ok value =>
    cases hexec
    exact h.returned hcode
  | error err => exact hhandler err middle (h.thrown hcode) result state' hexec

/-- A `finally` runs at both ends of the body. -/
theorem Ensures.ensuring {body : Code σ ε α} {cleanup : Code σ ε Unit} {mid : α → σ → Prop}
    {midFails : ε → σ → Prop} (h : body.Ensures mid midFails state)
    (hok : ∀ value state', mid value state' →
      cleanup.Ensures (fun _ => ok value) fails state')
    (hfails : ∀ err state', midFails err state' →
      cleanup.Ensures (fun _ => fails err) fails state') :
    (Code.ensuring body cleanup).Ensures ok fails state := by
  refine Ensures.bind (h.tryCatch ?_) ?_
  · intro err state' hmid
    exact (hfails err state' hmid).bind fun _ _ h' => .throw h'
  · intro value state' hmid
    exact (hok value state' hmid).bind fun _ _ h' => .ret h'

theorem Ensures.modify {fails : ε → σ → Prop} {ok : PUnit → σ → Prop} {change : σ → σ}
    (h : ok ⟨⟩ (change state)) :
    (modify change : Code σ ε PUnit).Ensures ok fails state := by
  intro result state' hexec
  cases hexec
  exact h

/-- A loop keeps what each turn keeps. -/
theorem Ensures.iterate {body : β → Code σ ε (β ⊕ α)} (inv : β → σ → Prop)
    (hbody : ∀ value state, inv value state → (body value).Ensures
      (fun result state' => Sum.elim (inv · state') (ok · state') result) fails state)
    (turns : Nat) {value : β} (h : inv value state) :
    (Code.iterate body turns value).Ensures ok fails state := by
  induction turns generalizing value state with
  | zero => exact .stuck
  | succ turns ih =>
    refine (hbody value state h).bind ?_
    rintro (next | result) state' h'
    · exact ih h'
    · exact .ret h'

/-- Running code for each element of a list keeps what each single run keeps, where the elements
already done are known. -/
theorem Ensures.forM {γ : Type} {body : γ → Code σ ε PUnit} (inv : List γ → σ → Prop)
    {fails : ε → σ → Prop}
    (hbody : ∀ done value state, inv done state →
      (body value).Ensures (fun _ => inv (done ++ [value])) fails state)
    (values : List γ) {done : List γ} (h : inv done state) :
    (values.forM body).Ensures (fun _ => inv (done ++ values)) fails state := by
  induction values generalizing done state with
  | nil =>
    rw [List.append_nil]
    exact .ret h
  | cons value values ih =>
    refine (hbody done value state h).bind ?_
    intro _ state' h'
    have hrest := ih h'
    rw [List.append_assoc] at hrest
    exact hrest

end Rules

end Code

end ZCourier.Library
