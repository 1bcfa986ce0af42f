/-!
# Checks in sequence

When a `do` block in `Except` that makes one check after another comes to its end. Each
lemma takes the block apart at one kind of step, so that `simp only` with all of them
turns "the block returns `b`" into the list of what it has checked and computed.
-/

namespace ZCourier.Library

variable {ε ε' α β : Type}

theorem bind_eq_ok {x : Except ε α} {f : α → Except ε β} {b : β} :
    (x >>= f) = .ok b ↔ ∃ a, x = .ok a ∧ f a = .ok b := by
  cases x with
  | error err => simp [bind, Except.bind]
  | ok a => simp [bind, Except.bind]

theorem pure_eq_ok {a b : α} : (pure a : Except ε α) = .ok b ↔ a = b := by
  simp [pure, Except.pure]

theorem throw_eq_ok {err : ε} {a : α} : (throw err : Except ε α) = .ok a ↔ False := by
  simp [throw, throwThe, MonadExceptOf.throw]

/-- A block that begins with `if p then throw err`. -/
theorem refuse_if_eq_ok {p : Prop} [Decidable p] {err : ε} {f : α → Except ε β}
    {rest : Except ε β} {b : β} :
    (if p then throw err >>= f else rest) = .ok b ↔ ¬p ∧ rest = .ok b := by
  by_cases hp : p
  · simp [hp, bind_eq_ok, throw_eq_ok]
  · simp [hp]

/-- A block that ends with a choice between an error and a result. -/
theorem error_if_eq_ok {p : Prop} [Decidable p] {err : ε} {rest : Except ε β} {b : β} :
    (if p then .error err else rest) = .ok b ↔ ¬p ∧ rest = .ok b := by
  by_cases hp : p <;> simp [hp]

theorem map_error_ok {f : ε → ε'} {a : α} : (.ok a : Except ε α).mapError f = .ok a := rfl

theorem map_error_eq_ok {x : Except ε α} {f : ε → ε'} {a : α} :
    x.mapError f = .ok a ↔ x = .ok a := by
  cases x with
  | ok b => rw [map_error_ok, Except.ok.injEq, Except.ok.injEq]
  | error err => constructor <;> rintro ⟨⟩

theorem map_eq_ok {x : Except ε α} {f : α → β} {b : β} :
    x.map f = .ok b ↔ ∃ a, x = .ok a ∧ f a = b := by
  cases x <;> simp [Except.map]

end ZCourier.Library
