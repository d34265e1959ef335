import ChainHub.Failure

/-!
# Results of attempts

When a computation that may fail has a result, each of its parts has one. The lemmas take such a
computation apart, so that proofs about it need not unfold how failures are passed on.
-/

namespace ChainHub.Attempt

variable {ε δ α β : Type}

/-- A sequence of two computations has a result when both have. -/
theorem bind_eq_ok_iff {x : Except ε α} {f : α → Except ε β} {b : β} :
    (x >>= f) = .ok b ↔ ∃ a, x = .ok a ∧ f a = .ok b := by
  cases x <;> simp [bind, Except.bind]

/-- A sequence of two computations fails with the first or with the second one. -/
theorem bind_eq_error_iff {x : Except ε α} {f : α → Except ε β} {e : ε} :
    (x >>= f) = .error e ↔ x = .error e ∨ ∃ a, x = .ok a ∧ f a = .error e := by
  cases x <;> simp [bind, Except.bind]

theorem map_eq_ok_iff {x : Except ε α} {f : α → β} {b : β} :
    x.map f = .ok b ↔ ∃ a, x = .ok a ∧ f a = b := by
  cases x <;> simp [Except.map]

theorem map_eq_error_iff {x : Except ε α} {f : α → β} {e : ε} :
    x.map f = .error e ↔ x = .error e := by
  cases x <;> simp [Except.map]

@[simp]
theorem pure_eq_ok_iff {a b : α} : (pure a : Except ε α) = .ok b ↔ a = b := by
  simp [pure, Except.pure]

theorem toOption_eq_some_iff {x : Except ε α} {a : α} : x.toOption = some a ↔ x = .ok a := by
  cases x <;> simp [Except.toOption]

theorem eq_of_toOption {x : Except ε α} {a a' : α} (h : x = .ok a) (h' : x.toOption = some a') :
    a = a' :=
  Except.ok.inj (h.symm.trans (toOption_eq_some_iff.mp h'))

@[simp]
theorem throw_ne_ok {e : ε} {a : α} : (throw e : Except ε α) ≠ .ok a := nofun

@[simp]
theorem throw_bind {e : ε} {f : α → Except ε β} : (throw e >>= f : Except ε β) = throw e := rfl

@[simp]
theorem refuse_ne_ok {e : ε} {a : α} : (refuse e : Attempt ε α) ≠ .ok a := nofun

@[simp]
theorem refuse_bind {e : ε} {f : α → Attempt ε β} : (refuse e >>= f) = refuse e := rfl

@[simp]
theorem abort_ne_ok {a : α} : (abort : Attempt ε α) ≠ .ok a := nofun

@[simp]
theorem ofExcept_eq_ok_iff {f : ε → δ} {x : Except ε α} {a : α} :
    ofExcept f x = .ok a ↔ x = .ok a := by
  cases x <;> simp [ofExcept]

@[simp]
theorem lift_eq_ok_iff {x : Except ε α} {a : α} : lift x = .ok a ↔ x = .ok a :=
  ofExcept_eq_ok_iff

@[simp]
theorem ofOption_eq_ok_iff {x : Option α} {a : α} :
    (ofOption x : Attempt ε α) = .ok a ↔ x = some a := by
  cases x <;> simp [ofOption]

@[simp]
theorem require_eq_ok_iff {e : ε} {x : Option α} {a : α} : require e x = .ok a ↔ x = some a := by
  cases x <;> simp [require]

/-- A guard that throws has let everything through when there is a result. -/
@[simp]
theorem ite_throw_eq_ok_iff {p : Prop} [Decidable p] {e : ε} {x : Except ε α} {a : α} :
    (if p then throw e else x) = .ok a ↔ ¬ p ∧ x = .ok a := by
  by_cases hp : p <;> simp [hp]

/-- A guard that ends with an error. -/
@[simp]
theorem ite_error_eq_ok_iff {p : Prop} [Decidable p] {e : ε} {x : Except ε α} {a : α} :
    (if p then .error e else x) = .ok a ↔ ¬ p ∧ x = .ok a := by
  by_cases hp : p <;> simp [hp]

/-- A guard that throws otherwise. -/
@[simp]
theorem ite_eq_ok_iff {p : Prop} [Decidable p] {e : ε} {x : Except ε α} {a : α} :
    (if p then x else throw e) = .ok a ↔ p ∧ x = .ok a := by
  by_cases hp : p <;> simp [hp]

/-- A guard that refuses. -/
@[simp]
theorem ite_refuse_eq_ok_iff {p : Prop} [Decidable p] {e : ε} {x : Attempt ε α} {a : α} :
    (if p then refuse e else x) = .ok a ↔ ¬ p ∧ x = .ok a := by
  by_cases hp : p <;> simp [hp]

/-- A guard that refuses otherwise. -/
@[simp]
theorem ite_eq_ok_iff' {p : Prop} [Decidable p] {e : ε} {x : Attempt ε α} {a : α} :
    (if p then x else refuse e) = .ok a ↔ p ∧ x = .ok a := by
  by_cases hp : p <;> simp [hp]

end ChainHub.Attempt
