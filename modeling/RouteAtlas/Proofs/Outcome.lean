/-!
# Outcomes

How an outcome of type `Except` comes about: a mapped outcome succeeds or fails
as the one below it does, and a sequence of two steps succeeds only if both do.
Every proof about a function that can fail takes its outcome apart with these
lemmas.
-/

set_option autoImplicit false

namespace RouteAtlas

variable {ε α β : Type}

/-- A mapped outcome is a success exactly if the outcome is one. -/
theorem map_eq_ok_iff {f : α → β} {outcome : Except ε α} {b : β} :
    outcome.map f = .ok b ↔ ∃ a, outcome = .ok a ∧ f a = b := by
  cases outcome <;> simp [Except.map]

/-- A mapped outcome is a failure exactly if the outcome is that failure. -/
theorem map_eq_error_iff {f : α → β} {outcome : Except ε α} {failure : ε} :
    outcome.map f = .error failure ↔ outcome = .error failure := by
  cases outcome <;> simp [Except.map]

/-- Two steps in sequence succeed exactly if the first one does and the second
one does on its result. -/
theorem bind_eq_ok_iff {f : α → Except ε β} {outcome : Except ε α} {b : β} :
    (outcome >>= f) = .ok b ↔ ∃ a, outcome = .ok a ∧ f a = .ok b := by
  cases outcome <;> simp [bind, Except.bind]

end RouteAtlas
