import Mathlib.Data.List.Basic

/-!
# Operations that take effect at once

A sequential object does one operation after the other: its step function says what an operation returns, and what it leaves.
A log of operations is explained by the object when every one returned what it returns when they are done in that order. Calls
that overlap take effect at once when each has one entry in such a log, made while the call was running.
-/

namespace Linear

variable {σ ω ρ : Type*}

/-- The operations of the log, done in its order from a first state, return what it says, and leave the last state. -/
def Explains (step : σ → ω → σ × ρ) : σ → List (ω × ρ) → σ → Prop
  | s, [], t => s = t
  | s, e :: log, t => (step s e.1).2 = e.2 ∧ Explains step (step s e.1).1 log t

variable {step : σ → ω → σ × ρ} {s t : σ} {log : List (ω × ρ)}

theorem Explains.nil (s : σ) : Explains step s [] s := rfl

/-- A log is explained from a state when its parts are, one after the other. -/
theorem explains_append {log' : List (ω × ρ)} :
    Explains step s (log ++ log') t ↔ ∃ u, Explains step s log u ∧ Explains step u log' t := by
  induction log generalizing s with
  | nil => simp [Explains]
  | cons e log ih => simp only [List.cons_append, Explains, ih, exists_and_left, and_assoc]

/-- One more operation. -/
theorem Explains.snoc (h : Explains step s log t) (op : ω) :
    Explains step s (log ++ [(op, (step t op).2)]) (step t op).1 :=
  explains_append.mpr ⟨t, h, rfl, rfl⟩

end Linear
