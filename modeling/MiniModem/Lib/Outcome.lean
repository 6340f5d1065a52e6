import Mathlib.Tactic.Common

/-!
# Outcomes

How a stateful call ends: it returns, or it throws. Either way it has changed the state.
-/

namespace MiniModem.Lib

/-- The state when a call has returned, or when it has thrown. -/
inductive Outcome (σ : Type*)
  | returned (state : σ)
  | threw (state : σ)

namespace Outcome
variable {σ τ : Type*}

/-- The same outcome, seen from a larger state. -/
def map (f : σ → τ) : Outcome σ → Outcome τ
  | returned state => returned (f state)
  | threw state => threw (f state)

/-- Go on with another call, unless the first has thrown. -/
def andThen (first : Outcome σ) (next : σ → Outcome σ) : Outcome σ :=
  match first with
  | returned state => next state
  | threw state => threw state

/-- The state, however the call has ended. -/
def state : Outcome σ → σ
  | returned state => state
  | threw state => state

/-- The state, if the call has returned. -/
def value? : Outcome σ → Option σ
  | returned state => some state
  | threw _ => none

/-- There is a value exactly if it has been returned. -/
@[simp] lemma value?_eq_some {outcome : Outcome σ} {state : σ} :
    outcome.value? = some state ↔ outcome = returned state := by
  cases outcome with
  | returned state' => simp [value?]
  | threw state' => simp [value?]

/-- A function of a result is returned exactly if the result is. -/
@[simp] lemma map_eq_returned {f : σ → τ} {outcome : Outcome σ} {state : τ} :
    outcome.map f = returned state ↔ ∃ before, outcome = returned before ∧ f before = state := by
  cases outcome with
  | returned state' => simp [map]
  | threw state' => simp [map]

/-- Two computations return exactly if the first does and then the second. -/
lemma andThen_eq_returned {first : Outcome σ} {next : σ → Outcome σ} {state : σ} :
    first.andThen next = returned state ↔
      ∃ between, first = returned between ∧ next between = returned state := by
  cases first with
  | returned state' => simp [andThen]
  | threw state' => simp [andThen]

end Outcome

end MiniModem.Lib
