/-!
# Results of operations

An operation gives a value or fails, and leaves a state behind in both cases.  `leaves` is that
state, and `failure?` tells whether it failed.
-/

namespace HullRobot

variable {ε σ α : Type}

/-- What is left behind, also by a failure. -/
def leaves : EStateM.Result ε σ α → σ
  | .ok _ s => s
  | .error _ s => s

/-- Why something failed, if it did. -/
def failure? : EStateM.Result ε σ α → Option ε
  | .ok _ _ => none
  | .error e _ => some e

theorem eq_ok_of_failure? {r : EStateM.Result ε σ Unit} (h : failure? r = none) :
    r = .ok () (leaves r) := by
  cases r with
  | ok u s => rfl
  | error e s => cases h

theorem eq_error_of_failure? {r : EStateM.Result ε σ α} {e : ε} (h : failure? r = some e) :
    r = .error e (leaves r) := by
  cases r with
  | ok a s => cases h
  | error e' s =>
    cases h
    rfl

end HullRobot
