import Mathlib.Init

/-!
# Calls that an exception may interrupt

A call on a state returns or throws, and what it has done before it throws stays
done.  `Ends` says under which condition a call returns, and what holds between the
state before it and the one it leaves in either case.
-/

namespace DroneEngage.InterruptedCalls

variable {State Exception α β : Type}

/-- The state that a call leaves, whether it returns or throws. -/
def leaves (call : EStateM Exception State α) (state : State) : State :=
  match call.run state with
  | .ok _ final => final
  | .error _ final => final

/-- A result is a return or an exception, and the state with it meets a condition. -/
def EndsIn (returns : Bool) (holds : State → Prop) : EStateM.Result Exception State α → Prop
  | .ok _ final => returns = true ∧ holds final
  | .error _ final => returns = false ∧ holds final

/-- A call returns exactly under a condition, and keeps a relation in either case. -/
def Ends (call : EStateM Exception State α) (returns : Bool) (keeps : State → State → Prop) :
    Prop :=
  ∀ state, EndsIn returns (keeps state) (call.run state)

section Results

variable {returns : Bool} {holds weaker : State → Prop}
  {result : EStateM.Result Exception State α}

theorem EndsIn.imp (ended : EndsIn returns holds result)
    (implies : ∀ final, holds final → weaker final) : EndsIn returns weaker result := by
  cases result with
  | ok value final => exact ⟨ended.1, implies final ended.2⟩
  | error exception final => exact ⟨ended.1, implies final ended.2⟩

theorem EndsIn.exists_ok (ended : EndsIn true holds result) :
    ∃ value final, result = .ok value final ∧ holds final := by
  cases result with
  | ok value final => exact ⟨value, final, rfl, ended.2⟩
  | error exception final => exact nomatch ended.1

theorem EndsIn.exists_error (ended : EndsIn false holds result) :
    ∃ exception final, result = .error exception final ∧ holds final := by
  cases result with
  | ok value final => exact nomatch ended.1
  | error exception final => exact ⟨exception, final, rfl, ended.2⟩

end Results

section Calls

variable {call : EStateM Exception State α} {rest : α → EStateM Exception State β}
  {returns also : Bool} {keeps : State → State → Prop}

/-- Two calls in a row return where both do. -/
theorem Ends.bind (first : Ends call returns keeps) (next : ∀ value, Ends (rest value) also keeps)
    (transitive : ∀ {first second third}, keeps first second → keeps second third →
      keeps first third) :
    Ends (call >>= rest) (returns && also) keeps := by
  intro state
  have ended := first state
  rw [EStateM.run_bind]
  cases returns with
  | false =>
      obtain ⟨exception, final, ran, kept⟩ := ended.exists_error
      rw [ran]
      exact ⟨rfl, kept⟩
  | true =>
      obtain ⟨value, middle, ran, kept⟩ := ended.exists_ok
      rw [ran]
      exact (next value middle).imp fun final => transitive kept

theorem Ends.seq {next : EStateM Exception State β} (first : Ends call returns keeps)
    (second : Ends next also keeps)
    (transitive : ∀ {first second third}, keeps first second → keeps second third →
      keeps first third) :
    Ends (call >>= fun _ => next) (returns && also) keeps :=
  first.bind (fun _ => second) transitive

/-- A call that first looks at the state. -/
theorem Ends.get {rest : State → EStateM Exception State β}
    (next : ∀ seen, Ends (rest seen) returns keeps) : Ends (get >>= rest) returns keeps :=
  fun state => next state state

end Calls

end DroneEngage.InterruptedCalls
