import Mathlib.Data.Option.Basic

/-!
# Gates with a memory that may be lost

A gate lets an input pass unless the last input that has passed holds it back.  The
memory of that input may be lost between two inputs; nobody sees it where an input
that would be held back still finds it.
-/

namespace DroneEngage.ForgetfulGates

/-- What an input leaves in the memory, and which inputs an entry holds back. -/
structure Gate (Entry Input : Type*) where
  enter : Input → Entry
  holds : Entry → Input → Bool

namespace Gate

variable {Entry Input : Type*} (gate : Gate Entry Input)

/-- The memory after an input, and whether the input passes. -/
def step (memory : Option Entry) (input : Input) : Option Entry × Bool :=
  if memory.any fun entry => gate.holds entry input then (memory, false)
  else (some (gate.enter input), true)

/-- What passes of a list of inputs where nothing is forgotten. -/
def verdicts : Option Entry → List Input → List Bool
  | _, [] => []
  | memory, input :: rest =>
      (gate.step memory input).2 :: verdicts (gate.step memory input).1 rest

/-- The memory after a list of inputs. -/
def memoryAfter (memory : Option Entry) (inputs : List Input) : Option Entry :=
  inputs.foldl (fun memory input => (gate.step memory input).1) memory

variable {gate} {memory last : Option Entry} {input : Input}

theorem verdicts_append (inputs : List Input) :
    gate.verdicts memory (inputs ++ [input]) =
      gate.verdicts memory inputs ++
        [(gate.step (gate.memoryAfter memory inputs) input).2] := by
  induction inputs generalizing memory with
  | nil => rfl
  | cons first rest ih =>
      rw [List.cons_append, verdicts, ih, verdicts, List.cons_append]
      rfl

theorem memoryAfter_append (inputs : List Input) :
    gate.memoryAfter memory (inputs ++ [input]) =
      (gate.step (gate.memoryAfter memory inputs) input).1 := by
  rw [memoryAfter, List.foldl_append]
  rfl

/-- A memory that is lost only where it would not hold the input back is not missed,
and after the input it is there again. -/
theorem step_of_forgotten (kept : memory = none ∨ memory = last)
    (recalled : (last.any fun entry => gate.holds entry input) = true → memory.isSome) :
    gate.step memory input = gate.step last input := by
  rcases kept with forgotten | same
  · rw [forgotten] at recalled
    have released : (last.any fun entry => gate.holds entry input) = false := by
      cases held : last.any fun entry => gate.holds entry input with
      | false => rfl
      | true => exact absurd (recalled held) (by simp)
    rw [forgotten, step, step, released]
    rfl
  · rw [same]

end Gate

end DroneEngage.ForgetfulGates
