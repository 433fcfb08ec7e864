import Mathlib.Data.List.Basic
import Mathlib.Logic.Function.Basic

/-!
# Transducers demultiplexed by a key

A receiver that keeps one state for every source, and looks only at the state
of the source an input came from, runs one independent copy of a transducer
for each source.  This file defines the runs of a transducer and of its keyed
version, and proves that the outputs of the keyed run which belong to one key
are the outputs of the plain run on the inputs of that key.
-/

namespace DroneEngage.KeyedTransducers

variable {Key State Input Output Element : Type*}

/-- Run a transducer, collecting the outputs in the order they are made. -/
def run (step : State → Input → State × Option Output) :
    State → List Input → State × List Output
  | state, [] => (state, [])
  | state, input :: inputs =>
      let next := step state input
      let rest := run step next.1 inputs
      (rest.1, next.2.toList ++ rest.2)

@[simp]
theorem run_nil (step : State → Input → State × Option Output) (state : State) :
    run step state [] = (state, []) :=
  rfl

theorem run_cons (step : State → Input → State × Option Output) (state : State)
    (input : Input) (inputs : List Input) :
    run step state (input :: inputs) =
      ((run step (step state input).1 inputs).1,
        (step state input).2.toList ++ (run step (step state input).1 inputs).2) :=
  rfl

theorem run_append (step : State → Input → State × Option Output) (state : State)
    (first second : List Input) :
    run step state (first ++ second) =
      ((run step (run step state first).1 second).1,
        (run step state first).2 ++ (run step (run step state first).1 second).2) := by
  induction first generalizing state with
  | nil => simp
  | cons input first ih =>
      simp only [List.cons_append, run_cons, ih, List.append_assoc]

/-- Running block after block, when every block leads from the resting state
back to it, makes the outputs of the blocks one after the other. -/
theorem run_flatMap_of_returns {Block : Type*}
    (step : State → Input → State × Option Output) (resting : State)
    (inputs : Block → List Input) (outputs : Block → List Output)
    (blocks : List Block)
    (returns : ∀ block ∈ blocks,
      run step resting (inputs block) = (resting, outputs block)) :
    run step resting (blocks.flatMap inputs) =
      (resting, blocks.flatMap outputs) := by
  induction blocks with
  | nil => rfl
  | cons block blocks ih =>
      have head := returns block (by simp)
      have tail := ih (fun other member => returns other (by simp [member]))
      simp only [List.flatMap_cons, run_append, head, tail]

/-- One step of the keyed transducer: only the state of the input's key moves,
and the output carries the key. -/
def keyedStep [DecidableEq Key] (step : State → Input → State × Option Output)
    (states : Key → State) (input : Key × Input) :
    (Key → State) × Option (Key × Output) :=
  let next := step (states input.1) input.2
  (Function.update states input.1 next.1, next.2.map (Prod.mk input.1))

/-- The elements of a keyed trace that belong to one key, in their order. -/
def project [DecidableEq Key] (key : Key) (trace : List (Key × Element)) :
    List Element :=
  (trace.filter fun entry => entry.1 = key).map Prod.snd

@[simp]
theorem project_nil [DecidableEq Key] (key : Key) :
    project key ([] : List (Key × Element)) = [] :=
  rfl

theorem project_cons [DecidableEq Key] (key : Key) (entry : Key × Element)
    (trace : List (Key × Element)) :
    project key (entry :: trace) =
      if entry.1 = key then entry.2 :: project key trace
      else project key trace := by
  by_cases same : entry.1 = key <;> simp [project, same]

@[simp]
theorem project_append [DecidableEq Key] (key : Key)
    (first second : List (Key × Element)) :
    project key (first ++ second) = project key first ++ project key second := by
  simp [project]

/-- A trace interleaves the streams: the elements of every key are exactly the
stream of that key, in the order of the stream. -/
def IsInterleaving [DecidableEq Key] (streams : Key → List Element)
    (trace : List (Key × Element)) : Prop :=
  ∀ key, project key trace = streams key

/-- What the keyed run does at one key is the plain run on the inputs of that
key, whatever the inputs of the other keys are. -/
theorem keyedRun_at [DecidableEq Key]
    (step : State → Input → State × Option Output) (states : Key → State)
    (trace : List (Key × Input)) (key : Key) :
    ((run (keyedStep step) states trace).1 key,
        project key (run (keyedStep step) states trace).2) =
      run step (states key) (project key trace) := by
  induction trace generalizing states with
  | nil => rfl
  | cons input trace ih =>
      have rest := ih (keyedStep step states input).1
      rw [run_cons, project_cons, project_append]
      by_cases same : input.1 = key
      · subst same
        have stateAt : (keyedStep step states input).1 input.1 =
            (step (states input.1) input.2).1 := by
          simp [keyedStep]
        rw [stateAt] at rest
        rw [if_pos rfl, run_cons, ← rest]
        cases made : (step (states input.1) input.2).2 <;>
          simp [keyedStep, made, project_cons]
      · have stateAt : (keyedStep step states input).1 key = states key := by
          simp [keyedStep, Function.update_of_ne (Ne.symm same)]
        rw [stateAt] at rest
        rw [if_neg same, ← rest]
        cases made : (step (states input.1) input.2).2 <;>
          simp [keyedStep, made, project_cons, same]

theorem project_keyedRun [DecidableEq Key]
    (step : State → Input → State × Option Output) (states : Key → State)
    (trace : List (Key × Input)) (key : Key) :
    project key (run (keyedStep step) states trace).2 =
      (run step (states key) (project key trace)).2 :=
  congrArg Prod.snd (keyedRun_at step states trace key)

/-- A keyed run on an interleaving of input streams makes an interleaving of
the output streams. -/
theorem isInterleaving_keyedRun [DecidableEq Key]
    (step : State → Input → State × Option Output) (states : Key → State)
    {streams : Key → List Input} {trace : List (Key × Input)}
    (interleaving : IsInterleaving streams trace) :
    IsInterleaving (fun key => (run step (states key) (streams key)).2)
      (run (keyedStep step) states trace).2 := by
  intro key
  rw [project_keyedRun, interleaving key]

/-- Renaming the keys of the inputs injectively renames those of the outputs. -/
theorem keyedRun_map_key {NewKey : Type*} [DecidableEq Key] [DecidableEq NewKey]
    {rename : Key → NewKey} (injective : Function.Injective rename)
    (step : State → Input → State × Option Output) (states : NewKey → State)
    (trace : List (Key × Input)) :
    (run (keyedStep step) states
        (trace.map fun entry => (rename entry.1, entry.2))).2 =
      (run (keyedStep step) (states ∘ rename) trace).2.map
        fun entry => (rename entry.1, entry.2) := by
  induction trace generalizing states with
  | nil => rfl
  | cons input trace ih =>
      have nextStates : (keyedStep step states (rename input.1, input.2)).1 ∘ rename =
          (keyedStep step (states ∘ rename) input).1 :=
        Function.update_comp_eq_of_injective _ injective _ _
      rw [List.map_cons, run_cons, run_cons, ih, nextStates]
      cases made : (step (states (rename input.1)) input.2).2 <;>
        simp [keyedStep, made]

/-- When all the inputs have one key, the keyed run is the plain one. -/
theorem keyedRun_map_mk [DecidableEq Key]
    (step : State → Input → State × Option Output) (states : Key → State)
    (key : Key) (inputs : List Input) :
    (run (keyedStep step) states (inputs.map (Prod.mk key))).2 =
      (run step (states key) inputs).2.map (Prod.mk key) := by
  induction inputs generalizing states with
  | nil => rfl
  | cons input inputs ih =>
      rw [List.map_cons, run_cons, run_cons, ih, List.map_append]
      cases made : (step (states key) input).2 <;> simp [keyedStep, made]

end DroneEngage.KeyedTransducers
