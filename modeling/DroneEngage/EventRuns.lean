import Mathlib.Data.List.Basic
import Mathlib.Data.List.Induction

/-!
# Runs of a system that takes events

The step function gives the next state for a state and an event, and none where
the event cannot happen.  A run is a sequence of events that all happen, with
the state they lead to.  Invariants are proved step by step, and a condition on
the steps may be assumed throughout a run.
-/

namespace DroneEngage.EventRuns

variable {State Event : Type*} (step : State → Event → Option State)

/-- The runs from a state: the events so far and the state they lead to. -/
inductive Run (start : State) : List Event → State → Prop
  | nil : Run start [] start
  | snoc {events : List Event} {state next : State} {event : Event} :
      Run start events state → step state event = some next →
      Run start (events ++ [event]) next

/-- The runs whose steps all meet a condition on the state before and the event. -/
inductive RunWhere (meets : State → Event → Prop) (start : State) :
    List Event → State → Prop
  | nil : RunWhere meets start [] start
  | snoc {events : List Event} {state next : State} {event : Event} :
      RunWhere meets start events state → step state event = some next →
      meets state event → RunWhere meets start (events ++ [event]) next

variable {step} {meets : State → Event → Prop} {start state : State}
  {events : List Event}

/-- What holds at the start and is kept by every step holds along a run. -/
theorem Run.invariant (run : Run step start events state) (holds : State → Prop)
    (initial : holds start)
    (preserved : ∀ {events state next event}, Run step start events state →
      step state event = some next → holds state → holds next) : holds state := by
  induction run with
  | nil => exact initial
  | snoc earlier stepped ih => exact preserved earlier stepped ih

/-- The last step of a run. -/
theorem Run.last {event : Event} (run : Run step start (events ++ [event]) state) :
    ∃ before, Run step start events before ∧ step before event = some state := by
  generalize split : events ++ [event] = all at run
  cases run with
  | nil => simp at split
  | snoc earlier stepped =>
      obtain ⟨rfl, same⟩ := List.append_inj' split rfl
      obtain rfl := List.singleton_inj.mp same
      exact ⟨_, earlier, stepped⟩

/-- A run passes through a state after each part of its events. -/
theorem Run.exists_before {after : List Event}
    (run : Run step start (events ++ after) state) : ∃ middle, Run step start events middle := by
  induction after using List.reverseRecOn generalizing state with
  | nil => exact ⟨state, by simpa using run⟩
  | append_singleton after event ih =>
      rw [← List.append_assoc] at run
      obtain ⟨before, earlier, -⟩ := run.last
      exact ih earlier

/-- Events that can be taken one after the other form a run. -/
theorem Run.of_foldlM (taken : events.foldlM step start = some state) :
    Run step start events state := by
  induction events using List.reverseRecOn generalizing state with
  | nil =>
      obtain rfl := Option.some.inj taken
      exact .nil
  | append_singleton events event ih =>
      rw [List.foldlM_append] at taken
      obtain ⟨before, earlier, last⟩ := Option.bind_eq_some_iff.mp taken
      rw [List.foldlM_cons] at last
      obtain ⟨_, stepped, rest⟩ := Option.bind_eq_some_iff.mp last
      obtain rfl := Option.some.inj rest
      exact (ih earlier).snoc stepped

theorem Run.foldlM_eq (run : Run step start events state) :
    events.foldlM step start = some state := by
  induction run with
  | nil => rfl
  | snoc _ stepped ih =>
      rw [List.foldlM_append, ih]
      simpa using stepped

/-- A run goes on with events that can be taken one after the other. -/
theorem Run.extend (run : Run step start events state) {more : List Event} {last : State}
    (taken : more.foldlM step state = some last) : Run step start (events ++ more) last := by
  induction more generalizing events state with
  | nil =>
      obtain rfl := Option.some.inj taken
      rwa [List.append_nil]
  | cons event rest ih =>
      rw [List.foldlM_cons] at taken
      obtain ⟨next, stepped, takenRest⟩ := Option.bind_eq_some_iff.mp taken
      have further := ih (run.snoc stepped) takenRest
      rwa [List.append_assoc] at further

theorem RunWhere.run (runWhere : RunWhere step meets start events state) :
    Run step start events state := by
  induction runWhere with
  | nil => exact .nil
  | snoc _ stepped _ ih => exact ih.snoc stepped

/-- What holds at the start and is kept by the steps that meet the condition
holds along a run of such steps. -/
theorem RunWhere.invariant (runWhere : RunWhere step meets start events state)
    (holds : State → Prop) (initial : holds start)
    (preserved : ∀ {events state next event}, Run step start events state →
      step state event = some next → meets state event → holds state → holds next) :
    holds state := by
  induction runWhere with
  | nil => exact initial
  | snoc earlier stepped met ih => exact preserved earlier.run stepped met ih

/-- A condition that every step within the given events meets holds of the steps
of the run. -/
theorem Run.runWhere (run : Run step start events state)
    (met : ∀ before event after state next, events = before ++ event :: after →
      Run step start before state → step state event = some next → meets state event) :
    RunWhere step meets start events state := by
  induction run with
  | nil => exact .nil
  | @snoc earlier state next event run stepped ih =>
      refine (ih fun before other after state next split => ?_).snoc stepped ?_
      · exact met before other (after ++ [event]) state next (by simp [split])
      · exact met earlier event [] state next rfl run stepped

/-- Such a run goes on with events that can be taken one after the other, as long as a
test for the condition succeeds. -/
theorem RunWhere.extend (runWhere : RunWhere step meets start events state)
    {test : State → Event → Bool}
    (sound : ∀ {state event}, test state event = true → meets state event)
    {more : List Event} {last : State}
    (taken : more.foldlM
      (fun state event => if test state event then step state event else none) state =
        some last) :
    RunWhere step meets start (events ++ more) last := by
  induction more generalizing events state with
  | nil =>
      obtain rfl := Option.some.inj taken
      rwa [List.append_nil]
  | cons event rest ih =>
      rw [List.foldlM_cons] at taken
      obtain ⟨next, stepped, takenRest⟩ := Option.bind_eq_some_iff.mp taken
      obtain ⟨met, stepped⟩ := Option.ite_none_right_eq_some.mp stepped
      have further := ih (runWhere.snoc stepped (sound met)) takenRest
      rwa [List.append_assoc] at further

section Views

/-! Some events are hidden from an observer, who sees a view of the state. -/

variable {View : Type*} {view : State → View} {visible : Event → Bool}

theorem RunWhere.view_of_hidden
    (hidden : ∀ state event next, step state event = some next →
      visible event = false → view next = view state)
    (run : RunWhere step meets start events state)
    (unseen : events.filter visible = []) : view state = view start := by
  induction run with
  | nil => rfl
  | snoc _ stepped _ ih =>
      rw [List.filter_append, List.append_eq_nil_iff] at unseen
      have unseenEvent := List.filter_eq_nil_iff.mp unseen.2 _ (List.mem_singleton_self _)
      rw [hidden _ _ _ stepped (eq_false_of_ne_true unseenEvent), ih unseen.1]

/-- The last visible event of a run, and the states around it. -/
theorem RunWhere.last_visible
    (hidden : ∀ state event next, step state event = some next →
      visible event = false → view next = view state)
    (run : RunWhere step meets start events state) {front : List Event} {event : Event}
    (seen : events.filter visible = front ++ [event]) :
    ∃ earlier before after, RunWhere step meets start earlier before ∧
      earlier.filter visible = front ∧ step before event = some after ∧
      meets before event ∧ view state = view after := by
  induction run with
  | nil => simp at seen
  | @snoc events state next last run stepped met ih =>
      rw [List.filter_append] at seen
      by_cases visibleLast : visible last
      · rw [List.filter_cons_of_pos visibleLast, List.filter_nil] at seen
        obtain ⟨sameFront, sameLast⟩ := List.append_inj' seen rfl
        obtain rfl : last = event := List.singleton_inj.mp sameLast
        exact ⟨events, state, next, run, sameFront, stepped, met, rfl⟩
      · rw [List.filter_cons_of_neg visibleLast, List.filter_nil, List.append_nil] at seen
        obtain ⟨earlier, before, after, runBefore, sameFront, steppedBefore, metBefore,
          sameView⟩ := ih seen
        refine ⟨earlier, before, after, runBefore, sameFront, steppedBefore, metBefore, ?_⟩
        rw [hidden _ _ _ stepped (eq_false_of_ne_true visibleLast), sameView]

/-- Two runs with the same visible events end with the same view, if hidden
events leave the view as it is and a visible event makes equal views of equal
views. -/
theorem RunWhere.view_eq
    (hidden : ∀ state event next, step state event = some next →
      visible event = false → view next = view state)
    (determined : ∀ {left right event leftNext rightNext}, visible event = true →
      view left = view right →
      step left event = some leftNext → meets left event →
      step right event = some rightNext → meets right event →
      view leftNext = view rightNext)
    {leftStart rightStart left right : State} {leftEvents rightEvents : List Event}
    (leftRun : RunWhere step meets leftStart leftEvents left)
    (rightRun : RunWhere step meets rightStart rightEvents right)
    (sameStart : view leftStart = view rightStart)
    (sameEvents : leftEvents.filter visible = rightEvents.filter visible) :
    view left = view right := by
  induction leftRun generalizing rightEvents right with
  | nil => rw [sameStart, rightRun.view_of_hidden hidden sameEvents.symm]
  | @snoc events state next last _ stepped met ih =>
      rw [List.filter_append] at sameEvents
      by_cases visibleLast : visible last
      · rw [List.filter_cons_of_pos visibleLast, List.filter_nil] at sameEvents
        obtain ⟨earlier, before, after, runBefore, sameFront, steppedBefore, metBefore,
          sameView⟩ := rightRun.last_visible hidden sameEvents.symm
        rw [sameView]
        exact determined visibleLast (ih runBefore sameFront.symm) stepped met steppedBefore
          metBefore
      · rw [List.filter_cons_of_neg visibleLast, List.filter_nil, List.append_nil]
          at sameEvents
        rw [hidden _ _ _ stepped (eq_false_of_ne_true visibleLast),
          ih rightRun sameEvents]

end Views

end DroneEngage.EventRuns
