import Mathlib.Data.List.Basic
import Mathlib.Tactic.Tauto

/-! # Runs of a deterministic system

A system is a total step function on states and events. The two predicates
below speak about every state and about every step of a finite run, and the
rules relate them: an invariant is checked one step at a time, and a property
that a known kind of step breaks holds along a run exactly when no step of the
run is of that kind.
-/

namespace FiuNv.Run

variable {State Event : Type} (step : State → Event → State)

/-- The state after a list of events. -/
def run (state : State) (events : List Event) : State :=
  events.foldl step state

/-- The property holds in the initial state and in every state of the run. -/
def EveryState (property : State → Prop) : State → List Event → Prop
  | state, [] => property state
  | state, event :: events =>
      property state ∧ EveryState property (step state event) events

/-- The condition holds at every step, in the state before it. -/
def EveryStep (condition : State → Event → Prop) : State → List Event → Prop
  | _, [] => True
  | state, event :: events =>
      condition state event ∧ EveryStep condition (step state event) events

@[simp] theorem run_nil (state : State) : run step state [] = state := rfl

@[simp] theorem run_cons (state : State) (event : Event) (events : List Event) :
    run step state (event :: events) = run step (step state event) events := rfl

theorem run_append (state : State) (first second : List Event) :
    run step state (first ++ second) = run step (run step state first) second :=
  List.foldl_append

/-- The loop rule: an invariant that may mention the counter. -/
theorem foldl_range_induct {σ : Type} {body : σ → Nat → σ} {motive : Nat → σ → Prop} {count : Nat}
    {state : σ} (hinit : motive 0 state)
    (hbody : ∀ i < count, ∀ state, motive i state → motive (i + 1) (body state i)) :
    motive count ((List.range count).foldl body state) := by
  induction count with
  | zero => exact hinit
  | succ count ih =>
      rw [List.range_succ, List.foldl_append]
      exact hbody count (by omega) _ (ih fun i hi => hbody i (by omega))

variable {step}

theorem EveryState.last {property : State → Prop} {state : State} {events : List Event}
    (hevery : EveryState step property state events) : property (run step state events) := by
  induction events generalizing state with
  | nil => exact hevery
  | cons event events ih => exact ih hevery.2

/-- A property preserved by every step that meets the condition holds along
every run whose steps all meet it. -/
theorem EveryState.of_invariant {invariant : State → Prop} {condition : State → Event → Prop}
    (hstep : ∀ state event, invariant state → condition state event →
      invariant (step state event))
    {state : State} {events : List Event} (hinit : invariant state)
    (hevery : EveryStep step condition state events) :
    EveryState step invariant state events := by
  induction events generalizing state with
  | nil => exact hinit
  | cons event events ih =>
      exact ⟨hinit, ih (hstep state event hinit hevery.1) hevery.2⟩

/-- A step property that the invariant and the condition give holds along every run
whose steps all meet the condition. -/
theorem EveryStep.of_invariant {invariant : State → Prop}
    {condition property : State → Event → Prop}
    (hstep : ∀ state event, invariant state → condition state event →
      invariant (step state event))
    (hgives : ∀ state event, invariant state → property state event)
    {state : State} {events : List Event} (hinit : invariant state)
    (hevery : EveryStep step condition state events) : EveryStep step property state events := by
  induction events generalizing state with
  | nil => trivial
  | cons event events ih =>
      exact ⟨hgives state event hinit, ih (hstep state event hinit hevery.1) hevery.2⟩

/-- A property that every step preserves holds along every run. -/
theorem EveryState.of_step {invariant : State → Prop}
    (hstep : ∀ state event, invariant state → invariant (step state event)) {state : State}
    (hinit : invariant state) (events : List Event) :
    EveryState step invariant state events := by
  induction events generalizing state with
  | nil => exact hinit
  | cons event events ih => exact ⟨hinit, ih (hstep state event hinit)⟩

theorem EveryState.mono {first second : State → Prop} (himp : ∀ state, first state → second state)
    {state : State} {events : List Event} (hevery : EveryState step first state events) :
    EveryState step second state events := by
  induction events generalizing state with
  | nil => exact himp state hevery
  | cons event events ih => exact ⟨himp state hevery.1, ih hevery.2⟩

/-- A property of states, step by step. -/
theorem everyState_iff_everyStep_next {property : State → Prop} {state : State}
    {events : List Event} :
    EveryState step property state events ↔
      property state ∧
        EveryStep step (fun state event => property (step state event)) state events := by
  induction events generalizing state with
  | nil => simp [EveryState, EveryStep]
  | cons event events ih => simp only [EveryState, EveryStep, ih]

theorem everyStep_and {first second : State → Event → Prop} {state : State}
    {events : List Event} :
    EveryStep step first state events ∧ EveryStep step second state events ↔
      EveryStep step (fun state event => first state event ∧ second state event) state events := by
  induction events generalizing state with
  | nil => simp [EveryStep]
  | cons event events ih =>
      simp only [EveryStep, ← ih]
      tauto

/-- A condition on the events alone. -/
theorem everyStep_events {condition : Event → Prop} (state : State) (events : List Event) :
    EveryStep step (fun _ event => condition event) state events ↔
      ∀ event ∈ events, condition event := by
  induction events generalizing state with
  | nil => simp [EveryStep]
  | cons event events ih => simp only [EveryStep, ih, List.forall_mem_cons]

theorem everyStep_iff {first second : State → Event → Prop}
    (hiff : ∀ state event, first state event ↔ second state event) (state : State)
    (events : List Event) :
    EveryStep step first state events ↔ EveryStep step second state events := by
  induction events generalizing state with
  | nil => exact Iff.rfl
  | cons event events ih => exact and_congr (hiff state event) (ih (step state event))

/-- Two conditions on steps that are equivalent under an invariant which they keep
hold along the same runs. -/
theorem everyStep_congr {invariant : State → Prop} {first second : State → Event → Prop}
    (hkeep : ∀ state event, invariant state → second state event → invariant (step state event))
    (hiff : ∀ state event, invariant state → (first state event ↔ second state event))
    {state : State} (hinit : invariant state) (events : List Event) :
    EveryStep step first state events ↔ EveryStep step second state events := by
  induction events generalizing state with
  | nil => exact Iff.rfl
  | cons event events ih =>
      simp only [EveryStep, hiff state event hinit]
      exact and_congr_right fun hstep => ih (hkeep state event hinit hstep)

/-- A run of a system with more state, seen through a projection that commutes with
the steps. -/
theorem everyStep_project {Tracked : Type} {tracked : Tracked → Event → Tracked}
    {project : Tracked → State}
    (hproject : ∀ state event, project (tracked state event) = step (project state) event)
    {condition : State → Event → Prop} (state : Tracked) (events : List Event) :
    EveryStep step condition (project state) events ↔
      EveryStep tracked (fun state event => condition (project state) event) state events := by
  induction events generalizing state with
  | nil => exact Iff.rfl
  | cons event events ih =>
      simp only [EveryStep, ← hproject]
      exact and_congr_right fun _ => ih (tracked state event)

/-- The defect rule. The invariant is kept by the steps that meet the condition
and gives the property; a step outside the condition breaks the property in the
state it reaches. Then the property holds along a run exactly when every step
of the run meets the condition. -/
theorem everyState_iff_everyStep {invariant property : State → Prop}
    {condition : State → Event → Prop}
    (hkeep : ∀ state event, invariant state → condition state event →
      invariant (step state event))
    (hgives : ∀ state, invariant state → property state)
    (hbreaks : ∀ state event, invariant state → ¬ condition state event →
      ¬ property (step state event))
    {state : State} (hinit : invariant state) (events : List Event) :
    EveryState step property state events ↔ EveryStep step condition state events := by
  rw [everyState_iff_everyStep_next, and_iff_right (hgives state hinit)]
  refine everyStep_congr hkeep (fun state event hinvariant => ⟨fun hnext => ?_, fun hmet => ?_⟩)
    hinit events
  · by_contra hnot
    exact hbreaks state event hinvariant hnot hnext
  · exact hgives _ (hkeep state event hinvariant hmet)

/-- The defect rule for runs whose steps all meet an assumption. -/
theorem everyState_iff_everyStep_of_assumed {invariant property : State → Prop}
    {assumed condition : State → Event → Prop}
    (hkeep : ∀ state event, invariant state → assumed state event → condition state event →
      invariant (step state event))
    (hgives : ∀ state, invariant state → property state)
    (hbreaks : ∀ state event, invariant state → assumed state event → ¬ condition state event →
      ¬ property (step state event))
    {state : State} (hinit : invariant state) {events : List Event}
    (hassumed : EveryStep step assumed state events) :
    EveryState step property state events ↔ EveryStep step condition state events := by
  induction events generalizing state with
  | nil => exact iff_of_true (hgives state hinit) trivial
  | cons event events ih =>
      obtain ⟨hfirst, hrest⟩ := hassumed
      constructor
      · rintro ⟨-, hevery⟩
        have hmet : condition state event := by
          by_contra hnot
          refine hbreaks state event hinit hfirst hnot ?_
          cases events with
          | nil => exact hevery
          | cons => exact hevery.1
        exact ⟨hmet, (ih (hkeep state event hinit hfirst hmet) hrest).mp hevery⟩
      · rintro ⟨hmet, hevery⟩
        exact ⟨hgives state hinit, (ih (hkeep state event hinit hfirst hmet) hrest).mpr hevery⟩

/-! ## Events in a list -/

/-- Some event of the list meets the condition, which also sees the events before it. -/
def SomeEvent (condition : List Event → Event → Prop) (events : List Event) : Prop :=
  ∃ earlier event later, events = earlier ++ event :: later ∧ condition earlier event

theorem not_someEvent_nil (condition : List Event → Event → Prop) : ¬ SomeEvent condition [] := by
  rintro ⟨earlier, event, later, hsplit, -⟩
  simp at hsplit

theorem someEvent_cons (condition : List Event → Event → Prop) (event : Event)
    (events : List Event) :
    SomeEvent condition (event :: events) ↔
      condition [] event ∨ SomeEvent (fun earlier => condition (event :: earlier)) events := by
  constructor
  · rintro ⟨earlier, found, later, hsplit, hfound⟩
    cases earlier with
    | nil =>
        obtain ⟨rfl, rfl⟩ := List.cons.inj hsplit
        exact Or.inl hfound
    | cons first earlier =>
        obtain ⟨rfl, rfl⟩ := List.cons.inj hsplit
        exact Or.inr ⟨earlier, found, later, rfl, hfound⟩
  · rintro (hfound | ⟨earlier, found, later, rfl, hfound⟩)
    · exact ⟨[], event, events, rfl, hfound⟩
    · exact ⟨event :: earlier, found, later, rfl, hfound⟩

theorem someEvent_congr {first second : List Event → Event → Prop}
    (hiff : ∀ earlier event, first earlier event ↔ second earlier event) (events : List Event) :
    SomeEvent first events ↔ SomeEvent second events := by
  simp only [SomeEvent, hiff]

/-! ## Runs with outputs -/

/-- What a system answers to a list of events. -/
def outputs {Output : Type} (step : State → Event → State × Output) :
    State → List Event → List Output
  | _, [] => []
  | state, event :: events =>
      (step state event).2 :: outputs step (step state event).1 events

/-- Two systems whose steps keep a relation and answer alike answer alike in every run. -/
theorem outputs_eq_of_simulation {Abstract Output : Type}
    {step : State → Event → State × Output} {abstract : Abstract → Event → Abstract × Output}
    {relation : State → Abstract → Prop}
    (hstep : ∀ state model event, relation state model →
      relation (step state event).1 (abstract model event).1 ∧
        (step state event).2 = (abstract model event).2)
    {state : State} {model : Abstract} (hrelated : relation state model) (events : List Event) :
    outputs step state events = outputs abstract model events := by
  induction events generalizing state model with
  | nil => rfl
  | cons event events ih =>
      obtain ⟨hnext, houtput⟩ := hstep state model event hrelated
      simp only [outputs, houtput, ih hnext]

end FiuNv.Run
