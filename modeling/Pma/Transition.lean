import Mathlib.Logic.Relation

namespace Pma.Transition

/-!
# Labelled transition systems

The vocabulary every run-level result of the development uses.  A system is a
relation `State → Label → State → Prop`; a run is a finite sequence of its
steps.  Deterministic code that can abort becomes such a relation through
`ofPartial`, and a side condition on every step becomes one through `guarded`.
Nothing here mentions a particular program.
-/

variable {State Label Error : Type*}

/-- The transition relation of a step function that may abort. -/
def ofPartial
    (step : State → Label → Except Error State) :
    State → Label → State → Prop :=
  fun before label after =>
    step before label = .ok after

/-- Keep only the steps whose label meets a condition in the state before. -/
def guarded
    (condition : State → Label → Prop)
    (step : State → Label → State → Prop) :
    State → Label → State → Prop :=
  fun before label after =>
    condition before label ∧ step before label after

/-- A finite run, labelled in execution order. -/
inductive Run
    (step : State → Label → State → Prop) :
    State → List Label → State → Prop where
  | nil (state : State) :
      Run step state [] state
  | cons
      {before middle after : State}
      {label : Label}
      {labels : List Label}
      (first : step before label middle)
      (rest : Run step middle labels after) :
      Run step before (label :: labels) after

namespace Run

variable {step : State → Label → State → Prop}

/-- Runs compose at a common state. -/
theorem append
    {before middle after : State}
    {first second : List Label}
    (earlier : Run step before first middle)
    (later : Run step middle second after) :
    Run step before (first ++ second) after := by
  induction earlier with
  | nil state =>
      exact later
  | cons head tail inductionHypothesis =>
      exact .cons head (inductionHypothesis later)

/-- One more step at the end of a run. -/
theorem snoc
    {before middle after : State}
    {labels : List Label}
    {label : Label}
    (run : Run step before labels middle)
    (last : step middle label after) :
    Run step before (labels ++ [label]) after :=
  run.append (.cons last (.nil after))

/-- The invariant rule: what every step keeps, every run keeps. -/
theorem invariant
    {before after : State}
    {labels : List Label}
    (run : Run step before labels after)
    (invariant : State → Prop)
    (preserved :
      ∀ {before label after},
        invariant before →
        step before label after →
        invariant after)
    (holds : invariant before) :
    invariant after := by
  induction run with
  | nil state =>
      exact holds
  | cons head tail inductionHypothesis =>
      exact inductionHypothesis (preserved holds head)

/-- The invariant rule for what depends on the labels so far. -/
theorem histories
    {before after : State}
    {labels : List Label}
    (run : Run step before labels after)
    (invariant : List Label → State → Prop)
    (preserved :
      ∀ {earlier before label after},
        invariant earlier before →
        step before label after →
        invariant (earlier ++ [label]) after)
    (holds : invariant [] before) :
    invariant labels after := by
  have behind
      {earlier labels : List Label}
      {before after : State}
      (run : Run step before labels after)
      (holds : invariant earlier before) :
      invariant (earlier ++ labels) after := by
    induction run generalizing earlier with
    | nil state =>
        rwa [List.append_nil]
    | cons head tail inductionHypothesis =>
        have later := inductionHypothesis (preserved holds head)
        rwa [List.append_assoc, List.singleton_append] at later
  exact behind run holds

/-- A reflexive, transitive relation that every step is in relates the ends of a run. -/
theorem relates
    {relation : State → State → Prop}
    (reflexive : ∀ state, relation state state)
    (transitive :
      ∀ {first second third},
        relation first second →
        relation second third →
        relation first third)
    (stepwise :
      ∀ {before label after},
        step before label after →
        relation before after)
    {before after : State}
    {labels : List Label}
    (run : Run step before labels after) :
    relation before after := by
  induction run with
  | nil state =>
      exact reflexive state
  | cons head tail inductionHypothesis =>
      exact transitive (stepwise head) inductionHypothesis

/-- A forward simulation carries runs over. -/
theorem simulates
    {AbstractState AbstractLabel : Type*}
    {abstractStep : AbstractState → AbstractLabel → AbstractState → Prop}
    (related : State → AbstractState → Prop)
    (translate : Label → AbstractLabel)
    (simulation :
      ∀ {before label after abstract},
        related before abstract →
        step before label after →
        ∃ abstractAfter,
          abstractStep abstract (translate label) abstractAfter ∧
            related after abstractAfter)
    {before after : State}
    {labels : List Label}
    {abstract : AbstractState}
    (run : Run step before labels after)
    (holds : related before abstract) :
    ∃ abstractAfter,
      Run abstractStep abstract (labels.map translate) abstractAfter ∧
        related after abstractAfter := by
  induction run generalizing abstract with
  | nil state =>
      exact ⟨abstract, .nil abstract, holds⟩
  | cons head tail inductionHypothesis =>
      obtain ⟨middle, first, middleHolds⟩ := simulation holds head
      obtain ⟨final, rest, finalHolds⟩ := inductionHypothesis middleHolds
      exact ⟨final, .cons first rest, finalHolds⟩

end Run

/-- A loop that may abort is a run of its body. -/
theorem run_of_foldlM
    {body : State → Label → Except Error State}
    {items : List Label}
    {before after : State}
    (returned : items.foldlM body before = .ok after) :
    Run (ofPartial body) before items after := by
  induction items generalizing before with
  | nil =>
      cases returned
      exact .nil _
  | cons item rest inductionHypothesis =>
      rw [List.foldlM_cons] at returned
      cases first : body before item with
      | error fault =>
          rw [first] at returned
          cases returned
      | ok middle =>
          rw [first] at returned
          exact .cons first (inductionHypothesis returned)

/-- How many iterations of a loop start before it ends or aborts. -/
def iterations
    (body : State → Label → Except Error State) :
    State → List Label → Nat
  | _, [] => 0
  | state, item :: rest =>
      match body state item with
      | .ok next => iterations body next rest + 1
      | .error _ => 1

/-- A loop that returns started all its iterations. -/
theorem iterations_of_ok
    {body : State → Label → Except Error State}
    {items : List Label}
    {before after : State}
    (returned : items.foldlM body before = .ok after) :
    iterations body before items = items.length := by
  have looped := run_of_foldlM returned
  clear returned
  induction looped with
  | nil state =>
      rfl
  | cons first rest inductionHypothesis =>
      have returned : body _ _ = .ok _ := first
      rw [iterations, returned, List.length_cons, ← inductionHypothesis]

/--
A loop starts at most `bound` iterations when it has no more, or when one of
the first `bound` aborts.
-/
theorem iterations_le_iff
    {body : State → Label → Except Error State}
    {items : List Label}
    {state : State}
    {bound : Nat} :
    iterations body state items ≤ bound ↔
      items.length ≤ bound ∨
        ∃ fault, (items.take bound).foldlM body state = .error fault := by
  induction items generalizing state bound with
  | nil =>
      simp [iterations]
  | cons item rest inductionHypothesis =>
      cases bound with
      | zero =>
          refine iff_of_false ?_ ?_
          · unfold iterations
            split <;> simp
          · rintro (none | ⟨fault, aborted⟩)
            · simp at none
            · cases aborted
      | succ bound =>
          rw [iterations, List.take_succ_cons, List.foldlM_cons]
          cases body state item with
          | ok next =>
              change iterations body next rest + 1 ≤ bound + 1 ↔
                rest.length + 1 ≤ bound + 1 ∨
                  ∃ fault, (rest.take bound).foldlM body next = .error fault
              rw [Nat.succ_le_succ_iff, Nat.succ_le_succ_iff,
                inductionHypothesis]
          | error fault =>
              exact iff_of_true (Nat.succ_le_succ (Nat.zero_le bound))
                (.inr ⟨fault, rfl⟩)

/-- A loop that cannot abort is a run of its body. -/
theorem run_of_foldl
    (body : State → Label → State)
    (items : List Label)
    (state : State) :
    Run (fun before item after => body before item = after)
      state items (items.foldl body state) := by
  induction items generalizing state with
  | nil =>
      exact .nil state
  | cons item rest inductionHypothesis =>
      exact .cons rfl (inductionHypothesis (body state item))

/-! ## What a run is observed to do -/

variable {Observation : Type*}

/-- The observations that the steps of a run make, in execution order. -/
def observed
    (step : State → Label → Except Error State)
    (observe : State → Label → Option Observation) :
    State → List Label → List Observation
  | _, [] => []
  | state, label :: rest =>
      (observe state label).toList ++
        match step state label with
        | .ok next => observed step observe next rest
        | .error _ => []

/--
An invariant that depends on the last observation.  A step that makes none
keeps the earlier one.
-/
theorem Run.lastObserved
    {step : State → Label → Except Error State}
    {condition : State → Label → Prop}
    {observe : State → Label → Option Observation}
    {before after : State}
    {labels : List Label}
    {last : Option Observation}
    (inv : State → Option Observation → Prop)
    (stepwise :
      ∀ {state label next last},
        inv state last →
        condition state label →
        step state label = .ok next →
        inv next ((observe state label).or last))
    (run : Run (guarded condition (ofPartial step)) before labels after)
    (holds : inv before last) :
    inv after ((observed step observe before labels).getLast?.or last) := by
  induction run generalizing last with
  | nil state =>
      exact holds
  | @cons before middle after label labels first rest inductionHypothesis =>
      have stepped : step before label = .ok middle := first.2
      have later := inductionHypothesis (stepwise holds first.1 stepped)
      rw [observed, stepped, List.getLast?_append]
      cases seen : observe before label with
      | none =>
          rw [seen] at later
          simpa using later
      | some observation =>
          rw [seen] at later
          cases ahead : (observed step observe middle labels).getLast? with
          | none =>
              rw [ahead] at later
              simpa [ahead] using later
          | some final =>
              rw [ahead] at later
              simpa [ahead] using later

/-- A step for an observation, and none when there is none. -/
def stuttering
    {AbstractState : Type*}
    (abstractStep : AbstractState → Observation → AbstractState → Prop) :
    AbstractState → Option Observation → AbstractState → Prop
  | before, none, after => before = after
  | before, some observation, after => abstractStep before observation after

/--
The refinement rule for steps that may do nothing to the abstract state: what a
run is observed to do is an abstract run.
-/
theorem Run.refines
    {AbstractState : Type*}
    {abstractStep : AbstractState → Observation → AbstractState → Prop}
    {step : State → Label → Except Error State}
    {observe : State → Label → Option Observation}
    (related : State → AbstractState → Prop)
    (simulation :
      ∀ {before label after abstract},
        related before abstract →
        step before label = .ok after →
        ∃ next,
          stuttering abstractStep abstract (observe before label) next ∧
            related after next)
    {before after : State}
    {labels : List Label}
    {abstract : AbstractState}
    (run : Run (ofPartial step) before labels after)
    (holds : related before abstract) :
    ∃ final,
      Run abstractStep abstract (observed step observe before labels) final ∧
        related after final := by
  induction run generalizing abstract with
  | nil state =>
      exact ⟨abstract, .nil abstract, holds⟩
  | @cons before middle after label labels first rest inductionHypothesis =>
      have stepped : step before label = .ok middle := first
      obtain ⟨next, abstractFirst, nextHolds⟩ := simulation holds stepped
      obtain ⟨final, abstractRest, finalHolds⟩ := inductionHypothesis nextHolds
      rw [observed, stepped]
      cases seen : observe before label with
      | none =>
          rw [seen] at abstractFirst
          cases abstractFirst
          exact ⟨final, abstractRest, finalHolds⟩
      | some observation =>
          rw [seen] at abstractFirst
          exact ⟨final, .cons abstractFirst abstractRest, finalHolds⟩

end Pma.Transition
