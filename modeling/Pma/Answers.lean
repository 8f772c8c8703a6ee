import Mathlib.Logic.Basic

namespace Pma.Answers

/-!
# Components that answer their inputs

A component has a state and answers each input; it may fail.  A reference answers
the same inputs and never fails.  Where a component answers like its reference in
each step that meets a condition, it does so in every run whose steps all meet it.
-/

variable {State Ref Input Output : Type*}

/-- The last state and the answers of a component. -/
def answers (step : State → Input → Option (State × Output)) :
    State → List Input → Option (State × List Output)
  | state, [] => some (state, [])
  | state, input :: rest =>
      match step state input with
      | none => none
      | some (next, output) =>
          (answers step next rest).map fun last => (last.1, output :: last.2)

/-- The last state and the answers of a reference. -/
def expected (step : Ref → Input → Ref × Output) : Ref → List Input → Ref × List Output
  | ref, [] => (ref, [])
  | ref, input :: rest =>
      let (next, output) := step ref input
      let (last, outputs) := expected step next rest
      (last, output :: outputs)

/-- A condition on each step of a component, run beside its reference. -/
def Along (condition : State → Ref → Input → Prop)
    (step : State → Input → Option (State × Output)) (refStep : Ref → Input → Ref × Output) :
    State → Ref → List Input → Prop
  | _, _, [] => True
  | state, ref, input :: rest =>
      condition state ref input ∧
        ∀ answer ∈ step state input,
          Along condition step refStep answer.1 (refStep ref input).1 rest

/-- A condition that can be decided in each step can be decided along a run. -/
def decidableAlong
    {condition : State → Ref → Input → Prop}
    (step : State → Input → Option (State × Output))
    (refStep : Ref → Input → Ref × Output)
    (decides : ∀ state ref input, Decidable (condition state ref input)) :
    ∀ state ref inputs, Decidable (Along condition step refStep state ref inputs)
  | _, _, [] => isTrue trivial
  | state, ref, input :: rest =>
      have := decides state ref input
      have := fun next => decidableAlong step refStep decides next (refStep ref input).1 rest
      inferInstanceAs (Decidable (condition state ref input ∧
        ∀ answer ∈ step state input,
          Along condition step refStep answer.1 (refStep ref input).1 rest))

instance
    {condition : State → Ref → Input → Prop}
    {step : State → Input → Option (State × Output)}
    {refStep : Ref → Input → Ref × Output}
    [decides : ∀ state ref input, Decidable (condition state ref input)]
    {state : State}
    {ref : Ref}
    {inputs : List Input} :
    Decidable (Along condition step refStep state ref inputs) :=
  decidableAlong step refStep decides state ref inputs

theorem answers_cons
    (step : State → Input → Option (State × Output))
    (state : State)
    (input : Input)
    (rest : List Input) :
    answers step state (input :: rest) =
      (step state input).bind fun next =>
        (answers step next.1 rest).map fun last => (last.1, next.2 :: last.2) := by
  cases first : step state input with
  | none =>
      simp only [answers, first, Option.bind_none]
  | some next =>
      simp only [answers, first, Option.bind_some]

/-- A run may be taken apart between two inputs. -/
theorem answers_append
    {step : State → Input → Option (State × Output)}
    (state : State)
    (first second : List Input) :
    answers step state (first ++ second) =
      (answers step state first).bind fun middle =>
        (answers step middle.1 second).map fun last => (last.1, middle.2 ++ last.2) := by
  induction first generalizing state with
  | nil =>
      simp [answers]
  | cons input rest inductionHypothesis =>
      rw [List.cons_append, answers_cons, answers_cons]
      cases step state input with
      | none =>
          rfl
      | some next =>
          simp only [Option.bind_some, inductionHypothesis, Option.map_eq_bind, Option.bind_assoc,
            Function.comp_def, List.cons_append]

/-- A component that answers like its reference in each step does so in a run. -/
theorem answers_eq_expected
    {condition : State → Ref → Input → Prop}
    {step : State → Input → Option (State × Output)}
    {refStep : Ref → Input → Ref × Output}
    (related : State → Ref → Prop)
    {inputs : List Input}
    {state : State}
    {ref : Ref}
    (start : related state ref)
    (along : Along condition step refStep state ref inputs)
    (stepwise : ∀ state ref input,
      related state ref → condition state ref input →
        ∃ next,
          step state input = some (next, (refStep ref input).2) ∧
            related next (refStep ref input).1) :
    ∃ last,
      answers step state inputs = some (last, (expected refStep ref inputs).2) ∧
        related last (expected refStep ref inputs).1 := by
  induction inputs generalizing state ref with
  | nil =>
      exact ⟨state, rfl, start⟩
  | cons input rest inductionHypothesis =>
      obtain ⟨meets, later⟩ := along
      obtain ⟨next, first, still⟩ := stepwise state ref input start meets
      obtain ⟨last, outputs, atEnd⟩ := inductionHypothesis still (later _ first)
      refine ⟨last, ?_, atEnd⟩
      simp only [answers, first, outputs, Option.map_some, expected]

end Pma.Answers
