import Mathlib.Data.List.Forall2

namespace Pma.Loops

/-!
# Loops that may fail

A loop of a program with faults is a `List.foldlM` in `Except`.  The rules below
take such loops apart, carry an invariant along them, find the pass in which
they fail, and compare two of them pass by pass.  Nothing here mentions a
particular program.
-/

variable {State Item Error : Type*}

/-! ## Sequencing -/

theorem bind_eq_ok
    {Value Result : Type*}
    {first : Except Error Value}
    {next : Value → Except Error Result}
    {result : Result} :
    first.bind next = .ok result ↔
      ∃ value, first = .ok value ∧ next value = .ok result := by
  cases first with
  | error fault =>
      exact iff_of_false (fun ends => nomatch ends) fun ⟨_, ends, _⟩ => nomatch ends
  | ok value =>
      constructor
      · exact fun ends => ⟨value, rfl, ends⟩
      · rintro ⟨_, ⟨⟩, ends⟩
        exact ends

theorem bind_eq_error
    {Value Result : Type*}
    {first : Except Error Value}
    {next : Value → Except Error Result}
    {fault : Error} :
    first.bind next = .error fault ↔
      first = .error fault ∨ ∃ value, first = .ok value ∧ next value = .error fault := by
  cases first with
  | error other =>
      constructor
      · rintro ⟨⟩
        exact .inl rfl
      · rintro (⟨⟨⟩⟩ | ⟨_, ends, _⟩)
        · rfl
        · exact nomatch ends
  | ok value =>
      constructor
      · exact fun fails => .inr ⟨value, rfl, fails⟩
      · rintro (same | ⟨_, ⟨⟩, fails⟩)
        · exact nomatch same
        · exact fails

theorem map_eq_ok
    {Value Result : Type*}
    {first : Except Error Value}
    {function : Value → Result}
    {result : Result} :
    first.map function = .ok result ↔
      ∃ value, first = .ok value ∧ function value = result := by
  cases first with
  | error fault =>
      exact iff_of_false (fun ends => nomatch ends) fun ⟨_, ends, _⟩ => nomatch ends
  | ok value =>
      constructor
      · rintro ⟨⟩
        exact ⟨value, rfl, rfl⟩
      · rintro ⟨_, ⟨⟩, rfl⟩
        rfl

theorem mapError_eq_ok
    {Value Other : Type*}
    {first : Except Error Value}
    {rename : Error → Other}
    {value : Value} :
    first.mapError rename = .ok value ↔ first = .ok value := by
  cases first with
  | error fault =>
      exact iff_of_false (fun ends => nomatch ends) (fun ends => nomatch ends)
  | ok other =>
      exact ⟨fun ends => congrArg _ (Except.ok.inj ends),
        fun ends => congrArg _ (Except.ok.inj ends)⟩

theorem toOption_eq_some
    {Value : Type*}
    {computed : Except Error Value}
    {value : Value} :
    computed.toOption = some value ↔ computed = .ok value := by
  cases computed with
  | error fault =>
      exact iff_of_false (fun ends => nomatch ends) (fun ends => nomatch ends)
  | ok other =>
      exact ⟨fun ends => congrArg _ (Option.some.inj ends),
        fun ends => congrArg _ (Except.ok.inj ends)⟩

theorem map_eq_error
    {Value Result : Type*}
    {first : Except Error Value}
    {function : Value → Result}
    {fault : Error} :
    first.map function = .error fault ↔ first = .error fault := by
  cases first with
  | error other =>
      constructor
      · rintro ⟨⟩
        rfl
      · rintro ⟨⟩
        rfl
  | ok value =>
      exact iff_of_false (fun fails => nomatch fails) fun fails => nomatch fails

theorem exists_ok
    {Value : Type*}
    {computed : Except Error Value}
    (ends : computed.toOption.isSome = true) :
    ∃ value, computed = .ok value := by
  cases computed with
  | error fault =>
      cases ends
  | ok value =>
      exact ⟨value, rfl⟩

/-- A loop that makes a list has made each of its members. -/
theorem mapM_eq_ok
    {Value : Type*}
    {function : Item → Except Error Value}
    {items : List Item}
    {values : List Value} :
    items.mapM function = .ok values ↔
      List.Forall₂ (fun item value => function item = .ok value) items values := by
  induction items generalizing values with
  | nil =>
      rw [List.mapM_nil, List.forall₂_nil_left_iff]
      exact ⟨fun ends => (Except.ok.inj ends).symm, fun same => same ▸ rfl⟩
  | cons item rest inductionHypothesis =>
      rw [List.mapM_cons, List.forall₂_cons_left_iff]
      constructor
      · intro ends
        obtain ⟨value, first, ends⟩ := bind_eq_ok.mp ends
        obtain ⟨others, later, ends⟩ := bind_eq_ok.mp ends
        cases ends
        exact ⟨value, others, first, inductionHypothesis.mp later, rfl⟩
      · rintro ⟨value, others, first, later, rfl⟩
        exact bind_eq_ok.mpr
          ⟨value, first, bind_eq_ok.mpr ⟨others, inductionHypothesis.mpr later, rfl⟩⟩

/-- A loop without a result ends if all its passes do. -/
theorem forM_eq_ok
    {function : Item → Except Error PUnit}
    {items : List Item} :
    forM items function = .ok ⟨⟩ ↔ ∀ item ∈ items, function item = .ok ⟨⟩ := by
  induction items with
  | nil =>
      exact iff_of_true rfl fun _ member => absurd member List.not_mem_nil
  | cons item rest inductionHypothesis =>
      rw [List.forM_cons, List.forall_mem_cons, ← inductionHypothesis]
      constructor
      · intro ends
        obtain ⟨_, first, later⟩ := bind_eq_ok.mp ends
        exact ⟨first, later⟩
      · rintro ⟨first, later⟩
        exact bind_eq_ok.mpr ⟨_, first, later⟩

/-- What a list was made from, and what was made of it. -/
theorem exists_of_forall₂
    {Value : Type*}
    {related : Item → Value → Prop}
    {items : List Item}
    {values : List Value}
    (pairs : List.Forall₂ related items values) :
    (∀ item ∈ items, ∃ value ∈ values, related item value) ∧
      ∀ value ∈ values, ∃ item ∈ items, related item value := by
  induction pairs with
  | nil =>
      exact ⟨fun _ member => absurd member List.not_mem_nil,
        fun _ member => absurd member List.not_mem_nil⟩
  | cons first _ inductionHypothesis =>
      constructor
      · intro item member
        rcases List.mem_cons.mp member with rfl | later
        · exact ⟨_, List.mem_cons_self, first⟩
        · obtain ⟨value, inside, relates⟩ := inductionHypothesis.1 item later
          exact ⟨value, List.mem_cons_of_mem _ inside, relates⟩
      · intro value member
        rcases List.mem_cons.mp member with rfl | later
        · exact ⟨_, List.mem_cons_self, first⟩
        · obtain ⟨item, inside, relates⟩ := inductionHypothesis.2 value later
          exact ⟨item, List.mem_cons_of_mem _ inside, relates⟩

/-! ## Invariants -/

/-- What every pass keeps, the loop keeps. -/
theorem foldlM_invariant
    {step : State → Item → Except Error State}
    {items : List Item}
    {before after : State}
    (invariant : State → Prop)
    (preserved :
      ∀ state item next,
        item ∈ items → invariant state → step state item = .ok next → invariant next)
    (start : invariant before)
    (ends : items.foldlM step before = .ok after) :
    invariant after := by
  induction items generalizing before with
  | nil =>
      cases ends
      exact start
  | cons item rest inductionHypothesis =>
      rw [List.foldlM_cons] at ends
      obtain ⟨middle, first, later⟩ := bind_eq_ok.mp ends
      exact inductionHypothesis
        (fun state other next member =>
          preserved state other next (List.mem_cons_of_mem _ member))
        (preserved before item middle List.mem_cons_self start first) later

/-- A loop ends if every pass ends and keeps what the next one needs. -/
theorem foldlM_ends
    {step : State → Item → Except Error State}
    {items : List Item}
    {before : State}
    (invariant : State → Prop)
    (goesOn :
      ∀ state,
        ∀ item ∈ items,
          invariant state → ∃ next, step state item = .ok next ∧ invariant next)
    (start : invariant before) :
    ∃ after, items.foldlM step before = .ok after ∧ invariant after := by
  induction items generalizing before with
  | nil =>
      exact ⟨before, rfl, start⟩
  | cons item rest inductionHypothesis =>
      obtain ⟨middle, first, kept⟩ := goesOn before item List.mem_cons_self start
      obtain ⟨after, later, keptAfter⟩ := inductionHypothesis
        (fun state other member => goesOn state other (List.mem_cons_of_mem _ member)) kept
      refine ⟨after, ?_, keptAfter⟩
      rw [List.foldlM_cons, first]
      exact later

/-! ## Counted loops -/

section Counted

variable {step : State → Nat → Except Error State} {before after : State}

theorem foldlM_range_succ
    (step : State → Nat → Except Error State)
    (before : State)
    (m : Nat) :
    (List.range (m + 1)).foldlM step before =
      ((List.range m).foldlM step before).bind fun state => step state m := by
  rw [List.range_succ, List.foldlM_append]
  change Except.bind _ (fun state => [m].foldlM step state) = _
  congr 1
  funext state
  rw [List.foldlM_cons]
  exact bind_pure _

/-- A loop that comes to its end has come to every pass before. -/
theorem foldlM_range_of_le
    {k m : Nat}
    (fewer : k ≤ m)
    (ends : (List.range m).foldlM step before = .ok after) :
    ∃ state, (List.range k).foldlM step before = .ok state := by
  induction fewer generalizing after with
  | refl =>
      exact ⟨after, ends⟩
  | step _ inductionHypothesis =>
      rw [foldlM_range_succ] at ends
      obtain ⟨state, earlier, -⟩ := bind_eq_ok.mp ends
      exact inductionHypothesis earlier

/-- A loop that fails has come to a pass that fails. -/
theorem foldlM_range_error
    {m : Nat}
    {fault : Error}
    (fails : (List.range m).foldlM step before = .error fault) :
    ∃ k < m, ∃ state,
      (List.range k).foldlM step before = .ok state ∧ step state k = .error fault := by
  induction m with
  | zero =>
      cases fails
  | succ m inductionHypothesis =>
      rw [foldlM_range_succ] at fails
      rcases bind_eq_error.mp fails with earlier | ⟨state, reached, last⟩
      · obtain ⟨k, inside, found⟩ := inductionHypothesis earlier
        exact ⟨k, Nat.lt_succ_of_lt inside, found⟩
      · exact ⟨m, Nat.lt_succ_self m, state, reached, last⟩

end Counted

/-! ## Two loops side by side -/

/-- Two computations end in states that are related, or with faults that are. -/
inductive Agrees
    {Abstract Failure : Type*}
    (related : State → Abstract → Prop)
    (same : Error → Failure → Prop) :
    Except Error State → Except Failure Abstract → Prop where
  | ok
      {state : State}
      {abstract : Abstract}
      (ends : related state abstract) :
      Agrees related same (.ok state) (.ok abstract)
  | error
      {fault : Error}
      {failure : Failure}
      (fails : same fault failure) :
      Agrees related same (.error fault) (.error failure)

namespace Agrees

variable
  {Abstract Failure : Type*}
  {related : State → Abstract → Prop}
  {same : Error → Failure → Prop}

/-- Two computations that are the same end the same. -/
theorem refl
    (computed : Except Error State) :
    Agrees (· = ·) (· = ·) computed computed := by
  cases computed with
  | error fault =>
      exact .error rfl
  | ok state =>
      exact .ok rfl

/-- What follows has to agree only at states that both come to. -/
theorem bind_reached
    {Result AbstractResult : Type*}
    {relatedAfter : Result → AbstractResult → Prop}
    {first : Except Error State}
    {abstractFirst : Except Failure Abstract}
    {next : State → Except Error Result}
    {abstractNext : Abstract → Except Failure AbstractResult}
    (agrees : Agrees related same first abstractFirst)
    (agreesNext :
      ∀ state abstract,
        first = .ok state →
        abstractFirst = .ok abstract →
        related state abstract →
        Agrees relatedAfter same (next state) (abstractNext abstract)) :
    Agrees relatedAfter same (first.bind next) (abstractFirst.bind abstractNext) := by
  cases agrees with
  | ok ends =>
      exact agreesNext _ _ rfl rfl ends
  | error fails =>
      exact .error fails

theorem bind
    {Result AbstractResult : Type*}
    {relatedAfter : Result → AbstractResult → Prop}
    {first : Except Error State}
    {abstractFirst : Except Failure Abstract}
    {next : State → Except Error Result}
    {abstractNext : Abstract → Except Failure AbstractResult}
    (agrees : Agrees related same first abstractFirst)
    (agreesNext :
      ∀ state abstract,
        related state abstract →
        Agrees relatedAfter same (next state) (abstractNext abstract)) :
    Agrees relatedAfter same (first.bind next) (abstractFirst.bind abstractNext) :=
  agrees.bind_reached fun state abstract _ _ => agreesNext state abstract

theorem map
    {Result AbstractResult : Type*}
    {relatedAfter : Result → AbstractResult → Prop}
    {first : Except Error State}
    {abstractFirst : Except Failure Abstract}
    {function : State → Result}
    {abstractFunction : Abstract → AbstractResult}
    (agrees : Agrees related same first abstractFirst)
    (relates :
      ∀ state abstract,
        related state abstract →
        relatedAfter (function state) (abstractFunction abstract)) :
    Agrees relatedAfter same (first.map function) (abstractFirst.map abstractFunction) := by
  cases agrees with
  | ok ends =>
      exact .ok (relates _ _ ends)
  | error fails =>
      exact .error fails

/-- Loops agree if their passes do. -/
theorem foldlM
    {step : State → Item → Except Error State}
    {abstractStep : Abstract → Item → Except Failure Abstract}
    {items : List Item}
    {state : State}
    {abstract : Abstract}
    (agrees :
      ∀ state abstract,
        ∀ item ∈ items,
          related state abstract →
          Agrees related same (step state item) (abstractStep abstract item))
    (start : related state abstract) :
    Agrees related same (items.foldlM step state) (items.foldlM abstractStep abstract) := by
  induction items generalizing state abstract with
  | nil =>
      exact .ok start
  | cons item rest inductionHypothesis =>
      rw [List.foldlM_cons, List.foldlM_cons]
      refine bind (agrees state abstract item List.mem_cons_self start) ?_
      intro next abstractNext relatedNext
      exact inductionHypothesis
        (fun state abstract other member =>
          agrees state abstract other (List.mem_cons_of_mem _ member))
        relatedNext

/-- Counted loops agree if their passes do at states that both loops come to. -/
theorem foldlM_range
    {step : State → Nat → Except Error State}
    {abstractStep : Abstract → Nat → Except Failure Abstract}
    {state : State}
    {abstract : Abstract}
    {n : Nat}
    (agrees :
      ∀ k < n,
        ∀ reached abstractReached,
          (List.range k).foldlM step state = .ok reached →
          (List.range k).foldlM abstractStep abstract = .ok abstractReached →
          related reached abstractReached →
          Agrees related same (step reached k) (abstractStep abstractReached k))
    (start : related state abstract) :
    Agrees related same
      ((List.range n).foldlM step state) ((List.range n).foldlM abstractStep abstract) := by
  induction n with
  | zero =>
      exact .ok start
  | succ n inductionHypothesis =>
      rw [foldlM_range_succ, foldlM_range_succ]
      exact (inductionHypothesis fun k inside =>
        agrees k (Nat.lt_succ_of_lt inside)).bind_reached (agrees n (Nat.lt_succ_self n))

/-- What the abstract computation ends in is related to the end of the other. -/
theorem of_ok
    {first : Except Error State}
    {abstractFirst : Except Failure Abstract}
    {abstract : Abstract}
    (agrees : Agrees related same first abstractFirst)
    (ends : abstractFirst = .ok abstract) :
    ∃ state, first = .ok state ∧ related state abstract := by
  cases agrees with
  | ok relatedEnd =>
      cases ends
      exact ⟨_, rfl, relatedEnd⟩
  | error _ =>
      cases ends

/-- And the other way. -/
theorem to_ok
    {first : Except Error State}
    {abstractFirst : Except Failure Abstract}
    {state : State}
    (agrees : Agrees related same first abstractFirst)
    (ends : first = .ok state) :
    ∃ abstract, abstractFirst = .ok abstract ∧ related state abstract := by
  cases agrees with
  | ok relatedEnd =>
      cases ends
      exact ⟨_, rfl, relatedEnd⟩
  | error _ =>
      cases ends

end Agrees

end Pma.Loops
