import Mathlib.Logic.Basic

namespace Pma

/-!
# Aborting computations

A failed `assert` stops the daemon, and so does a dereference of a null
pointer.  Both end the run: a modelled function returns `Except Fault`, and the
`Fault` says which assertion failed.
-/

/-- The `assert`s of the modelled functions, named after where they stand. -/
inductive AssertSite where
  | lsdbRouterAddZero
  | lsdbRouterAddPresent
  | lsdbRouterUpdateZero
  | lsdbLinkStateAddZero
  | lsdbLinkStateAddPresent
  | lsdbLinkStateUpdateZero
  | linkStateCompare
  | deadTimerHigh
  | deadTimerLow
  | exchangeSendStartMaster
  | exchangeSendStartState
  | exchangeTerminateMaster
  | exchangePktReceivedMaster
  | ackTimeExcceed
  | floodSpreadNeighbor
  | floodStart
  deriving Repr, DecidableEq

/-- The ways a modelled function stops the daemon. -/
inductive Fault where
  /-- An `assert` failed. -/
  | assertFailed (site : AssertSite)
  /-- A null pointer was dereferenced. -/
  | nullPointer
  /-- An uninitialised, mistyped or out-of-range pointer was dereferenced. -/
  | wildPointer
  deriving Repr, DecidableEq

/-- `assert(condition)` at `site`. -/
def assertAt (site : AssertSite) (condition : Bool) : Except Fault Unit :=
  if condition then .ok () else .error (.assertFailed site)

/-- Dereference a pointer that may be null. -/
def deref {α : Type} : Option α → Except Fault α
  | some value => .ok value
  | none => .error .nullPointer

theorem assertAt_eq_ok
    {site : AssertSite}
    {condition : Bool}
    {result : Unit} :
    assertAt site condition = .ok result ↔ condition = true := by
  unfold assertAt
  split <;> simp_all

theorem deref_eq_ok
    {α : Type}
    {pointer : Option α}
    {value : α} :
    deref pointer = .ok value ↔ pointer = some value := by
  cases pointer <;> simp [deref]

/-- What follows the dereference of a pointer that is not null. -/
theorem deref_some_bind
    {α β : Type}
    (value : α)
    (next : α → Except Fault β) :
    (deref (some value) >>= next) = next value :=
  rfl

/-- A sequence of two computations returns when both do. -/
theorem bind_eq_ok
    {α β ε : Type}
    {first : Except ε α}
    {next : α → Except ε β}
    {result : β} :
    (first >>= next) = .ok result ↔
      ∃ value, first = .ok value ∧ next value = .ok result := by
  cases first with
  | error fault =>
      simp [bind, Except.bind]
  | ok value =>
      simp [bind, Except.bind]

/--
A computation that returns only values satisfying `post` and aborts only with
faults that are `allowed`.
-/
def Yields
    {α ε : Type}
    (allowed : ε → Prop)
    (post : α → Prop) :
    Except ε α → Prop
  | .ok value => post value
  | .error fault => allowed fault

namespace Yields

variable {α β ε : Type} {allowed : ε → Prop}

/-- What a yielding computation returns satisfies its postcondition. -/
theorem of_ok
    {post : α → Prop}
    {computation : Except ε α}
    {value : α}
    (yields : Yields allowed post computation)
    (returned : computation = .ok value) :
    post value := by
  subst returned
  exact yields

/-- What a yielding computation aborts with is allowed. -/
theorem of_error
    {post : α → Prop}
    {computation : Except ε α}
    {fault : ε}
    (yields : Yields allowed post computation)
    (aborted : computation = .error fault) :
    allowed fault := by
  subst aborted
  exact yields

/-- The consequence rule. -/
theorem mono
    {post weaker : α → Prop}
    {computation : Except ε α}
    (yields : Yields allowed post computation)
    (weaken : ∀ value, post value → weaker value) :
    Yields allowed weaker computation := by
  cases computation with
  | ok value =>
      exact weaken value yields
  | error fault =>
      exact yields

/-- The rule of sequencing. -/
theorem bind
    {middle : α → Prop}
    {post : β → Prop}
    {first : Except ε α}
    {next : α → Except ε β}
    (earlier : Yields allowed middle first)
    (later : ∀ value, middle value → Yields allowed post (next value)) :
    Yields allowed post (first >>= next) := by
  cases first with
  | ok value =>
      exact later value earlier
  | error fault =>
      exact earlier

/-- A loop yields what a reflexive, transitive relation of its body yields. -/
theorem foldlM
    {State Item : Type}
    {relation : State → State → Prop}
    {body : State → Item → Except ε State}
    (reflexive : ∀ state, relation state state)
    (transitive :
      ∀ {first second third},
        relation first second →
        relation second third →
        relation first third)
    (stepwise :
      ∀ state item, Yields allowed (relation state) (body state item))
    (items : List Item)
    (state : State) :
    Yields allowed (relation state) (items.foldlM body state) := by
  induction items generalizing state with
  | nil =>
      exact reflexive state
  | cons item rest inductionHypothesis =>
      rw [List.foldlM_cons]
      apply bind (stepwise state item)
      intro middle first
      exact (inductionHypothesis middle).mono
        fun _ later => transitive first later

end Yields

/-- `assert` aborts only when its condition fails. -/
theorem Yields.assertAt
    {allowed : Fault → Prop}
    {site : AssertSite}
    {condition : Bool}
    (covered : condition = false → allowed (.assertFailed site)) :
    Yields allowed (fun _ => condition = true)
      (Pma.assertAt site condition) := by
  cases condition with
  | true =>
      rfl
  | false =>
      exact covered rfl

/-- A dereference aborts only on a null pointer. -/
theorem Yields.deref
    {α : Type}
    {allowed : Fault → Prop}
    {pointer : Option α}
    (covered : pointer = none → allowed .nullPointer) :
    Yields allowed (fun value => pointer = some value)
      (Pma.deref pointer) := by
  cases pointer with
  | none =>
      exact covered rfl
  | some value =>
      rfl

end Pma
