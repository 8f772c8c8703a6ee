import Mathlib.Data.List.Nodup
import Pma.Transition

namespace Pma.Fifo

open Transition

/-!
# First come, first served

Items are put into a queue and taken from it by takers.  A store holds the items
that wait and all that were ever put, each of which is put once.  What was taken,
with what waits behind it, is what was put, in the same order.
-/

variable {Item Taker : Type*}

/-- An item is put or taken. -/
inductive Event (Item Taker : Type*) where
  | put (item : Item)
  | take (taker : Taker) (item : Item)
  deriving Repr, DecidableEq

namespace Event

/-- The item of a put. -/
def put? : Event Item Taker → Option Item
  | .put item => some item
  | .take _ _ => none

/-- The taker and the item of a take. -/
def take? : Event Item Taker → Option (Taker × Item)
  | .put _ => none
  | .take taker item => some (taker, item)

end Event

/-- The items that were put, in their order. -/
def puts (history : List (Event Item Taker)) : List Item :=
  history.filterMap Event.put?

/-- The items that were taken and by whom, in their order. -/
def takes (history : List (Event Item Taker)) : List (Taker × Item) :=
  history.filterMap Event.take?

theorem mem_takes
    {history : List (Event Item Taker)}
    {taker : Taker}
    {item : Item} :
    (taker, item) ∈ takes history ↔ .take taker item ∈ history := by
  unfold takes
  rw [List.mem_filterMap]
  constructor
  · rintro ⟨event, member, isTake⟩
    cases event with
    | put other =>
        cases isTake
    | take other otherItem =>
        cases isTake
        exact member
  · intro member
    exact ⟨.take taker item, member, rfl⟩

/-- All items ever put, and those that wait. -/
structure Store (Item : Type*) where
  accepted : List Item
  waiting : List Item

/-- A new item goes to the end, and the first one is taken. -/
inductive Step : Store Item → Event Item Taker → Store Item → Prop where
  | put
      {store : Store Item}
      {item : Item}
      (new : item ∉ store.accepted) :
      Step store (.put item) ⟨store.accepted ++ [item], store.waiting ++ [item]⟩
  | take
      {accepted rest : List Item}
      {taker : Taker}
      {item : Item} :
      Step ⟨accepted, item :: rest⟩ (.take taker item) ⟨accepted, rest⟩

/-- Nothing was put yet. -/
def Store.empty : Store Item :=
  ⟨[], []⟩

section

variable {before after : Store Item} {history : List (Event Item Taker)}

theorem accepted_run
    (run : Run Step before history after) :
    after.accepted = before.accepted ++ puts history := by
  induction run with
  | nil store =>
      exact (List.append_nil _).symm
  | cons first rest inductionHypothesis =>
      rw [inductionHypothesis]
      cases first with
      | put new =>
          exact List.append_assoc ..
      | take =>
          rfl

/-- Items leave in the order in which they came. -/
theorem waiting_run
    (run : Run Step before history after) :
    before.waiting ++ puts history = (takes history).map Prod.snd ++ after.waiting := by
  induction run with
  | nil store =>
      exact List.append_nil _
  | cons first rest inductionHypothesis =>
      cases first with
      | put new =>
          exact (List.append_assoc ..).symm.trans inductionHypothesis
      | take =>
          exact congrArg (List.cons _) inductionHypothesis

theorem nodup_run
    (run : Run Step before history after)
    (distinct : before.accepted.Nodup) :
    after.accepted.Nodup := by
  induction run with
  | nil store =>
      exact distinct
  | cons first rest inductionHypothesis =>
      apply inductionHypothesis
      cases first with
      | put new =>
          exact List.nodup_append_comm.mp (List.nodup_cons.mpr ⟨new, distinct⟩)
      | take =>
          exact distinct

end

/-! ## From an empty store -/

section

variable {after : Store Item} {history : List (Event Item Taker)}

/-- What was put was taken, in that order, or waits. -/
theorem puts_eq
    (run : Run Step .empty history after) :
    puts history = (takes history).map Prod.snd ++ after.waiting :=
  waiting_run run

theorem nodup_puts
    (run : Run Step .empty history after) :
    (puts history).Nodup := by
  have accepted := accepted_run run
  rw [show puts history = after.accepted from accepted.symm]
  exact nodup_run run List.nodup_nil

/-- An item that was put and does not wait was taken, by one taker and no other. -/
theorem taken_once
    (run : Run Step .empty history after)
    {item : Item}
    (member : item ∈ puts history)
    (left : item ∉ after.waiting) :
    ∃! taker, .take taker item ∈ history := by
  have order := puts_eq run
  have distinct := nodup_puts run
  rw [order] at member distinct
  have taken := (List.mem_append.mp member).resolve_right left
  obtain ⟨⟨taker, item⟩, isTaken, rfl⟩ := List.mem_map.mp taken
  refine ⟨taker, mem_takes.mp isTaken, ?_⟩
  intro other alsoTaken
  have same := List.inj_on_of_nodup_map (List.nodup_append.mp distinct).1
    (mem_takes.mpr alsoTaken) isTaken rfl
  exact congrArg Prod.fst same

/-- An item that waits was taken by nobody. -/
theorem not_taken
    (run : Run Step .empty history after)
    {item : Item}
    (waits : item ∈ after.waiting)
    (taker : Taker) :
    .take taker item ∉ history := by
  intro taken
  have distinct := nodup_puts run
  rw [puts_eq run] at distinct
  have member : item ∈ (takes history).map Prod.snd :=
    List.mem_map.mpr ⟨(taker, item), mem_takes.mpr taken, rfl⟩
  exact (List.disjoint_of_nodup_append distinct) member waits

end

end Pma.Fifo
