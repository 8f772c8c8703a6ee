import Mathlib.Data.Option.Basic
import Pma.Loops

namespace Pma.Control

/-!
# Dispatch tables

All packets are dispatched through a `struct ctl`, two arrays of one length with
the handlers and whether they are enabled.  A table is compared here with what it
is for: a partial map from the types of packets to their handlers.
-/

/-- What goes wrong in a function of `control.c`. -/
inductive Fault where
  /-- An access behind the last element of an array. -/
  | outOfBounds
  /-- The call of a handler that was never set. -/
  | nullHandler
  deriving Repr, DecidableEq

/-- `struct ctl`; `length` is the size in the type. -/
structure Ctl (Trigger : Type*) (length : Nat) where
  id : Vector (Option Trigger) length
  flag : Vector Int length

section

variable {Trigger Args World : Type*} {length : Nat}

/-- `create_ctl`: `calloc` clears both arrays. -/
def createCtl (size : Nat) : Ctl Trigger size where
  id := .replicate size none
  flag := .replicate size 0

/-- `run_ctl`; `call` is what a handler returns and does. -/
def runCtl
    (call : Trigger → Args → World → Int × World)
    (ctl : Ctl Trigger length)
    (i : Int)
    (args : Args)
    (world : World) : Except Fault (Int × World) :=
  if i < 0 ∨ i > length then
    .ok (-1, world)
  else if inside : i.toNat < length then
    if ctl.flag[i.toNat] = 0 then
      .ok (-1, world)
    else
      match ctl.id[i.toNat] with
      | none => .error .nullHandler
      | some handler => .ok (call handler args world)
  else
    .error .outOfBounds

/-- `add_ctl`. -/
def addCtl
    [DecidableEq Trigger]
    (ctl : Ctl Trigger length)
    (i : Int)
    (func : Trigger)
    (enabled : Int) : Except Fault (Int × Ctl Trigger length) :=
  if i < 0 ∨ i > length then
    .ok (-1, ctl)
  else if inside : i.toNat < length then
    .ok (0,
      { id := if ctl.id[i.toNat] ≠ some func then ctl.id.set i.toNat (some func) else ctl.id
        flag := ctl.flag.set i.toNat enabled })
  else
    .error .outOfBounds

/-- The arguments of a call of `add_ctl`. -/
structure Add (Trigger : Type*) where
  index : Int
  func : Trigger
  enabled : Int

/-- Calls of `add_ctl` one after the other, and what each of them returns. -/
def addAll [DecidableEq Trigger] (ctl : Ctl Trigger length) :
    List (Add Trigger) → Except Fault (List Int × Ctl Trigger length)
  | [] => .ok ([], ctl)
  | add :: rest => do
      let added ← addCtl ctl add.index add.func add.enabled
      let all ← addAll added.2 rest
      return (added.1 :: all.1, all.2)

/-! ## What a table is for -/

/-- The handler that an `add_ctl` leaves behind. -/
def Add.handler (add : Add Trigger) : Option Trigger :=
  if add.enabled ≠ 0 then some add.func else none

/-- The last `add_ctl` for an index that was successful. -/
def lastSuccessful (adds : List (Add Trigger × Int)) (i : Int) : Option (Add Trigger) :=
  ((adds.filter fun add => add.2 = 0 ∧ add.1.index = i).getLast?).map Prod.fst

/-- The handler is called, or nothing is called and `-1` is returned. -/
def due
    (call : Trigger → Args → World → Int × World)
    (handler : Option Trigger)
    (args : Args)
    (world : World) : Int × World :=
  match handler with
  | none => (-1, world)
  | some handler => call handler args world

/--
No call accesses anything behind the arrays of a new table, and `run_ctl` calls
the handler of the last successful `add_ctl` for its index, if that one enabled it.
-/
def IsPartialMap
    [DecidableEq Trigger]
    (call : Trigger → Args → World → Int × World)
    (size : Nat)
    (adds : List (Add Trigger))
    (i : Int)
    (args : Args)
    (world : World) : Prop :=
  ∃ rets ctl, addAll (createCtl size) adds = .ok (rets, ctl) ∧
    runCtl call ctl i args world =
      .ok (due call ((lastSuccessful (adds.zip rets) i).bind Add.handler) args world)

namespace Ctl

/-- The handler that is enabled for an index. -/
def toMap (ctl : Ctl Trigger length) (i : Int) : Option Trigger :=
  if inside : 0 ≤ i ∧ i.toNat < length then
    if ctl.flag[i.toNat] = 0 then none else ctl.id[i.toNat]
  else
    none

/-- What is enabled was set. -/
def Inv (ctl : Ctl Trigger length) : Prop :=
  ∀ i (inside : i < length), ctl.flag[i] ≠ 0 → ctl.id[i] ≠ none

end Ctl

theorem toMap_createCtl
    (size : Nat)
    (i : Int) :
    (createCtl size : Ctl Trigger size).toMap i = none := by
  simp [Ctl.toMap, createCtl]

theorem inv_createCtl
    (size : Nat) :
    (createCtl size : Ctl Trigger size).Inv := by
  intro i inside enabled
  simp [createCtl] at enabled

/-! ## One call -/

section

variable {ctl : Ctl Trigger length} {i : Int}

/-- `run_ctl` for an index that is not the length is the lookup in the map. -/
theorem runCtl_eq
    (call : Trigger → Args → World → Int × World)
    (inv : ctl.Inv)
    (within : i ≠ length)
    (args : Args)
    (world : World) :
    runCtl call ctl i args world = .ok (due call (ctl.toMap i) args world) := by
  unfold runCtl Ctl.toMap
  by_cases outside : i < 0 ∨ i > length
  · rw [if_pos outside, dif_neg (by omega)]
    rfl
  · have inside : 0 ≤ i ∧ i.toNat < length := by omega
    rw [if_neg outside, dif_pos inside.2, dif_pos inside]
    by_cases disabled : ctl.flag[i.toNat] = 0
    · rw [if_pos disabled, if_pos disabled]
      rfl
    · rw [if_neg disabled, if_neg disabled]
      have isSet := inv i.toNat inside.2 disabled
      obtain ⟨handler, isHandler⟩ := Option.ne_none_iff_exists'.mp isSet
      rw [isHandler]
      rfl

/-- `run_ctl` for the length reads behind the array of the flags. -/
theorem runCtl_length
    (call : Trigger → Args → World → Int × World)
    (args : Args)
    (world : World) :
    runCtl call ctl length args world = .error .outOfBounds := by
  unfold runCtl
  rw [if_neg (by omega), dif_neg (by simp)]

variable [DecidableEq Trigger]

/-- `add_ctl` for the length writes behind both arrays. -/
theorem addCtl_length
    (func : Trigger)
    (enabled : Int) :
    addCtl ctl length func enabled = .error .outOfBounds := by
  unfold addCtl
  rw [if_neg (by omega), dif_neg (by simp)]

/-- What is in a table after `add_ctl` for one of its indices. -/
structure Added (ctl after : Ctl Trigger length) (add : Add Trigger) (ret : Int) : Prop where
  inv : ctl.Inv → after.Inv
  toMap : ∀ i, after.toMap i = if ret = 0 ∧ add.index = i then add.handler else ctl.toMap i

/-- The step lemma: `add_ctl` for an index that is not the length updates the map, or fails. -/
theorem addCtl_eq
    (ctl : Ctl Trigger length)
    {add : Add Trigger}
    (within : add.index ≠ length) :
    ∃ ret after, addCtl ctl add.index add.func add.enabled = .ok (ret, after) ∧
      Added ctl after add ret := by
  unfold addCtl
  by_cases outside : add.index < 0 ∨ add.index > length
  · rw [if_pos outside]
    exact ⟨-1, ctl, rfl, id, by simp⟩
  · have inside : 0 ≤ add.index ∧ add.index.toNat < length := by omega
    rw [if_neg outside, dif_pos inside.2]
    have written :
        (if ctl.id[add.index.toNat] ≠ some add.func then
            ctl.id.set add.index.toNat (some add.func)
          else
            ctl.id) = ctl.id.set add.index.toNat (some add.func) := by
      split
      · rfl
      · next same =>
          rw [← not_not.mp same, Vector.set_getElem_self]
    rw [written]
    refine ⟨0, _, rfl, ?_, ?_⟩
    · intro inv j _ enabled
      by_cases same : add.index.toNat = j
      · simp [same]
      · rw [Vector.getElem_set_ne _ _ same] at enabled ⊢
        exact inv j _ enabled
    · intro j
      unfold Ctl.toMap Add.handler
      by_cases same : add.index = j
      · subst same
        simp [inside]
      · by_cases inTable : 0 ≤ j ∧ j.toNat < length
        · have differs : add.index.toNat ≠ j.toNat := by omega
          simp only [dif_pos inTable, Vector.getElem_set_ne _ _ differs, same, and_false, if_false]
        · simp only [dif_neg inTable, same, and_false, if_false]

end

/-! ## Sequences of calls -/

theorem lastSuccessful_cons
    (add : Add Trigger)
    (ret : Int)
    (rest : List (Add Trigger × Int))
    (i : Int) :
    lastSuccessful ((add, ret) :: rest) i =
      (lastSuccessful rest i).or (if ret = 0 ∧ add.index = i then some add else none) := by
  unfold lastSuccessful
  by_cases counts : ret = 0 ∧ add.index = i
  · rw [List.filter_cons_of_pos (by simpa using counts), List.getLast?_cons, if_pos counts]
    cases (rest.filter fun add => add.2 = 0 ∧ add.1.index = i).getLast? with
    | none =>
        rfl
    | some last =>
        rfl
  · rw [List.filter_cons_of_neg (by simpa using counts), if_neg counts, Option.or_none]

variable [DecidableEq Trigger]

/-- The run lemma: the map holds the last successful call for each index, or what was before. -/
theorem addAll_eq
    (ctl : Ctl Trigger length)
    {adds : List (Add Trigger)}
    (within : ∀ add ∈ adds, add.index ≠ length) :
    ∃ rets after, addAll ctl adds = .ok (rets, after) ∧
      (ctl.Inv → after.Inv) ∧
      ∀ i, after.toMap i =
        (lastSuccessful (adds.zip rets) i).elim (ctl.toMap i) Add.handler := by
  induction adds generalizing ctl with
  | nil =>
      exact ⟨[], ctl, rfl, id, fun _ => rfl⟩
  | cons add rest inductionHypothesis =>
      obtain ⟨ret, middle, adds, added⟩ := addCtl_eq ctl (within add List.mem_cons_self)
      obtain ⟨rets, after, addsRest, keeps, toMap⟩ :=
        inductionHypothesis middle fun later member => within later (List.mem_cons_of_mem _ member)
      refine ⟨ret :: rets, after, ?_, fun inv => keeps (added.inv inv), ?_⟩
      · rw [addAll]
        exact Loops.bind_eq_ok.mpr ⟨_, adds, Loops.bind_eq_ok.mpr ⟨_, addsRest, rfl⟩⟩
      · intro i
        rw [toMap, added.toMap, List.zip_cons_cons, lastSuccessful_cons]
        cases lastSuccessful (rest.zip rets) i with
        | some later =>
            rfl
        | none =>
            simp only [Option.elim_none, Option.none_or]
            split
            · rfl
            · rfl

/-- A call for the length ends a sequence. -/
theorem addAll_length
    (ctl : Ctl Trigger length)
    {adds : List (Add Trigger)}
    (behind : ∃ add ∈ adds, add.index = length) :
    addAll ctl adds = .error .outOfBounds := by
  induction adds generalizing ctl with
  | nil =>
      obtain ⟨add, member, -⟩ := behind
      cases member
  | cons add rest inductionHypothesis =>
      rw [addAll]
      by_cases isLength : add.index = length
      · rw [isLength, addCtl_length]
        rfl
      · obtain ⟨ret, middle, adds, -⟩ := addCtl_eq ctl isLength
        have later : ∃ add ∈ rest, add.index = length := by
          obtain ⟨other, member, same⟩ := behind
          rcases List.mem_cons.mp member with rfl | inRest
          · exact absurd same isLength
          · exact ⟨other, inRest, same⟩
        exact Loops.bind_eq_error.mpr
          (.inr ⟨_, adds, Loops.bind_eq_error.mpr (.inl (inductionHypothesis middle later))⟩)

/--
For every size, sequence of calls of `add_ctl` and index, a table is a partial map
if and only if neither one of the calls nor the index has the size for its index.
-/
theorem isPartialMap_iff
    (call : Trigger → Args → World → Int × World)
    (size : Nat)
    (adds : List (Add Trigger))
    (i : Int)
    (args : Args)
    (world : World) :
    IsPartialMap call size adds i args world ↔
      (∀ add ∈ adds, add.index ≠ size) ∧ i ≠ size := by
  constructor
  · rintro ⟨rets, ctl, added, ran⟩
    constructor
    · intro add member isSize
      rw [addAll_length _ ⟨add, member, isSize⟩] at added
      cases added
    · rintro rfl
      rw [runCtl_length] at ran
      cases ran
  · rintro ⟨within, inside⟩
    obtain ⟨rets, ctl, added, keeps, toMap⟩ := addAll_eq (createCtl size) within
    refine ⟨rets, ctl, added, ?_⟩
    rw [runCtl_eq call (keeps (inv_createCtl size)) inside, toMap, toMap_createCtl]
    cases lastSuccessful (adds.zip rets) i with
    | none =>
        rfl
    | some last =>
        rfl

end

/-- A packet with the type 10 for a table of ten elements. -/
theorem runCtl_behind :
    ¬IsPartialMap (fun (handler : Nat) (_ : Unit) (world : Unit) => (handler, world)) 10
      [⟨3, 7, 1⟩] 10 () () := by
  rintro ⟨rets, ctl, -, ran⟩
  cases ran

end Pma.Control
