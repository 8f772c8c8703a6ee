import Pma.Fah

namespace Pma

/-!
# Which policy is taken

`protect_local_link` takes the values of the policy whose index
`find_policy_table` gives.  The index 0 also stands for no policy, the limits are
compared with the key as an unsigned number, and the values go into variables of
half their width.
-/

/-- The key of a policy table lies between the limits of a policy. -/
def PolicyElement.Covers (elem : PolicyElement) (key : Int) : Prop :=
  elem.lowerLimit.toNat ≤ key ∧ key < elem.upLimit.toNat

instance (elem : PolicyElement) (key : Int) : Decidable (elem.Covers key) :=
  inferInstanceAs (Decidable (_ ∧ _))

namespace PolicyTable

/-- The first policy for a key, with its index. -/
structure IsFirst (table : PolicyTable) (key : Int) (i : Nat) (elem : PolicyElement) : Prop where
  listed : table.elements[i]? = some elem
  covers : elem.Covers key
  first : ∀ j < i, ∀ other, table.elements[j]? = some other → ¬other.Covers key

/-- The values of the first policy for a key are taken, or the defaults if there is none. -/
structure SelectsRight (table : PolicyTable) (key : Int32) : Prop where
  policy :
    ∀ i elem,
      table.IsFirst key.toInt i elem →
      ∃ hello dead,
        chooseTimers (some table) key = some (hello, dead) ∧
          hello.toNat = elem.value0.toNat ∧
          dead.toNat = elem.value1.toNat
  default :
    (∀ i elem, ¬table.IsFirst key.toInt i elem) →
    chooseTimers (some table) key = some (defaultHello, defaultDead)

/-! ## What the lookup finds -/

section

variable {table : PolicyTable} {key : Int32} {number : Int} {i : Nat} {elem : PolicyElement}

/-- The comparison sees the key modulo `2 ^ 32`. -/
theorem isFor_iff :
    isFor key elem = true ↔ elem.Covers (key.toInt % 2 ^ 32) := by
  have unsigned : key.toInt % 2 ^ 32 = key.toUInt32.toNat := by
    have small := key.toUInt32.toNat_lt
    have signed : key.toInt = Int.bmod key.toUInt32.toNat (2 ^ 32) :=
      BitVec.toInt_eq_toNat_bmod key.toBitVec
    have rest := Int.bmod_emod (x := (key.toUInt32.toNat : Int)) (m := 2 ^ 32)
    rw [← signed] at rest
    push_cast at rest
    omega
  unfold isFor PolicyElement.Covers
  rw [unsigned, decide_eq_true_eq, UInt32.le_iff_toNat_le, UInt32.lt_iff_toNat_lt]
  omega

theorem findIdx?_eq_some_iff :
    table.elements.findIdx? (isFor key) = some i ↔
      ∃ elem, table.IsFirst (key.toInt % 2 ^ 32) i elem := by
  rw [List.findIdx?_eq_some_iff_getElem]
  constructor
  · rintro ⟨inside, found, first⟩
    refine ⟨table.elements[i], List.getElem?_eq_getElem inside, isFor_iff.mp found,
      fun j earlier other listed covers => ?_⟩
    obtain ⟨within, rfl⟩ := List.getElem?_eq_some_iff.mp listed
    exact first j earlier (isFor_iff.mpr covers)
  · rintro ⟨elem, listed, covers, first⟩
    obtain ⟨inside, rfl⟩ := List.getElem?_eq_some_iff.mp listed
    refine ⟨inside, isFor_iff.mpr covers, fun j earlier found => ?_⟩
    have within : j < table.elements.length := Nat.lt_trans earlier inside
    exact first j earlier _ (List.getElem?_eq_getElem within) (isFor_iff.mp found)

/-- There is only one first policy. -/
theorem IsFirst.unique
    {j : Nat}
    {other : PolicyElement}
    (isFirst : table.IsFirst number i elem)
    (alsoFirst : table.IsFirst number j other) :
    i = j ∧ elem = other := by
  have same : i = j := by
    rcases Nat.lt_trichotomy i j with earlier | same | later
    · exact absurd isFirst.covers (alsoFirst.first i earlier elem isFirst.listed)
    · exact same
    · exact absurd alsoFirst.covers (isFirst.first j later other alsoFirst.listed)
  refine ⟨same, Option.some.inj ?_⟩
  rw [← isFirst.listed, ← alsoFirst.listed, same]

/-- No policy covers a negative number. -/
theorem not_isFirst_of_neg
    (negative : number < 0) :
    ¬table.IsFirst number i elem := by
  rintro ⟨-, ⟨low, -⟩, -⟩
  omega

/-- The defaults are taken if the index is 0. -/
theorem chooseTimers_of_zero
    (ret : findPolicyTable (some table) key = 0) :
    chooseTimers (some table) key = some (defaultHello, defaultDead) := by
  unfold chooseTimers
  rw [ret]
  rfl

/-- That is so without a policy. -/
theorem chooseTimers_none
    (none : ∀ i elem, ¬table.IsFirst (key.toInt % 2 ^ 32) i elem) :
    chooseTimers (some table) key = some (defaultHello, defaultDead) := by
  have notFound : table.elements.findIdx? (isFor key) = .none := by
    cases found : table.elements.findIdx? (isFor key) with
    | none => rfl
    | some i =>
        rw [findIdx?_eq_some_iff] at found
        obtain ⟨elem, isFirst⟩ := found
        exact absurd isFirst (none i elem)
  refine chooseTimers_of_zero ?_
  change (((table.elements.findIdx? (isFor key)).getD 0 : Nat) : Int) = 0
  rw [notFound]
  rfl

/-- And with the first element, too. -/
theorem chooseTimers_zero
    (isFirst : table.IsFirst (key.toInt % 2 ^ 32) 0 elem) :
    chooseTimers (some table) key = some (defaultHello, defaultDead) := by
  refine chooseTimers_of_zero ?_
  change (((table.elements.findIdx? (isFor key)).getD 0 : Nat) : Int) = 0
  rw [Iff.mpr findIdx?_eq_some_iff ⟨elem, isFirst⟩]
  rfl

/-- The values of another element are cut. -/
theorem chooseTimers_of_ne_zero
    (isFirst : table.IsFirst (key.toInt % 2 ^ 32) i elem)
    (later : i ≠ 0) :
    chooseTimers (some table) key = some (elem.value0.toUInt32, elem.value1.toUInt32) := by
  have ret : findPolicyTable (some table) key = i := by
    change (((table.elements.findIdx? (isFor key)).getD 0 : Nat) : Int) = i
    rw [Iff.mpr findIdx?_eq_some_iff ⟨elem, isFirst⟩]
    rfl
  have listed : table.elements[(i : Int).toNat]? = some elem := isFirst.listed
  unfold chooseTimers
  rw [ret]
  dsimp only
  rw [if_neg (by omega), if_neg (by omega), Option.bind_some, listed]
  rfl

/-- A value is not cut if it is below `2 ^ 32`. -/
theorem toNat_toUInt32_eq_iff
    (value : UInt64) :
    value.toUInt32.toNat = value.toNat ↔ value.toNat < 2 ^ 32 := by
  rw [UInt64.toNat_toUInt32]
  omega

/-- A key that is not negative is seen as it is. -/
theorem selectsRight_iff_of_natural
    (natural : 0 ≤ key.toInt) :
    table.SelectsRight key ↔
      ∀ i elem,
        table.IsFirst key.toInt i elem →
        if i = 0 then
          elem.value0.toNat = defaultHello.toNat ∧ elem.value1.toNat = defaultDead.toNat
        else
          elem.value0.toNat < 2 ^ 32 ∧ elem.value1.toNat < 2 ^ 32 := by
  have bound := key.toInt_lt
  have seen : key.toInt % 2 ^ 32 = key.toInt := by omega
  constructor
  · intro right i elem isFirst
    obtain ⟨hello, dead, chosen, helloRight, deadRight⟩ := right.policy i elem isFirst
    rw [← seen] at isFirst
    split
    · next zero =>
        subst zero
        rw [chooseTimers_zero isFirst] at chosen
        cases chosen
        exact ⟨helloRight.symm, deadRight.symm⟩
    · next later =>
        rw [chooseTimers_of_ne_zero isFirst later] at chosen
        cases chosen
        exact ⟨(toNat_toUInt32_eq_iff _).mp helloRight,
          (toNat_toUInt32_eq_iff _).mp deadRight⟩
  · intro condition
    constructor
    · intro i elem isFirst
      have values := condition i elem isFirst
      rw [← seen] at isFirst
      split at values
      · next zero =>
          subst zero
          exact ⟨_, _, chooseTimers_zero isFirst, values.1.symm, values.2.symm⟩
      · next later =>
          exact ⟨_, _, chooseTimers_of_ne_zero isFirst later,
            (toNat_toUInt32_eq_iff _).mpr values.1,
            (toNat_toUInt32_eq_iff _).mpr values.2⟩
    · intro none
      rw [← seen] at none
      exact chooseTimers_none none

/-- A negative key is seen as `2 ^ 32` more, and no policy covers it. -/
theorem selectsRight_iff_of_negative
    (negative : key.toInt < 0) :
    table.SelectsRight key ↔
      ∀ i elem,
        table.IsFirst (key.toInt + 2 ^ 32) i elem →
        i ≠ 0 →
        elem.value0.toNat % 2 ^ 32 = defaultHello.toNat ∧
          elem.value1.toNat % 2 ^ 32 = defaultDead.toNat := by
  have least := key.le_toInt
  have seen : key.toInt % 2 ^ 32 = key.toInt + 2 ^ 32 := by omega
  have none (i : Nat) (elem : PolicyElement) : ¬table.IsFirst key.toInt i elem :=
    not_isFirst_of_neg (by omega)
  rw [← seen]
  constructor
  · intro right i elem isFirst later
    have chosen := right.default none
    rw [chooseTimers_of_ne_zero isFirst later] at chosen
    have values := Option.some.inj chosen
    rw [Prod.mk.injEq] at values
    rw [← UInt64.toNat_toUInt32, ← UInt64.toNat_toUInt32, values.1, values.2]
    exact ⟨rfl, rfl⟩
  · intro condition
    refine ⟨fun i elem isFirst => absurd isFirst (none i elem), fun _ => ?_⟩
    by_cases found : ∃ i elem, table.IsFirst (key.toInt % 2 ^ 32) i elem
    · obtain ⟨i, elem, isFirst⟩ := found
      by_cases zero : i = 0
      · subst zero
        exact chooseTimers_zero isFirst
      · obtain ⟨hello, dead⟩ := condition i elem isFirst zero
        rw [chooseTimers_of_ne_zero isFirst zero]
        rw [← UInt64.toNat_toUInt32] at hello dead
        rw [UInt32.toNat_inj.mp hello, UInt32.toNat_inj.mp dead]
    · exact chooseTimers_none fun i elem isFirst => found ⟨i, elem, isFirst⟩

end

/--
The right policy is selected exactly if, for a key that is not negative, the
first policy for it has values below `2 ^ 32`, and the defaults if it is the
first of the table; and for a negative key, the first policy that covers
`2 ^ 32` more, if it is not the first of the table, has values that are cut to
the defaults.
-/
theorem selectsRight_iff
    (table : PolicyTable)
    (key : Int32) :
    table.SelectsRight key ↔
      if 0 ≤ key.toInt then
        ∀ i elem,
          table.IsFirst key.toInt i elem →
          if i = 0 then
            elem.value0.toNat = defaultHello.toNat ∧ elem.value1.toNat = defaultDead.toNat
          else
            elem.value0.toNat < 2 ^ 32 ∧ elem.value1.toNat < 2 ^ 32
      else
        ∀ i elem,
          table.IsFirst (key.toInt + 2 ^ 32) i elem →
          i ≠ 0 →
          elem.value0.toNat % 2 ^ 32 = defaultHello.toNat ∧
            elem.value1.toNat % 2 ^ 32 = defaultDead.toNat := by
  split
  · next natural =>
      exact selectsRight_iff_of_natural natural
  · next negative =>
      exact selectsRight_iff_of_negative (by omega)

/-- One policy for all degrees, which is the first of its table. -/
def onePolicy : PolicyTable where
  elements := [⟨2, 101, 0, 5000000, 20000000⟩]
  within := by decide

/-- It is not taken. -/
theorem onePolicy_not_selectsRight :
    ¬onePolicy.SelectsRight 50 := by
  intro right
  have isFirst : onePolicy.IsFirst (50 : Int32).toInt 0 ⟨2, 101, 0, 5000000, 20000000⟩ :=
    ⟨rfl, by decide, fun j earlier => absurd earlier (Nat.not_lt_zero j)⟩
  obtain ⟨hello, dead, chosen, values, -⟩ := right.policy _ _ isFirst
  cases chosen
  exact absurd values (by decide)

end PolicyTable

end Pma
