import Mathlib.Data.List.Basic

namespace Pma

/-!
# The policy table

`policy/policy_table.c` keeps the policies in an array of fixed length, the used
ones first.  `find_policy_table` gives the index of the first policy for a key;
its 0 stands for the first element and for no element at all.
-/

/-- `POLICY_TABLE_LEN`. -/
def policyTableLen : Nat := 20

/-- `struct _policy_element`. -/
structure PolicyElement where
  operation : Int32
  upLimit : UInt32
  lowerLimit : UInt32
  value0 : UInt64
  value1 : UInt64
  deriving Repr, DecidableEq

/-- `struct _policy_table`, as far as it is used; `used_len` is the length. -/
@[ext] structure PolicyTable where
  elements : List PolicyElement
  within : elements.length ≤ policyTableLen

namespace PolicyTable

/-- The table as `init_policy_table` leaves it. -/
def init : PolicyTable where
  elements := []
  within := Nat.zero_le _

/-- `insert_policy_table`; there is no table if it returns -1. -/
def insertPolicyTable (policy : PolicyTable) (elem : PolicyElement) : Option PolicyTable :=
  if room : policy.elements.length < policyTableLen then
    some
      { elements := policy.elements ++ [elem]
        within := by
          rw [List.length_append]
          exact room }
  else
    none

/-- `add_policy`, which ignores what the insertion returns. -/
def addPolicy (policyTable : PolicyTable) (elem : PolicyElement) : PolicyTable :=
  (policyTable.insertPolicyTable elem).getD policyTable

/-- The comparison of `find_policy_table`, which is unsigned. -/
def isFor (key : Int32) (elem : PolicyElement) : Bool :=
  elem.lowerLimit ≤ key.toUInt32 ∧ key.toUInt32 < elem.upLimit

/-- `find_policy_table`, with -1 for `NULL`. -/
def findPolicyTable (p : Option PolicyTable) (key : Int32) : Int :=
  match p with
  | none => -1
  | some table => (table.elements.findIdx? (isFor key)).getD 0

/-- A full table stays as it is. -/
theorem addPolicy_elements
    (table : PolicyTable)
    (elem : PolicyElement) :
    (table.addPolicy elem).elements = (table.elements ++ [elem]).take policyTableLen := by
  have within := table.within
  unfold addPolicy insertPolicyTable
  split
  · next room =>
      have fits : (table.elements ++ [elem]).length ≤ policyTableLen := by
        rw [List.length_append]
        exact room
      exact (List.take_of_length_le fits).symm
  · next full =>
      have length : table.elements.length = policyTableLen := by omega
      rw [← length, List.take_left]
      rfl

/-- Many policies are added in order, as long as there is room. -/
theorem foldl_addPolicy
    (table : PolicyTable)
    (elems : List PolicyElement) :
    (elems.foldl addPolicy table).elements =
      (table.elements ++ elems).take policyTableLen := by
  induction elems generalizing table with
  | nil =>
      rw [List.append_nil]
      exact (List.take_of_length_le table.within).symm
  | cons elem rest inductionHypothesis =>
      have cut (kept : List PolicyElement) :
          (kept.take policyTableLen ++ rest).take policyTableLen =
            (kept ++ rest).take policyTableLen := by
        have length :
            policyTableLen - min policyTableLen kept.length =
              policyTableLen - kept.length := by
          omega
        rw [List.take_append, List.take_append, List.take_take, Nat.min_self,
          List.length_take, length]
      rw [List.foldl_cons, inductionHypothesis, addPolicy_elements, cut, List.append_assoc,
        List.singleton_append]

end PolicyTable

end Pma
