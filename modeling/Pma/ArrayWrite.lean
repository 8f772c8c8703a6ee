import Mathlib.Data.List.Basic

namespace Pma.ArrayWrite

/-!
# Filling an array from a place on

A program writes values one behind the other into an array of fixed size.  A
write behind the end of the array is a fault.
-/

variable {Value : Type*} {size : Nat}

/-- `array[i] = value`. -/
def write (array : Vector Value size) (i : Nat) (value : Value) : Option (Vector Value size) :=
  if inside : i < size then some (array.set i value inside) else none

/-- Values one behind the other, from index `i` on. -/
def writeAll (array : Vector Value size) (i : Nat) : List Value → Option (Vector Value size)
  | [] => some array
  | value :: rest => (write array i value).bind fun array => writeAll array (i + 1) rest

theorem writeAll_singleton
    (array : Vector Value size)
    (i : Nat)
    (value : Value) :
    writeAll array i [value] = write array i value := by
  simp [writeAll]

theorem writeAll_append
    (array : Vector Value size)
    (i : Nat)
    (first second : List Value) :
    writeAll array i (first ++ second) =
      (writeAll array i first).bind fun array => writeAll array (i + first.length) second := by
  induction first generalizing array i with
  | nil =>
      rfl
  | cons value rest inductionHypothesis =>
      simp only [List.cons_append, writeAll, Option.bind_assoc, inductionHypothesis,
        List.length_cons]
      simp only [Nat.add_assoc, Nat.add_comm 1]

/-- Values that fit take the places from `i` on, and all others keep what they had. -/
theorem writeAll_fits
    (array : Vector Value size)
    {i : Nat}
    {values : List Value}
    (room : i + values.length ≤ size) :
    ∃ filled, writeAll array i values = some filled ∧
      filled.toList =
        array.toList.take i ++ values ++ array.toList.drop (i + values.length) := by
  induction values generalizing array i with
  | nil =>
      exact ⟨array, rfl, by simp⟩
  | cons value rest inductionHypothesis =>
      rw [List.length_cons] at room
      have inside : i < size := by omega
      obtain ⟨filled, writes, contents⟩ :=
        inductionHypothesis (array.set i value inside) (i := i + 1) (by omega)
      refine ⟨filled, by simpa [writeAll, write, inside] using writes, ?_⟩
      have start : (array.toList.set i value).take (i + 1) = array.toList.take i ++ [value] := by
        have before : (array.toList.take i).length = i := by
          rw [List.length_take, Vector.length_toList, Nat.min_eq_left (Nat.le_of_lt inside)]
        rw [List.set_eq_take_append_cons_drop, if_pos (by simpa using inside), List.take_append,
          before, Nat.add_sub_cancel_left, List.take_of_length_le (by omega)]
        rfl
      have rear :
          (array.toList.set i value).drop (i + 1 + rest.length) =
            array.toList.drop (i + 1 + rest.length) :=
        List.drop_set_of_lt (by omega)
      rw [contents, Vector.toList_set, start, rear, List.length_cons, Nat.add_comm rest.length 1,
        Nat.add_assoc]
      simp

/-- One value too many is written behind the end. -/
theorem writeAll_overruns
    (array : Vector Value size)
    {i : Nat}
    {values : List Value}
    (start : i ≤ size)
    (overrun : size < i + values.length) :
    writeAll array i values = none := by
  induction values generalizing array i with
  | nil =>
      simp only [List.length_nil] at overrun
      omega
  | cons value rest inductionHypothesis =>
      rw [List.length_cons] at overrun
      unfold writeAll write
      split
      · next inside =>
          exact inductionHypothesis _ inside (by omega)
      · rfl

end Pma.ArrayWrite
