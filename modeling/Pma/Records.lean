import Pma.StructLayout

namespace Pma.Records

open Bytes StructLayout

/-!
# Records in memory

Bytes that lie at a place in memory, and records that start with their length
and are padded to an alignment.  Nothing here mentions a particular program.
-/

/-- These bytes lie at a place in memory. -/
def Lies (mem : Nat → UInt8) (start : Nat) (bytes : List UInt8) : Prop :=
  window mem start bytes.length = bytes

section

variable
  {mem : Nat → UInt8}
  {start width value : Nat}
  {first second bytes : List UInt8}

/-- Bytes behind one another lie behind one another. -/
theorem lies_append :
    Lies mem start (first ++ second) ↔
      Lies mem start first ∧ Lies mem (start + first.length) second := by
  unfold Lies
  rw [List.length_append, window_add]
  constructor
  · intro both
    exact List.append_inj both (length_window ..)
  · rintro ⟨inFirst, inSecond⟩
    rw [inFirst, inSecond]

theorem Lies.left
    (lies : Lies mem start (first ++ second)) :
    Lies mem start first :=
  (lies_append.mp lies).1

theorem Lies.right
    (lies : Lies mem start (first ++ second)) :
    Lies mem (start + first.length) second :=
  (lies_append.mp lies).2

/-- The beginning of what lies in memory. -/
theorem Lies.take
    (lies : Lies mem start bytes)
    (width : Nat) :
    Lies mem start (bytes.take width) := by
  rw [← List.take_append_drop width bytes] at lies
  exact lies.left

/-- A number that lies in memory is read. -/
theorem Lies.number
    (lies : Lies mem start (leBytes width value))
    (fits : value < 256 ^ width) :
    leValue (window mem start width) = value := by
  have isWindow : window mem start width = leBytes width value := by
    simpa [Lies] using lies
  rw [isWindow, leValue_leBytes fits]

end

/-! ## Padding -/

section

variable {alignment : Nat}

theorem le_alignUp
    (positive : 0 < alignment)
    (offset : Nat) :
    offset ≤ alignUp alignment offset := by
  have split := Nat.div_add_mod (offset + alignment - 1) alignment
  have below := Nat.mod_lt (offset + alignment - 1) positive
  unfold alignUp
  rw [Nat.mul_comm]
  omega

theorem alignUp_lt
    (positive : 0 < alignment)
    (offset : Nat) :
    alignUp alignment offset < offset + alignment := by
  have split := Nat.div_mul_le_self (offset + alignment - 1) alignment
  unfold alignUp
  omega

theorem dvd_alignUp
    (alignment offset : Nat) :
    alignment ∣ alignUp alignment offset :=
  Nat.dvd_mul_left ..

/-- Rounding up stays below what is rounded already. -/
theorem alignUp_le
    {offset limit : Nat}
    (positive : 0 < alignment)
    (within : offset ≤ limit)
    (aligned : alignment ∣ limit) :
    alignUp alignment offset ≤ limit := by
  obtain ⟨count, rfl⟩ := aligned
  have upper := alignUp_lt positive offset
  obtain ⟨rounded, isRounded⟩ := dvd_alignUp alignment offset
  rw [isRounded] at upper ⊢
  apply Nat.mul_le_mul_left
  apply Nat.le_of_lt_succ
  apply Nat.lt_of_mul_lt_mul_left (a := alignment)
  calc
    alignment * rounded < offset + alignment := upper
    _ ≤ alignment * count + alignment := Nat.add_le_add_right within _
    _ = alignment * (count + 1) := rfl

/-- Zeros behind some bytes, up to the alignment. -/
def padded (alignment : Nat) (bytes : List UInt8) : List UInt8 :=
  bytes ++ List.replicate (alignUp alignment bytes.length - bytes.length) 0

theorem length_padded
    (positive : 0 < alignment)
    (bytes : List UInt8) :
    (padded alignment bytes).length = alignUp alignment bytes.length := by
  rw [padded, List.length_append, List.length_replicate]
  exact Nat.add_sub_cancel' (le_alignUp positive _)

end

end Pma.Records
