import Pma.Bytes

namespace Pma.StructLayout

open Bytes

/-!
# Structures in memory

The fields of a structure have natural alignment: each lies at the next multiple
of its width behind the field before it.  Numbers are stored with the lowest byte
first.  Nothing here mentions a particular program.
-/

/-- The next multiple of an alignment. -/
def alignUp (alignment offset : Nat) : Nat :=
  (offset + alignment - 1) / alignment * alignment

/-- The offset and the width of each field, for fields of these widths from an offset on. -/
def layoutFrom : Nat → List Nat → List (Nat × Nat)
  | _, [] => []
  | start, width :: rest =>
      (alignUp width start, width) :: layoutFrom (alignUp width start + width) rest

/-- The layout of a structure. -/
def layout (widths : List Nat) : List (Nat × Nat) :=
  layoutFrom 0 widths

/-- `sizeof` of a structure; its end is aligned, too. -/
def sizeof (widths : List Nat) : Nat :=
  alignUp (widths.foldl max 1)
    ((layout widths).foldl (fun _ field => field.1 + field.2) 0)

/-- The fields of a structure at an address are written. -/
def writeStruct
    (mem : Nat → UInt8)
    (address : Nat)
    (widths values : List Nat) : Nat → UInt8 :=
  ((layout widths).zip values).foldl
    (fun mem entry => overwrite mem (address + entry.1.1) (leBytes entry.1.2 entry.2)) mem

/-- The fields of a structure at an address are read. -/
def readStruct (mem : Nat → UInt8) (address : Nat) (widths : List Nat) : List Nat :=
  (layout widths).map fun field => leValue (window mem (address + field.1) field.2)

/-- All bytes that are read lie below an end. -/
def ReadsBelow (address : Nat) (widths : List Nat) (limit : Nat) : Prop :=
  ∀ field ∈ layout widths, address + field.1 + field.2 ≤ limit

instance (address : Nat) (widths : List Nat) (limit : Nat) :
    Decidable (ReadsBelow address widths limit) :=
  inferInstanceAs (Decidable (∀ field ∈ layout widths, _))

theorem alignUp_of_dvd
    {alignment offset : Nat}
    (positive : 0 < alignment)
    (aligned : alignment ∣ offset) :
    alignUp alignment offset = offset := by
  obtain ⟨count, rfl⟩ := aligned
  unfold alignUp
  have rounded : (alignment * count + alignment - 1) / alignment = count := by
    rw [Nat.add_sub_assoc positive, Nat.mul_add_div positive,
      Nat.div_eq_of_lt (Nat.sub_lt positive Nat.one_pos), Nat.add_zero]
  rw [rounded, Nat.mul_comm]

/-- Fields of one width are written behind one another. -/
theorem writeStruct_uniform
    {width : Nat}
    (positive : 0 < width)
    (mem : Nat → UInt8)
    (address : Nat)
    (values : List Nat) :
    writeStruct mem address (values.map fun _ => width) values =
      overwrite mem address (values.flatMap (leBytes width)) := by
  have later (done : List UInt8) (aligned : width ∣ done.length) :
      ((layoutFrom done.length (values.map fun _ => width)).zip values).foldl
          (fun mem entry => overwrite mem (address + entry.1.1) (leBytes entry.1.2 entry.2))
          (overwrite mem address done) =
        overwrite mem address (done ++ values.flatMap (leBytes width)) := by
    -- `done` is what was written for the fields before.
    induction values generalizing done with
    | nil =>
        rw [List.flatMap_nil, List.append_nil]
        rfl
    | cons value rest inductionHypothesis =>
        have longer : (done ++ leBytes width value).length = done.length + width := by
          rw [List.length_append, length_leBytes]
        have still : width ∣ (done ++ leBytes width value).length := by
          rw [longer]
          exact Nat.dvd_add aligned (Nat.dvd_refl width)
        have next := inductionHypothesis (done ++ leBytes width value) still
        rw [longer, ← overwrite_append, List.append_assoc] at next
        rw [List.map_cons, layoutFrom, alignUp_of_dvd positive aligned, List.zip_cons_cons,
          List.foldl_cons, List.flatMap_cons]
        exact next
  have all := later [] (Nat.dvd_zero width)
  rw [overwrite_nil, List.nil_append] at all
  exact all

end Pma.StructLayout
