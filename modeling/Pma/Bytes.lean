import Mathlib.Data.List.Basic
import Mathlib.Tactic.Ring

namespace Pma.Bytes

/-!
# Bytes in memory

Numbers as sequences of bytes in either order, and a memory that is read and
written in pieces.  Nothing here mentions a particular program.
-/

/-! ## Numbers -/

/-- The number that some bytes denote, the lowest first. -/
def leValue : List UInt8 → Nat
  | [] => 0
  | byte :: rest => byte.toNat + 256 * leValue rest

/-- The lowest `width` bytes of a number, the lowest first. -/
def leBytes : Nat → Nat → List UInt8
  | 0, _ => []
  | width + 1, number => UInt8.ofNat number :: leBytes width (number / 256)

/-- The number that some bytes denote, the highest first. -/
def beValue (bytes : List UInt8) : Nat :=
  leValue bytes.reverse

/-- The lowest `width` bytes of a number, the highest first. -/
def beBytes (width number : Nat) : List UInt8 :=
  (leBytes width number).reverse

@[simp] theorem length_leBytes
    (width number : Nat) :
    (leBytes width number).length = width := by
  induction width generalizing number with
  | zero =>
      rfl
  | succ width inductionHypothesis =>
      rw [leBytes, List.length_cons, inductionHypothesis]

@[simp] theorem length_beBytes
    (width number : Nat) :
    (beBytes width number).length = width := by
  rw [beBytes, List.length_reverse, length_leBytes]

/-- A number that fits is read back. -/
theorem leValue_leBytes
    {width number : Nat}
    (fits : number < 256 ^ width) :
    leValue (leBytes width number) = number := by
  induction width generalizing number with
  | zero =>
      rw [Nat.pow_zero, Nat.lt_one_iff] at fits
      rw [fits]
      rfl
  | succ width inductionHypothesis =>
      have rest : number / 256 < 256 ^ width := by
        rw [Nat.pow_succ] at fits
        exact Nat.div_lt_of_lt_mul (by omega)
      have low : (UInt8.ofNat number).toNat = number % 256 :=
        UInt8.toNat_ofNat'
      rw [leBytes, leValue, inductionHypothesis rest, low]
      exact Nat.mod_add_div number 256

theorem beValue_beBytes
    {width number : Nat}
    (fits : number < 256 ^ width) :
    beValue (beBytes width number) = number := by
  rw [beValue, beBytes, List.reverse_reverse, leValue_leBytes fits]

/-- Bytes behind others count by how many those are. -/
theorem leValue_append
    (first second : List UInt8) :
    leValue (first ++ second) =
      leValue first + 256 ^ first.length * leValue second := by
  induction first with
  | nil =>
      simp [leValue]
  | cons byte rest inductionHypothesis =>
      rw [List.cons_append, leValue, leValue, inductionHypothesis,
        List.length_cons, Nat.pow_succ]
      ring

theorem leValue_zeros
    (count : Nat) :
    leValue (List.replicate count 0) = 0 := by
  induction count with
  | zero =>
      rfl
  | succ count inductionHypothesis =>
      rw [List.replicate_succ, leValue, inductionHypothesis]
      rfl

/-- A number needs no more bytes than it has. -/
theorem leValue_lt
    (bytes : List UInt8) :
    leValue bytes < 256 ^ bytes.length := by
  induction bytes with
  | nil =>
      decide
  | cons byte rest inductionHypothesis =>
      have low : byte.toNat < 256 := byte.toNat_lt
      rw [leValue, List.length_cons, Nat.pow_succ]
      omega

/-- Without its lowest bytes a number is divided. -/
theorem drop_leBytes
    {dropped width : Nat}
    (within : dropped ≤ width)
    (number : Nat) :
    (leBytes width number).drop dropped =
      leBytes (width - dropped) (number / 256 ^ dropped) := by
  induction dropped generalizing width number with
  | zero =>
      simp
  | succ dropped inductionHypothesis =>
      obtain ⟨width, rfl⟩ : ∃ rest, width = rest + 1 :=
        ⟨width - 1, by omega⟩
      rw [leBytes, List.drop_succ_cons, inductionHypothesis (by omega),
        Nat.div_div_eq_div_mul, Nat.pow_succ', Nat.add_sub_add_right]

/-- Zeros in place of its lowest bytes round a number down. -/
theorem beValue_take_zeros
    {kept width number : Nat}
    (within : kept ≤ width)
    (fits : number < 256 ^ width) :
    beValue ((beBytes width number).take kept ++ List.replicate (width - kept) 0) =
      number - number % 256 ^ (width - kept) := by
  have least : 0 < 256 ^ (width - kept) := Nat.pow_pos (by decide)
  have high : number / 256 ^ (width - kept) < 256 ^ kept := by
    rw [Nat.div_lt_iff_lt_mul least, ← Nat.pow_add,
      Nat.add_sub_cancel' within]
    exact fits
  rw [beValue, List.reverse_append, List.reverse_replicate, leValue_append,
    leValue_zeros, List.length_replicate, Nat.zero_add, beBytes,
    List.take_reverse, List.reverse_reverse, length_leBytes,
    drop_leBytes (Nat.sub_le _ _), Nat.sub_sub_self within,
    leValue_leBytes high]
  exact (Nat.sub_eq_of_eq_add (Nat.div_add_mod _ _).symm).symm

/-! ## Memory -/

/-- The bytes of a piece of memory. -/
def window (mem : Nat → UInt8) (start length : Nat) : List UInt8 :=
  (List.range length).map fun offset => mem (start + offset)

/-- The memory after bytes are copied to it. -/
def overwrite
    (mem : Nat → UInt8)
    (start : Nat)
    (bytes : List UInt8) : Nat → UInt8 :=
  fun position =>
    if start ≤ position then
      (bytes[position - start]?).getD (mem position)
    else
      mem position

@[simp] theorem length_window
    (mem : Nat → UInt8)
    (start length : Nat) :
    (window mem start length).length = length := by
  rw [window, List.length_map, List.length_range]

/-- Copying nothing changes nothing. -/
@[simp] theorem overwrite_nil
    (mem : Nat → UInt8)
    (start : Nat) :
    overwrite mem start [] = mem := by
  funext position
  exact ite_self _

/-- What was copied can be read back. -/
theorem window_overwrite
    (mem : Nat → UInt8)
    (start : Nat)
    (bytes : List UInt8) :
    window (overwrite mem start bytes) start bytes.length = bytes := by
  apply List.ext_getElem
  · rw [length_window]
  · intro offset inWindow inBytes
    simp only [window, List.getElem_map, List.getElem_range, overwrite]
    rw [if_pos (Nat.le_add_right start offset), Nat.add_sub_cancel_left,
      List.getElem?_eq_getElem inBytes]
    rfl

/-- Copying elsewhere leaves a piece of memory alone. -/
theorem window_overwrite_of_disjoint
    {mem : Nat → UInt8}
    {start length target : Nat}
    {bytes : List UInt8}
    (apart : start + length ≤ target ∨ target + bytes.length ≤ start) :
    window (overwrite mem target bytes) start length =
      window mem start length := by
  apply List.map_congr_left
  intro offset inRange
  have below : offset < length := List.mem_range.mp inRange
  unfold overwrite
  split
  · rw [List.getElem?_eq_none (by omega)]
    rfl
  · rfl

/-- Two copies behind one another are one. -/
theorem overwrite_append
    (mem : Nat → UInt8)
    (start : Nat)
    (first second : List UInt8) :
    overwrite (overwrite mem start first) (start + first.length) second =
      overwrite mem start (first ++ second) := by
  funext position
  unfold overwrite
  by_cases before : start ≤ position
  · rw [if_pos before, if_pos before, List.getElem?_append]
    by_cases inFirst : position - start < first.length
    · rw [if_pos inFirst, if_neg (by omega)]
    · have outside : first[position - start]? = none := List.getElem?_eq_none (by omega)
      have shifted : position - (start + first.length) = position - start - first.length := by
        omega
      rw [if_neg inFirst, if_pos (by omega), outside, shifted]
      rfl
  · rw [if_neg before, if_neg before, if_neg (by omega)]

/-- A piece of memory starts with its shorter pieces. -/
theorem take_window
    {shorter length : Nat}
    (within : shorter ≤ length)
    (mem : Nat → UInt8)
    (start : Nat) :
    (window mem start length).take shorter = window mem start shorter := by
  rw [window, ← List.map_take, List.take_range, Nat.min_eq_left within]
  rfl

/-- A piece of memory is read in two steps. -/
theorem window_add
    (mem : Nat → UInt8)
    (start first second : Nat) :
    window mem start (first + second) =
      window mem start first ++ window mem (start + first) second := by
  unfold window
  rw [List.range_add, List.map_append, List.map_map]
  simp [Function.comp_def, Nat.add_assoc]

/-- Records of one width take as many bytes together. -/
theorem length_records
    {Record : Type*}
    {encode : Record → List UInt8}
    {width : Nat}
    (uniform : ∀ record, (encode record).length = width)
    (records : List Record) :
    (records.flatMap encode).length = records.length * width := by
  induction records with
  | nil =>
      simp
  | cons record rest inductionHypothesis =>
      rw [List.flatMap_cons, List.length_append, uniform, inductionHypothesis,
        List.length_cons, Nat.succ_mul, Nat.add_comm]

/-- Records of one width that are stored one behind the other are read one by one. -/
theorem window_record
    {Record : Type*}
    {encode : Record → List UInt8}
    {width : Nat}
    (uniform : ∀ record, (encode record).length = width)
    {mem : Nat → UInt8}
    {start : Nat}
    {records : List Record}
    (held : window mem start (records.length * width) = records.flatMap encode)
    {i : Nat}
    (within : i < records.length) :
    window mem (start + i * width) width = encode records[i] := by
  induction records generalizing start i with
  | nil =>
      cases within
  | cons record rest inductionHypothesis =>
      have sizes : (record :: rest).length * width = width + rest.length * width := by
        rw [List.length_cons, Nat.succ_mul, Nat.add_comm]
      rw [sizes, window_add, List.flatMap_cons] at held
      have split := List.append_inj held (by rw [length_window, uniform])
      cases i with
      | zero =>
          simpa using split.1
      | succ i =>
          have later := inductionHypothesis split.2 (Nat.lt_of_succ_lt_succ within)
          rw [Nat.succ_mul, Nat.add_comm (i * width), ← Nat.add_assoc]
          exact later

/-- A part of what was copied can be read back. -/
theorem window_overwrite_within
    {bytes : List UInt8}
    {offset length : Nat}
    (within : offset + length ≤ bytes.length)
    (mem : Nat → UInt8)
    (start : Nat) :
    window (overwrite mem start bytes) (start + offset) length =
      (bytes.drop offset).take length := by
  have split : bytes.length = offset + (length + (bytes.length - offset - length)) := by omega
  have whole := window_overwrite mem start bytes
  rw [split, window_add, window_add] at whole
  have behind := congrArg (List.drop offset) whole
  rw [List.drop_left' (length_window ..)] at behind
  rw [← behind, List.take_left' (length_window ..)]

end Pma.Bytes
