import Mathlib.Tactic.Ring

namespace Pma

/-!
# Printing into a buffer

A program prints texts one behind the other into a buffer of fixed size.  Each
takes the place of the terminator of the one before and ends with a terminator of
its own.  A text that does not fit is written outside of the buffer.
-/

/-- A buffer of `size` bytes with a text and its terminator. -/
structure TextBuffer (size : Nat) where
  text : String
  fits : text.utf8ByteSize + 1 ≤ size

namespace TextBuffer

variable {size : Nat} {Item : Type*}

/-- The buffer after `malloc` and `memset` with zero. -/
def cleared (positive : 0 < size) : TextBuffer size where
  text := ""
  fits := positive

/-- `sprintf(buff+len, ..)` and `len = strlen(buff)`; nothing where the text does not fit. -/
def sprintf (buff : TextBuffer size) (text : String) : Option (TextBuffer size) :=
  if fits : (buff.text ++ text).utf8ByteSize + 1 ≤ size then
    some ⟨buff.text ++ text, fits⟩
  else
    none

/-- A part of a program prints this text and does nothing else. -/
def Prints
    (part : TextBuffer size → Option (TextBuffer size))
    (text : String) : Prop :=
  ∀ buff, part buff = buff.sprintf text

/-! ## One text behind the other -/

theorem sprintf_empty
    (buff : TextBuffer size) :
    buff.sprintf "" = some buff := by
  simp [sprintf, buff.fits]

/-- Two texts fit if and only if both fit together: the first one is not too long alone. -/
theorem sprintf_append
    (buff : TextBuffer size)
    (first second : String) :
    buff.sprintf (first ++ second) =
      (buff.sprintf first).bind fun buff => buff.sprintf second := by
  unfold sprintf
  by_cases all : (buff.text ++ (first ++ second)).utf8ByteSize + 1 ≤ size
  · have start : (buff.text ++ first).utf8ByteSize + 1 ≤ size := by
      simp only [String.utf8ByteSize_append] at all ⊢
      omega
    simp only [dif_pos all, dif_pos start, Option.bind_some, String.append_assoc]
  · by_cases start : (buff.text ++ first).utf8ByteSize + 1 ≤ size
    · simp only [dif_neg all, dif_pos start, Option.bind_some, String.append_assoc]
    · simp only [dif_neg all, dif_neg start, Option.bind_none]

/-- What a buffer holds after a print that fits. -/
theorem text_of_sprintf
    {buff printed : TextBuffer size}
    {text : String}
    (print : buff.sprintf text = some printed) :
    printed.text = buff.text ++ text := by
  unfold sprintf at print
  split at print
  · cases print
    rfl
  · cases print

/-- What a buffer holds after the first print, if the text fits. -/
theorem sprintf_cleared
    (positive : 0 < size)
    (text : String) :
    ((cleared positive).sprintf text).map TextBuffer.text =
      if text.utf8ByteSize + 1 ≤ size then some text else none := by
  simp only [sprintf, cleared, String.empty_append]
  split
  · rfl
  · rfl

namespace Prints

theorem sprintf (text : String) :
    Prints (fun buff : TextBuffer size => buff.sprintf text) text :=
  fun _ => rfl

/-- One part of a program after the other. -/
theorem bind
    {first second : TextBuffer size → Option (TextBuffer size)}
    {start rest : String}
    (printsStart : Prints first start)
    (printsRest : Prints second rest) :
    Prints (fun buff => (first buff).bind second) (start ++ rest) := by
  intro buff
  change (first buff).bind second = _
  rw [sprintf_append, printsStart buff]
  exact congrArg _ (funext printsRest)

/-- A loop prints what its passes print. -/
theorem foldlM
    {body : TextBuffer size → Item → Option (TextBuffer size)}
    {text : Item → String}
    {items : List Item}
    (each : ∀ item ∈ items, Prints (body · item) (text item)) :
    Prints (fun buff => items.foldlM body buff) (String.join (items.map text)) := by
  induction items with
  | nil =>
      intro buff
      simp [sprintf_empty]
  | cons item rest inductionHypothesis =>
      have later := inductionHypothesis fun other member =>
        each other (List.mem_cons_of_mem _ member)
      have both := (each item List.mem_cons_self).bind later
      intro buff
      simpa using both buff

end Prints

theorem join_flatMap
    (texts : Item → List String)
    (items : List Item) :
    String.join (items.flatMap texts) =
      String.join (items.map fun item => String.join (texts item)) := by
  induction items with
  | nil =>
      rfl
  | cons item rest inductionHypothesis =>
      simp [inductionHypothesis]

/-! ## Sizes -/

theorem utf8ByteSize_join
    (texts : List String) :
    (String.join texts).utf8ByteSize = (texts.map String.utf8ByteSize).sum := by
  induction texts with
  | nil =>
      rfl
  | cons text rest inductionHypothesis =>
      simp [String.join_cons, inductionHypothesis]

/-! ## Decimal numbers -/

theorem utf8ByteSize_eq_length
    {text : String}
    (ascii : ∀ char ∈ text.toList, char.utf8Size = 1) :
    text.utf8ByteSize = text.length := by
  obtain ⟨chars, rfl⟩ : ∃ chars, text = String.ofList chars := ⟨text.toList, by simp⟩
  simp only [String.toList_ofList] at ascii
  induction chars with
  | nil =>
      rfl
  | cons char rest inductionHypothesis =>
      have head := ascii char List.mem_cons_self
      have tail := inductionHypothesis fun other member =>
        ascii other (List.mem_cons_of_mem _ member)
      simp only [String.length_ofList] at tail
      simp [String.ofList_cons, head, tail, Nat.add_comm]

theorem utf8ByteSize_natRepr
    (value : Nat) :
    value.repr.utf8ByteSize = value.repr.length := by
  apply utf8ByteSize_eq_length
  intro char member
  rw [Nat.repr_eq_ofList_toDigits, String.toList_ofList] at member
  have digit := Nat.isDigit_of_mem_toDigits (by decide) (by decide) member
  have small : char.val ≤ 57 := by
    simp only [Char.isDigit, Bool.and_eq_true, decide_eq_true_eq] at digit
    exact digit.2
  have ascii : char.val ≤ 0x7F := UInt32.le_trans small (by decide)
  unfold Char.utf8Size
  exact if_pos ascii

/-- A number below 10 to the power `width` has at most `width` digits. -/
theorem utf8ByteSize_natRepr_le
    {value width : Nat}
    (positive : 0 < width)
    (below : value < 10 ^ width) :
    value.repr.utf8ByteSize ≤ width := by
  rw [utf8ByteSize_natRepr]
  exact (Nat.length_repr_le_iff positive).mpr below

/-- `%d` of a word of 32 bits: ten digits and a sign. -/
theorem utf8ByteSize_int32_le
    (value : Int32) :
    (toString value.toInt).utf8ByteSize ≤ 11 := by
  have low := value.le_toInt
  have high := value.toInt_lt
  rw [Int.toString_eq_repr, Int.repr_eq_if]
  split
  · have digits : value.toInt.toNat.repr.utf8ByteSize ≤ 10 :=
      utf8ByteSize_natRepr_le (by decide) (by omega)
    omega
  · have digits : (-value.toInt).toNat.repr.utf8ByteSize ≤ 10 :=
      utf8ByteSize_natRepr_le (by decide) (by omega)
    have sign : "-".utf8ByteSize = 1 := by decide
    rw [String.utf8ByteSize_append, sign]
    omega

end TextBuffer

end Pma
