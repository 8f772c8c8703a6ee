import Mathlib.Tactic.Ring

namespace Pma

/-!
# Addresses and their texts

`inet_ntoa` and `inet_pton` for addresses of four bytes.  An address is kept as it
lies in memory: its first byte is the low one.
-/

/-- A byte of an address as it lies in memory. -/
def addressByte (addr : UInt32) (place : UInt32) : Nat :=
  ((addr >>> (8 * place)) % 256).toNat

/-- `inet_ntoa`: the bytes in the order of their addresses. -/
def inetNtoa (addr : UInt32) : String :=
  (addressByte addr 0).repr ++ "." ++ (addressByte addr 1).repr ++ "." ++
    (addressByte addr 2).repr ++ "." ++ (addressByte addr 3).repr

/-- The value of digits. -/
def digitsValue (digits : List Char) : Nat :=
  digits.foldl (fun value char => 10 * value + (char.toNat - '0'.toNat)) 0

/-- A byte in decimal digits; `inet_pton` takes no zero in front of other digits. -/
def octet (digits : List Char) : Option Nat :=
  if digits ≠ [] ∧ digits.all Char.isDigit ∧ (digits.length = 1 ∨ digits.head? ≠ some '0') ∧
      digitsValue digits ≤ 255 then
    some (digitsValue digits)
  else
    none

/-- `inet_pton` for `AF_INET`: the address, if the text is four bytes between dots. -/
def inetPton (text : String) : Option UInt32 :=
  match text.toList.splitOn '.' with
  | [first, second, third, fourth] => do
      let first ← octet first
      let second ← octet second
      let third ← octet third
      let fourth ← octet fourth
      return UInt32.ofNat (first + 256 * second + 65536 * third + 16777216 * fourth)
  | _ => none

theorem addressByte_lt
    (addr place : UInt32) :
    addressByte addr place < 256 := by
  unfold addressByte
  rw [UInt32.toNat_mod]
  exact Nat.mod_lt _ (by decide)

/-- An address is put together from its bytes. -/
theorem addressByte_sum
    (addr : UInt32) :
    addressByte addr 0 + 256 * addressByte addr 1 + 65536 * addressByte addr 2 +
      16777216 * addressByte addr 3 = addr.toNat := by
  have bounded := addr.toNat_lt
  simp only [addressByte, UInt32.toNat_mod, UInt32.toNat_shiftRight, Nat.shiftRight_eq_div_pow]
  have first : (8 * (0 : UInt32)).toNat % 32 = 0 := by decide
  have second : (8 * (1 : UInt32)).toNat % 32 = 8 := by decide
  have third : (8 * (2 : UInt32)).toNat % 32 = 16 := by decide
  have fourth : (8 * (3 : UInt32)).toNat % 32 = 24 := by decide
  have base : (256 : UInt32).toNat = 256 := by decide
  rw [first, second, third, fourth, base]
  omega

theorem octet_repr
    {value : Nat}
    (byte : value < 256) :
    octet value.repr.toList = some value ∧ '.' ∉ value.repr.toList := by
  have each :
      ∀ value : Fin 256,
        octet (value : Nat).repr.toList = some (value : Nat) ∧
          '.' ∉ (value : Nat).repr.toList := by
    decide +kernel
  exact each ⟨value, byte⟩

/-- The text of an address is read back. -/
theorem inetPton_inetNtoa
    (addr : UInt32) :
    inetPton (inetNtoa addr) = some addr := by
  have first := octet_repr (addressByte_lt addr 0)
  have second := octet_repr (addressByte_lt addr 1)
  have third := octet_repr (addressByte_lt addr 2)
  have fourth := octet_repr (addressByte_lt addr 3)
  have parts :
      (inetNtoa addr).toList.splitOn '.' =
        [(addressByte addr 0).repr.toList, (addressByte addr 1).repr.toList,
          (addressByte addr 2).repr.toList, (addressByte addr 3).repr.toList] := by
    have dot : ".".toList = ['.'] := by decide
    simp only [inetNtoa, String.toList_append, dot, List.append_assoc, List.cons_append,
      List.nil_append]
    rw [List.splitOn_append_cons_self_of_not_mem first.2,
      List.splitOn_append_cons_self_of_not_mem second.2,
      List.splitOn_append_cons_self_of_not_mem third.2, List.splitOn_eq_singleton fourth.2]
  unfold inetPton
  rw [parts]
  simp only [first.1, second.1, third.1, fourth.1, Option.bind_eq_bind, Option.bind_some,
    addressByte_sum, UInt32.ofNat_toNat]
  rfl

/-- A byte is written in digits. -/
theorem isDigit_of_octet
    {digits : List Char}
    {value : Nat}
    (reads : octet digits = some value)
    (char : Char)
    (member : char ∈ digits) :
    char.isDigit := by
  unfold octet at reads
  split at reads
  · next good =>
      exact List.all_eq_true.mp good.2.1 char member
  · cases reads

/-- An address is written in digits and dots. -/
theorem isDigit_of_inetPton
    {text : String}
    {addr : UInt32}
    (reads : inetPton text = some addr)
    (char : Char)
    (member : char ∈ text.toList) :
    char = '.' ∨ char.isDigit := by
  have whole : ['.'].intercalate (text.toList.splitOn '.') = text.toList :=
    List.intercalate_splitOn '.'
  unfold inetPton at reads
  split at reads
  · next first second third fourth parts =>
      simp only [Option.bind_eq_bind, Option.bind_eq_some_iff] at reads
      obtain ⟨_, firstReads, _, secondReads, _, thirdReads, _, fourthReads, _⟩ := reads
      rw [parts] at whole
      rw [← whole] at member
      simp only [List.intercalate_cons_cons, List.intercalate_singleton, List.mem_append,
        List.mem_singleton] at member
      rcases member with (inFirst | dot) | (inSecond | dot) | (inThird | dot) | inFourth
      · exact Or.inr (isDigit_of_octet firstReads char inFirst)
      · exact Or.inl dot
      · exact Or.inr (isDigit_of_octet secondReads char inSecond)
      · exact Or.inl dot
      · exact Or.inr (isDigit_of_octet thirdReads char inThird)
      · exact Or.inl dot
      · exact Or.inr (isDigit_of_octet fourthReads char inFourth)
  · cases reads

end Pma
