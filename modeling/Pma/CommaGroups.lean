import Mathlib.Data.List.TakeWhile
import Mathlib.Tactic.Linarith
import Pma.Interface

namespace Pma

/-!
# Numbers with commas

The command line of a router groups digits by commas.  `stringToInt` and
`stringTollInt` of `snmp/routerget.c` put the groups together and read the number.
-/

namespace CommaGroups

/-! ## The functions -/

/-- `strncat` to `snum[100]`; nothing when the text and its terminator do not fit. -/
def strncat (snum src : List Char) (num : Nat) : Option (List Char) :=
  if (snum ++ src.take num).length + 1 ≤ 100 then some (snum ++ src.take num) else none

/-- The branch of the loop: `snum`, `pre` and `num` after it. -/
def branch (snum pre : List Char) (num : Nat) (char : Char) (next : List Char) :
    Option (List Char × List Char × Nat) :=
  if char = ',' then
    (strncat snum pre num).map fun snum => (snum, next, 0)
  else
    some (snum, pre, num)

/-- The loop, which is at `next`, and the `strncat` behind it. -/
def collect (snum pre : List Char) (num : Nat) : List Char → Option (List Char)
  | [] => strncat snum pre num
  | char :: next =>
      (branch snum pre num char next).bind fun (snum, pre, num) => collect snum pre (num + 1) next

/-- `stringToInt`; nothing when it writes outside of its array. -/
def stringToInt : Option (List Char) → Option Int32
  | none => some (-1)
  | some string => (collect [] string 0 string).map fun snum => atoi (String.ofList snum)

/-- `stringTollInt`; nothing when it writes outside of its array. -/
def stringTollInt : Option (List Char) → Option Int64
  | none => some (-1)
  | some string => (collect [] string 0 string).map fun snum => atoll (String.ofList snum)

/-- A text of at most 99 digits and commas. -/
structure Grouped where
  chars : List Char
  grouped : ∀ char ∈ chars, char = ',' ∨ char.isDigit
  short : chars.length ≤ 99

/-- The number without its commas. -/
def Grouped.value (text : Grouped) : Nat :=
  digitsValue (text.chars.filter fun char => char ≠ ',')

/-- Behind the second comma there are only commas, or every digit is a zero. -/
def Grouped.ReadWhole (text : Grouped) : Prop :=
  (∀ char ∈ (text.chars.erase ',').dropWhile Char.isDigit, char = ',') ∨
    ∀ char ∈ text.chars, char = ',' ∨ char = '0'

/-! ## Digits -/

theorem digitsValue_append
    (first second : List Char) :
    digitsValue (first ++ second) =
      10 ^ second.length * digitsValue first + digitsValue second := by
  induction second using List.reverseRecOn with
  | nil =>
      simp [digitsValue]
  | append_singleton rest char inductionHypothesis =>
      have last (chars : List Char) :
          digitsValue (chars ++ [char]) =
            10 * digitsValue chars + (char.toNat - '0'.toNat) := by
        unfold digitsValue
        rw [List.foldl_append]
        rfl
      rw [← List.append_assoc, last, last, inductionHypothesis, List.length_append,
        List.length_singleton, pow_succ]
      ring

/-- Digits write zero if and only if each of them is a zero. -/
theorem digitsValue_eq_zero
    {digits : List Char}
    (all : ∀ char ∈ digits, char.isDigit) :
    digitsValue digits = 0 ↔ ∀ char ∈ digits, char = '0' := by
  induction digits with
  | nil =>
      exact iff_of_true rfl fun char member => absurd member List.not_mem_nil
  | cons char rest inductionHypothesis =>
      have isZero : char.toNat - '0'.toNat = 0 ↔ char = '0' := by
        have digit := all char List.mem_cons_self
        have above : '0'.toNat ≤ char.toNat := by
          simp only [Char.isDigit, Bool.and_eq_true, decide_eq_true_eq] at digit
          exact digit.1
        constructor
        · intro none
          exact Char.toNat_inj.mp (Nat.le_antisymm (Nat.sub_eq_zero_iff_le.mp none) above)
        · intro isZero
          rw [isZero]
          exact Nat.sub_self _
      have head := digitsValue_append [char] rest
      have single : digitsValue [char] = char.toNat - '0'.toNat := by
        simp [digitsValue]
      rw [List.singleton_append, single] at head
      rw [head, Nat.add_eq_zero_iff, Nat.mul_eq_zero, isZero, List.forall_mem_cons,
        inductionHypothesis fun char member => all char (List.mem_cons_of_mem _ member)]
      constructor
      · rintro ⟨never | zero, others⟩
        · exact absurd never (Nat.pow_pos (by decide)).ne'
        · exact ⟨zero, others⟩
      · rintro ⟨zero, others⟩
        exact ⟨Or.inr zero, others⟩

/-- Further digits change a number unless there are none or all are zeros. -/
theorem digitsValue_append_eq_iff
    {first second : List Char}
    (firstDigits : ∀ char ∈ first, char.isDigit)
    (secondDigits : ∀ char ∈ second, char.isDigit) :
    digitsValue first = digitsValue (first ++ second) ↔
      second = [] ∨ ∀ char ∈ first ++ second, char = '0' := by
  have allDigits : ∀ char ∈ first ++ second, char.isDigit := by
    intro char member
    rcases List.mem_append.mp member with inFirst | inSecond
    · exact firstDigits char inFirst
    · exact secondDigits char inSecond
  rw [← digitsValue_eq_zero allDigits]
  have value := digitsValue_append first second
  cases second with
  | nil =>
      simp
  | cons char rest =>
      have tens : 10 ≤ 10 ^ (char :: rest).length := by
        rw [List.length_cons]
        exact Nat.le_self_pow (Nat.succ_ne_zero _) 10
      have grows := Nat.mul_le_mul_right (digitsValue first) tens
      constructor
      · intro same
        right
        omega
      · rintro (empty | zero)
        · cases empty
        · omega

/-! ## Putting groups together -/

/--
Behind the first comma a group is copied with the comma at its end, since `num`
is one already when the group begins.
-/
theorem collect_later
    {snum group next : List Char}
    (fits : (snum ++ group ++ next).length < 100) :
    collect snum (group ++ next) (group.length + 1) next = some (snum ++ group ++ next) := by
  induction next generalizing snum group with
  | nil =>
      have copy : (group ++ []).take (group.length + 1) = group := by
        rw [List.append_nil, List.take_of_length_le (Nat.le_succ _)]
      unfold collect strncat
      rw [copy, List.append_nil]
      rw [List.append_nil] at fits
      exact if_pos fits
  | cons char next inductionHypothesis =>
      unfold collect branch
      by_cases comma : char = ','
      · have copy : (group ++ char :: next).take (group.length + 1) = group ++ [char] := by
          rw [List.take_append, List.take_of_length_le (Nat.le_succ _), Nat.add_sub_cancel_left]
          rfl
        have room : (snum ++ (group ++ [char])).length + 1 ≤ 100 := by
          simp only [List.length_append, List.length_cons, List.length_nil] at fits ⊢
          omega
        have later : collect (snum ++ (group ++ [char])) ([] ++ next) (([] : List Char).length + 1)
            next = some (snum ++ (group ++ [char]) ++ [] ++ next) := by
          apply inductionHypothesis
          simp only [List.length_append, List.length_cons, List.length_nil] at fits ⊢
          omega
        rw [if_pos comma]
        unfold strncat
        rw [copy, if_pos room]
        simpa using later
      · have later : collect snum (group ++ [char] ++ next) ((group ++ [char]).length + 1) next =
            some (snum ++ (group ++ [char]) ++ next) := by
          apply inductionHypothesis
          simp only [List.length_append, List.length_cons, List.length_nil] at fits ⊢
          omega
        rw [if_neg comma]
        simpa using later

/-- Of all commas only the first one is left out. -/
theorem collect_first
    {group next : List Char}
    (noComma : ',' ∉ group)
    (fits : (group ++ next).length < 100) :
    collect [] (group ++ next) group.length next = some ((group ++ next).erase ',') := by
  induction next generalizing group with
  | nil =>
      have whole : ([] ++ (group ++ []).take group.length : List Char) = group := by
        rw [List.append_nil, List.take_length, List.nil_append]
      unfold collect strncat
      rw [whole, List.append_nil, List.erase_of_not_mem noComma]
      rw [List.append_nil] at fits
      exact if_pos fits
  | cons char next inductionHypothesis =>
      unfold collect branch
      by_cases comma : char = ','
      · have copy : ([] ++ (group ++ char :: next).take group.length : List Char) = group := by
          rw [List.take_left, List.nil_append]
        have later : collect group ([] ++ next) (([] : List Char).length + 1) next =
            some (group ++ [] ++ next) := by
          apply collect_later
          simp only [List.length_append, List.length_cons, List.length_nil] at fits ⊢
          omega
        have room : group.length + 1 ≤ 100 := by
          rw [List.length_append] at fits
          omega
        rw [if_pos comma]
        unfold strncat
        rw [copy, if_pos room, comma, List.erase_append_right _ noComma, List.erase_cons_head]
        simpa using later
      · have noComma' : ',' ∉ group ++ [char] := by
          intro member
          rcases List.mem_append.mp member with inGroup | last
          · exact noComma inGroup
          · exact comma (List.mem_singleton.mp last).symm
        have later : collect [] (group ++ [char] ++ next) (group ++ [char]).length next =
            some ((group ++ [char] ++ next).erase ',') := by
          apply inductionHypothesis noComma'
          simp only [List.length_append, List.length_cons, List.length_nil] at fits ⊢
          omega
        rw [if_neg comma]
        simpa using later

/-! ## Reading the number -/

/-- A digit is no comma. -/
theorem ne_comma_of_isDigit
    {char : Char}
    (digit : char.isDigit) :
    char ≠ ',' := by
  rintro rfl
  exact absurd digit (by decide)

/-- A text of digits and commas is read up to its first comma. -/
theorem writtenNumber_eq
    {chars : List Char}
    (grouped : ∀ char ∈ chars, char = ',' ∨ char.isDigit) :
    writtenNumber (String.ofList chars) = digitsValue (chars.takeWhile Char.isDigit) := by
  cases chars with
  | nil =>
      rfl
  | cons char rest =>
      have starts := grouped char List.mem_cons_self
      have notSpace : isSpace char = false := by
        rcases starts with rfl | digit
        · decide
        · simp only [Char.isDigit, Bool.and_eq_true, decide_eq_true_eq] at digit
          have above : 48 ≤ char.toNat := digit.1
          unfold isSpace
          apply decide_eq_false
          rintro (rfl | blank)
          · exact absurd above (by decide)
          · omega
      have plain : signedNumber (char :: rest) = leadingNumber (char :: rest) := by
        unfold signedNumber
        split
        · next same =>
            cases same
            exact absurd starts (by decide)
        · next same =>
            cases same
            exact absurd starts (by decide)
        · rfl
      unfold writtenNumber
      rw [String.toList_ofList, List.dropWhile_cons_of_neg (by simp [notSpace]), plain]
      rfl

namespace Grouped

variable (text : Grouped)

/-- What is read of a text: the digits up to its second comma. -/
def front : List Char :=
  (text.chars.erase ',').takeWhile Char.isDigit

/-- The digits behind the second comma. -/
def behind : List Char :=
  ((text.chars.erase ',').dropWhile Char.isDigit).filter fun char => char ≠ ','

theorem isDigit_front
    (char : Char)
    (member : char ∈ text.front) :
    char.isDigit :=
  List.mem_takeWhile_imp member

theorem isDigit_behind
    (char : Char)
    (member : char ∈ text.behind) :
    char.isDigit := by
  obtain ⟨inRest, other⟩ := List.mem_filter.mp member
  have inText : char ∈ text.chars :=
    List.mem_of_mem_erase ((List.dropWhile_sublist _).subset inRest)
  rcases text.grouped char inText with comma | digit
  · exact absurd comma (of_decide_eq_true other)
  · exact digit

/-- The digits of a text are those in front of the second comma and those behind. -/
theorem filter_eq :
    (text.chars.filter fun char => char ≠ ',') = text.front ++ text.behind := by
  have noComma : ',' ∉ text.chars.filter fun char => char ≠ ',' := by
    simp
  have digits : (text.front.filter fun char => char ≠ ',') = text.front := by
    apply List.filter_eq_self.mpr
    intro char member
    exact decide_eq_true (ne_comma_of_isDigit (text.isDigit_front char member))
  have parts : text.front ++ (text.chars.erase ',').dropWhile Char.isDigit =
      text.chars.erase ',' :=
    List.takeWhile_append_dropWhile
  rw [← List.erase_of_not_mem noComma, List.erase_filter, ← parts, List.filter_append, digits]
  rfl

theorem collect_eq : collect [] text.chars 0 text.chars = some (text.chars.erase ',') := by
  have short := text.short
  have fits : ([] ++ text.chars).length < 100 := by
    rw [List.nil_append]
    exact Nat.lt_succ_of_le short
  exact collect_first List.not_mem_nil fits

theorem value_eq : text.value = digitsValue (text.front ++ text.behind) := by
  unfold value
  rw [filter_eq]

theorem front_le_value : digitsValue text.front ≤ text.value := by
  rw [value_eq, digitsValue_append]
  have least : 1 ≤ 10 ^ text.behind.length := Nat.one_le_pow _ _ (by decide)
  have grows := Nat.mul_le_mul_right (digitsValue text.front) least
  omega

theorem strtol_eq
    (inRange : text.value < 2 ^ 63) :
    strtol (String.ofList (text.chars.erase ',')) = digitsValue text.front := by
  have grouped : ∀ char ∈ text.chars.erase ',', char = ',' ∨ char.isDigit := by
    intro char member
    exact text.grouped char (List.mem_of_mem_erase member)
  have below := text.front_le_value
  unfold strtol toLong
  rw [writtenNumber_eq grouped]
  change max _ (min _ (digitsValue text.front : Int)) = _
  omega

/-- The digits up to the second comma write the number if and only if they are the whole one. -/
theorem readWhole_iff : digitsValue text.front = text.value ↔ text.ReadWhole := by
  rw [value_eq, digitsValue_append_eq_iff text.isDigit_front text.isDigit_behind, ← filter_eq]
  unfold ReadWhole behind
  apply or_congr
  · simp [List.filter_eq_nil_iff]
  · constructor
    · intro zeros char member
      by_cases comma : char = ','
      · exact Or.inl comma
      · exact Or.inr (zeros char (List.mem_filter.mpr ⟨member, decide_eq_true comma⟩))
    · intro zeros char member
      obtain ⟨inText, other⟩ := List.mem_filter.mp member
      exact (zeros char inText).resolve_left (of_decide_eq_true other)

end Grouped

/-! ## What the functions return -/

/-- A reading of the digits up to the second comma is right if and only if they are all. -/
theorem read_eq_iff
    {Result : Type}
    {text : Grouped}
    {read : String → Result}
    {toInt : Result → Int}
    (isInt : toInt (read (String.ofList (text.chars.erase ','))) = digitsValue text.front) :
    (∃ result,
        (collect [] text.chars 0 text.chars).map (fun snum => read (String.ofList snum)) =
            some result ∧
          toInt result = text.value) ↔
      text.ReadWhole := by
  rw [text.collect_eq, Option.map_some, ← text.readWhole_iff]
  constructor
  · rintro ⟨result, returned, same⟩
    cases returned
    rw [isInt] at same
    exact Int.ofNat_inj.mp same
  · intro same
    refine ⟨_, rfl, ?_⟩
    rw [isInt, same]

/-- The `int` of a text is its number if and only if it is read as a whole. -/
theorem stringToInt_eq_iff
    {text : Grouped}
    (inRange : text.value < 2 ^ 31) :
    (∃ result, stringToInt (some text.chars) = some result ∧ result.toInt = text.value) ↔
      text.ReadWhole := by
  have below := text.front_le_value
  have isInt : (atoi (String.ofList (text.chars.erase ','))).toInt = digitsValue text.front := by
    unfold atoi
    rw [text.strtol_eq (Nat.lt_trans inRange (by decide))]
    apply Int32.toInt_ofInt_of_le
    · omega
    · omega
  exact read_eq_iff isInt

/-- The `long long` of a text is its number if and only if it is read as a whole. -/
theorem stringTollInt_eq_iff
    {text : Grouped}
    (inRange : text.value < 2 ^ 63) :
    (∃ result, stringTollInt (some text.chars) = some result ∧ result.toInt = text.value) ↔
      text.ReadWhole := by
  have below := text.front_le_value
  have isInt :
      (atoll (String.ofList (text.chars.erase ','))).toInt = digitsValue text.front := by
    unfold atoll
    rw [text.strtol_eq inRange]
    apply Int64.toInt_ofInt_of_le
    · omega
    · omega
  exact read_eq_iff isInt

/--
For a text whose number is in the range of the result, either function returns
the number if and only if there are only commas behind the second comma or every
digit is a zero.
-/
theorem commaGroups_iff
    (text : Grouped) :
    (text.value < 2 ^ 31 →
        ((∃ result, stringToInt (some text.chars) = some result ∧ result.toInt = text.value) ↔
          text.ReadWhole)) ∧
      (text.value < 2 ^ 63 →
        ((∃ result, stringTollInt (some text.chars) = some result ∧
            result.toInt = text.value) ↔
          text.ReadWhole)) :=
  ⟨stringToInt_eq_iff, stringTollInt_eq_iff⟩

/-- A number with one comma. -/
def thousands : Grouped where
  chars := "12,345".toList
  grouped := by
    intro char member
    have all : "12,345".toList.all (fun char => char = ',' || char.isDigit) := by decide
    simpa using List.all_eq_true.mp all char member
  short := by decide

/-- A number with two commas. -/
def millions : Grouped where
  chars := "1,234,567".toList
  grouped := by
    intro char member
    have all : "1,234,567".toList.all (fun char => char = ',' || char.isDigit) := by decide
    simpa using List.all_eq_true.mp all char member
  short := by decide

/-- A number with one comma is read as a whole. -/
theorem commaGroups_thousands :
    thousands.ReadWhole ∧
      (∃ result, stringToInt (some thousands.chars) = some result ∧ result.toInt = 12345) ∧
      ∃ result, stringTollInt (some thousands.chars) = some result ∧ result.toInt = 12345 := by
  have isValue : thousands.value = 12345 := by decide
  have behind : (thousands.chars.erase ',').dropWhile Char.isDigit = [] := by decide
  have whole : thousands.ReadWhole := by
    refine Or.inl fun char member => ?_
    rw [behind] at member
    cases member
  have both := commaGroups_iff thousands
  rw [isValue] at both
  exact ⟨whole, (both.1 (by decide)).mpr whole, (both.2 (by decide)).mpr whole⟩

/-- Of a number with two commas the last group is lost. -/
theorem stringToInt_millions :
    millions.value = 1234567 ∧
      stringToInt (some millions.chars) = some 1234 ∧
      stringTollInt (some millions.chars) = some 1234 ∧
      ¬∃ result, stringToInt (some millions.chars) = some result ∧
        result.toInt = millions.value := by
  have isValue : millions.value = 1234567 := by decide
  have returns : stringToInt (some millions.chars) = some 1234 := by decide
  refine ⟨isValue, returns, by decide, ?_⟩
  rintro ⟨result, returned, same⟩
  rw [returns] at returned
  cases returned
  rw [isValue] at same
  exact absurd same (by decide)

end CommaGroups

end Pma
