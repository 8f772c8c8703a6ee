import Mathlib.Data.List.Basic

namespace Pma.Words

/-!
# Words between blanks

A text is cut into words at its blanks.  A reader takes them one at a time: it
skips blanks, takes what stands before the next blank and leaves the rest.
-/

variable {Item : Type*}

/-- The words of a text. -/
def words (blank : Item → Bool) (text : List Item) : List (List Item) :=
  (text.splitOnP blank).filter fun word => !word.isEmpty

/-- The next word, empty when there is none, and the text behind it. -/
def scanWord (blank : Item → Bool) (text : List Item) : List Item × List Item :=
  let start := text.dropWhile blank
  (start.takeWhile fun item => !blank item, start.dropWhile fun item => !blank item)

variable {blank : Item → Bool}

@[simp]
theorem words_nil :
    words blank [] = [] := by
  simp [words, List.splitOnP_nil]

/-- A blank ends the word in front of it. -/
theorem words_append_blank
    {item : Item}
    (isBlank : blank item = true)
    (before behind : List Item) :
    words blank (before ++ item :: behind) = words blank before ++ words blank behind := by
  unfold words
  rw [List.splitOnP_append_cons before behind isBlank, List.filter_append]

theorem words_cons_blank
    {item : Item}
    (isBlank : blank item = true)
    (text : List Item) :
    words blank (item :: text) = words blank text := by
  have split := words_append_blank isBlank [] text
  simpa using split

theorem words_dropWhile
    (text : List Item) :
    words blank (text.dropWhile blank) = words blank text := by
  induction text with
  | nil =>
      rfl
  | cons item rest inductionHypothesis =>
      cases isBlank : blank item with
      | true =>
          rw [List.dropWhile_cons_of_pos isBlank, inductionHypothesis, words_cons_blank isBlank]
      | false =>
          rw [List.dropWhile_cons_of_neg (by simp [isBlank])]

theorem words_of_none_blank
    {word : List Item}
    (none : ∀ item ∈ word, blank item = false)
    (nonempty : word ≠ []) :
    words blank word = [word] := by
  unfold words
  rw [List.splitOnP_eq_singleton none]
  simp [nonempty]

/-- A text that starts with a word. -/
theorem words_cons_notBlank
    {item : Item}
    (notBlank : blank item = false)
    (rest : List Item) :
    words blank (item :: rest) =
      (item :: rest).takeWhile (fun item => !blank item) ::
        words blank ((item :: rest).dropWhile fun item => !blank item) := by
  have whole :=
    List.takeWhile_append_dropWhile (p := fun item => !blank item) (l := item :: rest)
  have isWord :
      ∀ other ∈ (item :: rest).takeWhile (fun item => !blank item), blank other = false := by
    have holds := List.all_eq_true.mp (List.all_takeWhile (p := fun item => !blank item)
      (l := item :: rest))
    intro other member
    simpa using holds other member
  have nonempty : (item :: rest).takeWhile (fun item => !blank item) ≠ [] := by
    simp [notBlank]
  cases behind : (item :: rest).dropWhile (fun item => !blank item) with
  | nil =>
      rw [behind, List.append_nil] at whole
      rw [words_nil, whole]
      rw [whole] at isWord
      exact words_of_none_blank isWord (List.cons_ne_nil _ _)
  | cons next later =>
      have isBlank : blank next = true := by
        have first := List.head_dropWhile_not (fun item => !blank item) (l := item :: rest)
          (by simp [behind])
        simpa [behind] using first
      rw [behind] at whole
      have split := words_append_blank isBlank
        ((item :: rest).takeWhile fun item => !blank item) later
      rw [whole, words_of_none_blank isWord nonempty] at split
      rw [words_cons_blank isBlank]
      exact split

/-- A reader either finds no word and has read to the end, or takes the first word. -/
theorem scanWord_cases
    (blank : Item → Bool)
    (text : List Item) :
    scanWord blank text = ([], []) ∧ words blank text = [] ∨
      (scanWord blank text).1 ≠ [] ∧
        words blank text = (scanWord blank text).1 :: words blank (scanWord blank text).2 := by
  rw [← words_dropWhile text]
  cases start : text.dropWhile blank with
  | nil =>
      left
      simp [scanWord, start]
  | cons item rest =>
      right
      have notBlank : blank item = false := by
        have first := List.head_dropWhile_not blank (l := text) (by simp [start])
        simpa [start] using first
      have word : (scanWord blank text).1 = (item :: rest).takeWhile fun item => !blank item := by
        simp only [scanWord, start]
      have behind : (scanWord blank text).2 = (item :: rest).dropWhile fun item => !blank item := by
        simp only [scanWord, start]
      rw [word, behind]
      constructor
      · simp [notBlank]
      · exact words_cons_notBlank notBlank rest

theorem length_scanWord_le
    (text : List Item) :
    (scanWord blank text).2.length ≤ text.length :=
  ((List.dropWhile_sublist _).trans (List.dropWhile_sublist _)).length_le

/-- A reader gets on. -/
theorem length_scanWord_lt
    {text : List Item}
    (nonempty : text ≠ []) :
    (scanWord blank text).2.length < text.length := by
  cases text with
  | nil =>
      exact absurd rfl nonempty
  | cons item rest =>
      simp only [scanWord]
      cases isBlank : blank item with
      | true =>
          rw [List.dropWhile_cons_of_pos isBlank]
          exact Nat.lt_succ_of_le (length_scanWord_le rest)
      | false =>
          rw [List.dropWhile_cons_of_neg (by simp [isBlank]),
            List.dropWhile_cons_of_pos (by simp [isBlank])]
          exact Nat.lt_succ_of_le (List.dropWhile_sublist _).length_le

/-- A bound on the words of a text holds for what the reader takes and leaves. -/
theorem scanWord_short
    {text : List Item}
    {bound : Nat}
    (positive : 0 < bound)
    (short : ∀ word ∈ words blank text, word.length < bound) :
    (scanWord blank text).1.length < bound ∧
      ∀ word ∈ words blank (scanWord blank text).2, word.length < bound := by
  rcases scanWord_cases blank text with ⟨none, -⟩ | ⟨-, first⟩
  · rw [none]
    exact ⟨positive, by simp⟩
  · rw [first, List.forall_mem_cons] at short
    exact short

end Pma.Words
