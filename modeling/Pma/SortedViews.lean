import Mathlib.Data.List.Lex
import Mathlib.Data.List.Pairwise
import Mathlib.Order.Lattice

namespace Pma.SortedViews

/-!
# Reading a sorted view page by page

The keys of a view are words, in the order of a dictionary, so that the keys
under a stem lie together.  A reader asks for what follows a key and gets some of
it, a page, from which it takes the key to ask for next.  The view may change
between two pages.
-/

variable {Letter Value : Type} [LinearOrder Letter]

/-- Values under strictly increasing keys. -/
structure View (Letter Value : Type) [LinearOrder Letter] where
  entries : List (List Letter × Value)
  increasing : entries.Pairwise fun first second => first.1 < second.1

namespace View

variable (view : View Letter Value)

/-- What follows a key. -/
def after (key : List Letter) : List (List Letter × Value) :=
  view.entries.filter fun entry => key < entry.1

/-- What follows a key under a stem. -/
def under (stem key : List Letter) : List (List Letter × Value) :=
  view.entries.filter fun entry => stem <+: entry.1 ∧ key < entry.1

/--
A page of what follows a key: at least one entry and at most so many.  Beyond the
view there are keys without a value.
-/
def IsPage (key : List Letter) (size : Nat) (page : List (List Letter × Option Value)) : Prop :=
  page ≠ [] ∧ page.length ≤ size ∧ ∃ beyond, beyond ≠ [] ∧
    page <+: (view.after key).map (Prod.map id some) ++ beyond.map fun key => (key, none)

/-- The largest page, with the key itself beyond the view. -/
def page (key : List Letter) (size : Nat) : List (List Letter × Option Value) :=
  ((view.after key).map (Prod.map id some) ++ [(key, none)]).take size

/-- It is a page, if it may hold anything. -/
theorem mem_under
    {stem key : List Letter}
    {entry : List Letter × Value} :
    entry ∈ view.under stem key ↔ entry ∈ view.entries ∧ stem <+: entry.1 ∧ key < entry.1 := by
  simp [under]

theorem under_increasing (stem key : List Letter) :
    (view.under stem key).Pairwise fun first second => first.1 < second.1 :=
  view.increasing.sublist List.filter_sublist

end View

/-- A key between two keys under a stem is under it. -/
theorem prefix_between
    {stem low middle high : List Letter}
    (lowUnder : stem <+: low)
    (highUnder : stem <+: high)
    (above : low < middle)
    (below : middle < high) :
    stem <+: middle := by
  induction stem generalizing low middle high with
  | nil =>
      exact List.nil_prefix
  | cons letter stem inductionHypothesis =>
      obtain ⟨lowRest, rfl⟩ := lowUnder
      obtain ⟨highRest, rfl⟩ := highUnder
      cases middle with
      | nil =>
          exact absurd above (List.not_lt_nil _)
      | cons first rest =>
          rw [List.cons_append, List.cons_lt_cons_iff] at above below
          rcases above with less | ⟨same, restAbove⟩
          · rcases below with more | ⟨equal, _⟩
            · exact absurd (lt_trans less more) (lt_irrefl letter)
            · exact absurd equal (ne_of_gt less)
          · subst same
            rcases below with more | ⟨_, restBelow⟩
            · exact absurd more (lt_irrefl letter)
            · have restUnder : stem <+: rest :=
                inductionHypothesis (List.prefix_append stem lowRest)
                  (List.prefix_append stem highRest) restAbove restBelow
              exact List.cons_prefix_cons.mpr ⟨rfl, restUnder⟩

/--
What follows a key under a stem begins with all that is under the stem; nothing
behind that is.
-/
theorem after_eq
    (view : View Letter Value)
    {stem key : List Letter}
    (keyUnder : stem <+: key) :
    ∃ others, view.after key = view.under stem key ++ others ∧
      ∀ entry ∈ others, ¬ stem <+: entry.1 := by
  have sorted : (view.after key).Pairwise fun first second => first.1 < second.1 :=
    view.increasing.sublist (List.filter_sublist)
  have above : ∀ entry ∈ view.after key, key < entry.1 := by
    intro entry member
    simpa using (List.mem_filter.mp member).2
  have same : view.under stem key = (view.after key).filter fun entry => stem <+: entry.1 := by
    unfold View.under View.after
    rw [List.filter_filter]
    congr 1
    funext entry
    simp
  rw [same]
  clear same
  generalize view.after key = following at sorted above ⊢
  induction following with
  | nil =>
      exact ⟨[], by simp, by simp⟩
  | cons entry rest inductionHypothesis =>
      obtain ⟨entryFirst, restSorted⟩ := List.pairwise_cons.mp sorted
      obtain ⟨others, split, outside⟩ := inductionHypothesis restSorted
        (fun other member => above other (List.mem_cons_of_mem entry member))
      by_cases entryUnder : stem <+: entry.1
      · refine ⟨others, ?_, outside⟩
        rw [List.filter_cons_of_pos (by simpa using entryUnder), List.cons_append, ← split]
      · -- what follows would be under the stem with the entry in between
        have restOutside : ∀ other ∈ rest, ¬ stem <+: other.1 := by
          intro other member otherUnder
          exact entryUnder (prefix_between keyUnder otherUnder
            (above entry List.mem_cons_self) (entryFirst other member))
        refine ⟨entry :: rest, ?_, ?_⟩
        · have none : (entry :: rest).filter (fun other => stem <+: other.1) = [] := by
            apply List.filter_eq_nil_iff.mpr
            intro other member
            rcases List.mem_cons.mp member with isEntry | inRest
            · subst isEntry
              simpa using entryUnder
            · simpa using restOutside other inRest
          rw [none, List.nil_append]
        · intro other member
          rcases List.mem_cons.mp member with isEntry | inRest
          · subst isEntry
            exact entryUnder
          · exact restOutside other inRest

/-- A key at which a reader of what is under a stem has to stop. -/
def Stops (stem key : List Letter) (entry : List Letter × Option Value) : Prop :=
  entry.2 = none ∨ (key < entry.1 ∧ ¬ stem <+: entry.1)

/--
A page behind a key under the stem: some of what is left under the stem, at least
one, or all of it and a key to stop at.
-/
theorem page_cases
    {view : View Letter Value}
    {stem key : List Letter}
    {size : Nat}
    {page : List (List Letter × Option Value)}
    (keyUnder : stem <+: key)
    (isPage : view.IsPage key size page) :
    ∃ taken rest, view.under stem key = taken ++ rest ∧
      ((page = taken.map (Prod.map id some) ∧ taken ≠ []) ∨
        (rest = [] ∧ ∃ stop tail,
          page = taken.map (Prod.map id some) ++ stop :: tail ∧ Stops stem key stop)) := by
  obtain ⟨notEmpty, _, beyond, someBeyond, isPrefix⟩ := isPage
  obtain ⟨others, split, outside⟩ := after_eq view keyUnder
  rw [split, List.map_append, List.append_assoc] at isPrefix
  have underMapPrefix :
      (view.under stem key).map (Prod.map id some) <+:
        (view.under stem key).map (Prod.map id some) ++
          (others.map (Prod.map id some) ++ beyond.map fun key => (key, none)) :=
    List.prefix_append _ _
  rcases List.prefix_or_prefix_of_prefix isPrefix underMapPrefix with within | ⟨tail, isPage⟩
  · obtain ⟨left, isLeft⟩ := within
    obtain ⟨taken, rest, isUnder, isTaken, _⟩ := List.map_eq_append_iff.mp isLeft.symm
    refine ⟨taken, rest, isUnder, .inl ⟨isTaken.symm, ?_⟩⟩
    intro empty
    subst empty
    exact notEmpty isTaken.symm
  · rw [← isPage] at isPrefix ⊢
    have tailPrefix := (List.prefix_append_right_inj _).mp isPrefix
    cases tail with
    | nil =>
        refine ⟨view.under stem key, [], (List.append_nil _).symm, .inl ⟨List.append_nil _, ?_⟩⟩
        intro empty
        rw [empty] at isPage
        exact notEmpty isPage.symm
    | cons stop tail =>
        refine ⟨view.under stem key, [], (List.append_nil _).symm, .inr ⟨rfl, stop, tail, rfl, ?_⟩⟩
        have member := tailPrefix.subset List.mem_cons_self
        rcases List.mem_append.mp member with inOthers | inBeyond
        · obtain ⟨entry, entryMember, rfl⟩ := List.mem_map.mp inOthers
          have follows : entry ∈ view.after key := by
            rw [split]
            exact List.mem_append_right _ entryMember
          have above : key < entry.1 := by
            simpa using (List.mem_filter.mp follows).2
          exact .inr ⟨above, outside entry entryMember⟩
        · obtain ⟨key, _, rfl⟩ := List.mem_map.mp inBeyond
          exact .inl rfl

end Pma.SortedViews
