import Mathlib.Data.List.Nodup

namespace Pma.FirstMatch

/-!
# Changing the first match of a list

A program looks an item up by going through a list, and changes the one it finds
in place.  When it finds none it may put a new item at the end.
-/

variable {Item View Key : Type*}

/-- Change the first item that matches. -/
def updateFirst (holds : Item → Bool) (change : Item → Item) : List Item → List Item
  | [] => []
  | item :: rest =>
      if holds item then
        change item :: rest
      else
        item :: updateFirst holds change rest

/-- Change the first item that matches, or what is put at the end when there is none. -/
def upsert (holds : Item → Bool) (change : Item → Item) (new : Item) (items : List Item) :
    List Item :=
  if items.any holds then
    updateFirst holds change items
  else
    items ++ [change new]

variable {holds other : Item → Bool} {change : Item → Item} {new : Item} {items : List Item}

theorem updateFirst_nil : updateFirst holds change [] = [] :=
  rfl

theorem updateFirst_cons
    (item : Item)
    (rest : List Item) :
    updateFirst holds change (item :: rest) =
      if holds item then change item :: rest else item :: updateFirst holds change rest :=
  rfl

/-! ## What a change leaves alone -/

theorem map_updateFirst
    {view : Item → View}
    (same : ∀ item, holds item = true → view (change item) = view item)
    (items : List Item) :
    (updateFirst holds change items).map view = items.map view := by
  induction items with
  | nil =>
      rfl
  | cons item rest inductionHypothesis =>
      rw [updateFirst_cons]
      cases found : holds item with
      | true =>
          simp [same item found]
      | false =>
          simp [inductionHypothesis]

theorem find?_updateFirst_other
    (apart : ∀ item, holds item = true → other item = false)
    (stillApart : ∀ item, holds item = true → other (change item) = false)
    (items : List Item) :
    (updateFirst holds change items).find? other = items.find? other := by
  induction items with
  | nil =>
      rfl
  | cons item rest inductionHypothesis =>
      rw [updateFirst_cons]
      cases found : holds item with
      | true =>
          simp [apart item found, stillApart item found]
      | false =>
          simp [List.find?_cons, inductionHypothesis]

/-- A change that leaves the item it finds as it is leaves the list as it is. -/
theorem updateFirst_eq_self_of_find?
    (same : ∀ item, items.find? holds = some item → change item = item) :
    updateFirst holds change items = items := by
  induction items with
  | nil =>
      rfl
  | cons item rest inductionHypothesis =>
      rw [updateFirst_cons]
      cases found : holds item with
      | true =>
          rw [if_pos rfl, same item (List.find?_cons_of_pos found)]
      | false =>
          have later := inductionHypothesis fun other isFound =>
            same other (by rwa [List.find?_cons_of_neg (by simp [found])])
          rw [if_neg Bool.false_ne_true, later]

/-- What all items have and a change keeps, all items have afterwards. -/
theorem forall_updateFirst
    {property : Item → Prop}
    (kept : ∀ item, property item → property (change item))
    (all : ∀ item ∈ items, property item) :
    ∀ item ∈ updateFirst holds change items, property item := by
  induction items with
  | nil =>
      exact all
  | cons item rest inductionHypothesis =>
      rw [List.forall_mem_cons] at all
      rw [updateFirst_cons]
      cases holds item with
      | true =>
          rw [if_pos rfl, List.forall_mem_cons]
          exact ⟨kept item all.1, all.2⟩
      | false =>
          rw [if_neg Bool.false_ne_true, List.forall_mem_cons]
          exact ⟨all.1, inductionHypothesis all.2⟩

/-! ## What a change reaches -/

theorem find?_updateFirst
    (keeps : ∀ item, holds item = true → holds (change item) = true)
    (items : List Item) :
    (updateFirst holds change items).find? holds = (items.find? holds).map change := by
  induction items with
  | nil =>
      rfl
  | cons item rest inductionHypothesis =>
      rw [updateFirst_cons]
      cases found : holds item with
      | true =>
          simp [found, keeps item found]
      | false =>
          simp [found, inductionHypothesis]

/-- With distinct keys the first match is the only one. -/
theorem updateFirst_eq_map
    [DecidableEq Key]
    {key : Item → Key}
    (sought : Key)
    (distinct : (items.map key).Nodup) :
    updateFirst (fun item => key item = sought) change items =
      items.map fun item => if key item = sought then change item else item := by
  induction items with
  | nil =>
      rfl
  | cons item rest inductionHypothesis =>
      obtain ⟨fresh, distinctRest⟩ := List.nodup_cons.mp distinct
      rw [updateFirst_cons]
      by_cases found : key item = sought
      · have others :
            (rest.map fun item => if key item = sought then change item else item) = rest := by
          rw [List.map_congr_left (g := id), List.map_id]
          intro item member
          have apart : key item ≠ sought := by
            intro same
            exact fresh (List.mem_map.mpr ⟨item, member, same.trans found.symm⟩)
          exact if_neg apart
        simp [found, others]
      · simp [found, inductionHypothesis distinctRest]

theorem getElem?_updateFirst
    (items : List Item)
    (index : Nat) :
    (updateFirst holds change items)[index]? =
      if items.findIdx? holds = some index then items[index]?.map change else items[index]? := by
  induction items generalizing index with
  | nil =>
      simp [updateFirst_nil]
  | cons item rest inductionHypothesis =>
      rw [updateFirst_cons]
      rw [List.findIdx?_cons]
      cases found : holds item with
      | true =>
          cases index with
          | zero =>
              simp
          | succ index =>
              simp
      | false =>
          cases index with
          | zero =>
              simp
          | succ index =>
              simp [inductionHypothesis]

/-- The last match with one more item in front. -/
theorem getLast?_filter_cons
    (item : Item)
    (rest : List Item) :
    ((item :: rest).filter holds).getLast? =
      ((rest.filter holds).getLast?).or (if holds item then some item else none) := by
  cases found : holds item with
  | true =>
      rw [List.filter_cons_of_pos found, List.getLast?_cons]
      cases (rest.filter holds).getLast? with
      | none =>
          rfl
      | some last =>
          rfl
  | false =>
      rw [List.filter_cons_of_neg (by simp [found])]
      simp

/-! ## Changing or adding -/

theorem any_eq_isSome
    (items : List Item) :
    items.any holds = (items.find? holds).isSome := by
  rw [Bool.eq_iff_iff, List.find?_isSome, List.any_eq_true]

/-- The item that is looked up afterwards is the changed one, whether it was there or not. -/
theorem find?_upsert
    (keeps : ∀ item, holds item = true → holds (change item) = true)
    (made : holds (change new) = true) :
    (upsert holds change new items).find? holds =
      some (change ((items.find? holds).getD new)) := by
  unfold upsert
  rw [any_eq_isSome]
  cases found : items.find? holds with
  | none =>
      simp [found, made]
  | some item =>
      simp [find?_updateFirst keeps, found]

theorem forall_upsert
    {property : Item → Prop}
    (made : ∀ item, property (change item))
    (all : ∀ item ∈ items, property item) :
    ∀ item ∈ upsert holds change new items, property item := by
  unfold upsert
  split
  · exact forall_updateFirst (fun item _ => made item) all
  · rw [List.forall_mem_append, List.forall_mem_singleton]
    exact ⟨all, made new⟩

theorem find?_upsert_other
    (apart : ∀ item, holds item = true → other item = false)
    (stillApart : ∀ item, holds item = true → other (change item) = false)
    (madeApart : other (change new) = false) :
    (upsert holds change new items).find? other = items.find? other := by
  unfold upsert
  split
  · exact find?_updateFirst_other apart stillApart items
  · simp [List.find?_append, madeApart]

/-- The keys after a change: one more, if the key was not there. -/
theorem map_upsert
    [DecidableEq Key]
    {key : Item → Key}
    {sought : Key}
    (keeps : ∀ item, key item = sought → key (change item) = sought)
    (made : key (change new) = sought) :
    (upsert (fun item => key item = sought) change new items).map key =
      if sought ∈ items.map key then items.map key else items.map key ++ [sought] := by
  have present :
      (items.any fun item => key item = sought) = decide (sought ∈ items.map key) := by
    rw [Bool.eq_iff_iff, List.any_eq_true, decide_eq_true_iff, List.mem_map]
    simp only [decide_eq_true_eq]
  unfold upsert
  rw [present]
  by_cases member : sought ∈ items.map key
  · rw [if_pos (decide_eq_true member), if_pos member]
    apply map_updateFirst
    intro item found
    have found := of_decide_eq_true found
    rw [keeps item found, found]
  · rw [if_neg (by simpa using member), if_neg member, List.map_append, List.map_singleton, made]

theorem nodup_upsert
    [DecidableEq Key]
    {key : Item → Key}
    {sought : Key}
    (keeps : ∀ item, key item = sought → key (change item) = sought)
    (made : key (change new) = sought)
    (distinct : (items.map key).Nodup) :
    ((upsert (fun item => key item = sought) change new items).map key).Nodup := by
  rw [map_upsert keeps made]
  by_cases member : sought ∈ items.map key
  · rwa [if_pos member]
  · rw [if_neg member]
    exact List.Nodup.append distinct (List.nodup_singleton _) (by simpa using member)

end Pma.FirstMatch
