import Mathlib.Data.List.Induction
import Mathlib.Data.List.Nodup
import Pma.SnmpNames

namespace Pma.Snmp

/-!
# The cells of a walk

What a variable does to the array: its row is found or added, with room for it,
and its value is written into one cell.
-/

/-! ## The rows -/

/-- Each text once, where it comes first. -/
def firsts (texts : List Text) : List Text :=
  texts.foldl (fun seen text => if text ∈ seen then seen else seen ++ [text]) []

theorem firsts_append
    (texts : List Text)
    (text : Text) :
    firsts (texts ++ [text]) =
      if text ∈ firsts texts then firsts texts else firsts texts ++ [text] := by
  unfold firsts
  rw [List.foldl_append]
  rfl

theorem mem_firsts
    {texts : List Text}
    {text : Text} :
    text ∈ firsts texts ↔ text ∈ texts := by
  induction texts using List.reverseRecOn with
  | nil =>
      rfl
  | append_singleton texts last inductionHypothesis =>
      rw [firsts_append, List.mem_append, List.mem_singleton, ← inductionHypothesis]
      by_cases seen : last ∈ firsts texts
      · rw [if_pos seen]
        constructor
        · exact Or.inl
        · intro either
          rcases either with inTexts | isLast
          · exact inTexts
          · rw [isLast]
            exact seen
      · rw [if_neg seen, List.mem_append, List.mem_singleton]

theorem nodup_firsts
    (texts : List Text) :
    (firsts texts).Nodup := by
  induction texts using List.reverseRecOn with
  | nil =>
      exact List.nodup_nil
  | append_singleton texts last inductionHypothesis =>
      rw [firsts_append]
      by_cases seen : last ∈ firsts texts
      · rw [if_pos seen]
        exact inductionHypothesis
      · rw [if_neg seen]
        rw [← List.concat_eq_append]
        exact inductionHypothesis.concat seen

/-! ## Places in the array -/

/-- A place is that of one row and one column. -/
theorem place_inj
    {fields row col otherRow otherCol : Nat}
    (inside : col < fields)
    (otherInside : otherCol < fields)
    (same : row * fields + col = otherRow * fields + otherCol) :
    row = otherRow ∧ col = otherCol := by
  have rows : row = otherRow := by
    have divided := congrArg (· / fields) same
    have positive : 0 < fields := lt_of_le_of_lt (Nat.zero_le col) inside
    simpa [Nat.add_comm, Nat.add_mul_div_right _ _ positive, Nat.div_eq_of_lt inside,
      Nat.div_eq_of_lt otherInside] using divided
  subst rows
  exact ⟨rfl, Nat.add_left_cancel same⟩

/-- The places of a row are inside the array if the row is. -/
theorem place_lt_iff
    {fields row col rows : Nat}
    (inside : col < fields) :
    row * fields + col < rows * fields ↔ row < rows := by
  constructor
  · intro small
    by_contra large
    have product := Nat.mul_le_mul_right fields (not_lt.mp large)
    omega
  · intro small
    have product := Nat.mul_le_mul_right fields (Nat.succ_le_of_lt small)
    rw [Nat.succ_mul] at product
    omega

/-- A name has its value in this row and this column. -/
def Lies (table : Table) (index : Oid → Text) (indices : List Text) (name : Oid) (row col : Nat) :
    Prop :=
  table.columns[col]? = some (table.column name) ∧
    indices[row]? = some (index (table.index name))

/-- The array has room for the rows, the values so far are in their cells, and no others. -/
structure Cells (table : Table) (index : Oid → Text) (done : List (Oid × Text)) (walk : Walk) :
    Prop where
  size : walk.data.length = walk.allocated * table.fields
  room : walk.allocated = 0 ∧ walk.indices = [] ∨ walk.indices.length < walk.allocated
  texts : ∀ entry ∈ done, ∀ row col, Lies table index walk.indices entry.1 row col →
    walk.data[row * table.fields + col]? = some (.text (oneLine entry.2))
  nulls : ∀ row < walk.allocated, ∀ col < table.fields,
    (∀ entry ∈ done, ¬ Lies table index walk.indices entry.1 row col) →
      walk.data[row * table.fields + col]? = some .null

/-- What making room leaves alone. -/
structure Grown (table : Table) (walk grown : Walk) : Prop where
  name : grown.name = walk.name
  indices : grown.indices = walk.indices
  extraColumns : grown.extraColumns = walk.extraColumns
  exitval : grown.exitval = walk.exitval
  more : walk.allocated ≤ grown.allocated
  size : grown.data.length = grown.allocated * table.fields
  old : ∀ place < walk.data.length, grown.data[place]? = walk.data[place]?
  new : ∀ place, walk.data.length ≤ place → place < grown.data.length →
    grown.data[place]? = some .null

theorem clearCells_rear
    (data : List Cell)
    (count : Nat) :
    clearCells (data ++ List.replicate count .garbage) data.length count =
      some (data ++ List.replicate count .null) := by
  unfold clearCells
  rw [if_pos (by simp)]
  simp

/-- There is room for one more row, and what is new is null. -/
theorem reserve_grown
    {table : Table}
    {walk : Walk}
    (size : walk.data.length = walk.allocated * table.fields)
    (room : walk.allocated = 0 ∧ walk.indices = [] ∨ walk.indices.length < walk.allocated) :
    ∃ grown, reserve table walk (walk.indices.length + 1) = some grown ∧
      Grown table walk grown ∧ walk.indices.length + 1 < grown.allocated := by
  unfold reserve
  by_cases fits : walk.indices.length + 1 < walk.allocated
  · rw [if_pos fits]
    refine ⟨walk, rfl, ?_, fits⟩
    exact
      { name := rfl
        indices := rfl
        extraColumns := rfl
        exitval := rfl
        more := le_rfl
        size := size
        old := fun _ _ => rfl
        new := fun place behind inside => absurd inside (not_lt.mpr behind) }
  · rw [if_neg fits]
    rcases room with ⟨zero, empty⟩ | enough
    · rw [if_pos zero]
      refine ⟨_, rfl, ?_, by simp [empty]⟩
      have nothing : walk.data.length = 0 := by
        rw [size, zero, Nat.zero_mul]
      exact
        { name := rfl
          indices := rfl
          extraColumns := rfl
          exitval := rfl
          more := by
            rw [zero]
            exact Nat.zero_le 10
          size := List.length_replicate
          old := by
            intro place inside
            rw [nothing] at inside
            exact absurd inside (Nat.not_lt_zero place)
          new := by
            intro place _ inside
            have bound : place < 10 * table.fields := by
              simpa using inside
            simp [bound] }
    · -- the row that fills the array makes it grow
      have full : walk.indices.length + 1 = walk.allocated :=
        le_antisymm enough (not_lt.mp fits)
      have notZero : walk.allocated ≠ 0 := by
        rw [← full]
        exact Nat.succ_ne_zero _
      have start : (walk.indices.length + 1) * table.fields = walk.data.length := by
        rw [full, size]
      have count : walk.allocated + 10 - (walk.indices.length + 1) = 10 := by
        rw [full, Nat.add_sub_cancel_left]
      rw [if_neg notZero]
      dsimp only
      rw [start, count, clearCells_rear]
      refine ⟨_, rfl, ?_, ?_⟩
      · exact
          { name := rfl
            indices := rfl
            extraColumns := rfl
            exitval := rfl
            more := Nat.le_add_right _ 10
            size := by
              simp [size, Nat.add_mul]
            old := by
              intro place inside
              exact List.getElem?_append_left inside
            new := by
              intro place behind inside
              have bound : place - walk.data.length < 10 * table.fields := by
                simp at inside
                omega
              dsimp only
              rw [List.getElem?_append_right behind, List.getElem?_replicate, if_pos bound] }
      · have bigger : walk.indices.length + 1 < walk.allocated + 10 := by
          rw [full]
          exact Nat.lt_add_of_pos_right (Nat.succ_pos 9)
        exact bigger

/-! ## A variable -/

section

variable
  {table : Table}
  {index : Oid → Text}
  {done : List (Oid × Text)}
  {walk : Walk}

/-- Room for more rows changes no cell. -/
theorem Cells.grown
    {grown : Walk}
    (cells : Cells table index done walk)
    (more : Grown table walk grown)
    (room : walk.indices.length + 1 < grown.allocated) :
    Cells table index done grown where
  size := more.size
  room := by
    rw [more.indices]
    exact .inr (Nat.lt_of_succ_lt room)
  texts := by
    intro entry member row col lies
    rw [more.indices] at lies
    have isText := cells.texts entry member row col lies
    have inside : row * table.fields + col < walk.data.length :=
      (List.getElem?_eq_some_iff.mp isText).1
    rw [more.old _ inside, isText]
  nulls := by
    intro row rowInside col colInside absent
    rw [more.indices] at absent
    rcases Nat.lt_or_ge row walk.allocated with oldRow | newRow
    · have inside : row * table.fields + col < walk.data.length := by
        rw [cells.size]
        exact (place_lt_iff colInside).mpr oldRow
      rw [more.old _ inside]
      exact cells.nulls row oldRow col colInside absent
    · apply more.new
      · rw [cells.size]
        exact (Nat.mul_le_mul_right _ newRow).trans (Nat.le_add_right _ col)
      · rw [more.size]
        exact (place_lt_iff colInside).mpr rowInside

/-- The rows are those of the values so far. -/
def Rows (table : Table) (index : Oid → Text) (done : List (Oid × Text)) (indices : List Text) :
    Prop :=
  indices = firsts
    ((done.filter fun entry => table.column entry.1 ∈ table.columns).map fun entry =>
      index (table.index entry.1))

theorem Rows.mem
    {indices : List Text}
    {entry : Oid × Text}
    (rows : Rows table index done indices)
    (member : entry ∈ done)
    (known : table.column entry.1 ∈ table.columns) :
    index (table.index entry.1) ∈ indices := by
  rw [rows, mem_firsts]
  apply List.mem_map_of_mem
  rw [List.mem_filter]
  exact ⟨member, by simpa using known⟩

/-- A new row has no values yet. -/
theorem Cells.newRow
    {text : Text}
    (cells : Cells table index done walk)
    (rows : Rows table index done walk.indices)
    (absent : text ∉ walk.indices)
    (room : walk.indices.length + 1 < walk.allocated) :
    Cells table index done { walk with indices := walk.indices ++ [text] } where
  size := cells.size
  room := by
    right
    simpa using room
  texts := by
    intro entry member row col lies
    obtain ⟨isCol, isRow⟩ := lies
    dsimp only at isRow ⊢
    have known : table.column entry.1 ∈ table.columns := List.mem_of_getElem? isCol
    rcases Nat.lt_or_ge row walk.indices.length with oldRow | newRow
    · rw [List.getElem?_append_left oldRow] at isRow
      exact cells.texts entry member row col ⟨isCol, isRow⟩
    · rw [List.getElem?_append_right newRow] at isRow
      have isText : index (table.index entry.1) = text :=
        List.mem_singleton.mp (List.mem_of_getElem? isRow)
      rw [← isText] at absent
      exact absurd (rows.mem member known) absent
  nulls := by
    intro row rowInside col colInside none
    apply cells.nulls row rowInside col colInside
    intro entry member lies
    obtain ⟨isCol, isRow⟩ := lies
    have inside : row < walk.indices.length := (List.getElem?_eq_some_iff.mp isRow).1
    apply none entry member
    refine ⟨isCol, ?_⟩
    dsimp only
    rw [List.getElem?_append_left inside, isRow]

/-- What finding or adding a row does. -/
structure RowFound (table : Table) (index : Oid → Text) (done : List (Oid × Text))
    (walk : Walk) (text : Text) (found : Walk) (row : Nat) : Prop where
  name : found.name = walk.name
  extraColumns : found.extraColumns = walk.extraColumns
  exitval : found.exitval = walk.exitval
  indices : found.indices = if text ∈ walk.indices then walk.indices else walk.indices ++ [text]
  place : found.indices[row]? = some text
  inside : row < found.allocated
  cells : Cells table index done found

theorem rowOf_found
    (text : Text)
    (cells : Cells table index done walk)
    (rows : Rows table index done walk.indices) :
    ∃ found row, rowOf table walk text = some (found, row) ∧
      RowFound table index done walk text found row := by
  unfold rowOf
  cases place : walk.indices.findIdx? (· = text) with
  | some row =>
      obtain ⟨inside, isText, _⟩ := List.findIdx?_eq_some_iff_getElem.mp place
      have isRow : walk.indices[row]? = some text := by
        rw [List.getElem?_eq_getElem inside]
        simpa using isText
      have seen : text ∈ walk.indices := List.mem_of_getElem? isRow
      refine ⟨walk, row, rfl, ?_⟩
      exact
        { name := rfl
          extraColumns := rfl
          exitval := rfl
          indices := by rw [if_pos seen]
          place := isRow
          inside := by
            rcases cells.room with ⟨_, empty⟩ | room
            · rw [empty] at seen
              exact absurd seen List.not_mem_nil
            · exact lt_trans inside room
          cells := cells }
  | none =>
      have absent : text ∉ walk.indices := by
        intro member
        have none := List.findIdx?_eq_none_iff.mp place text member
        simp at none
      obtain ⟨grown, reserved, more, room⟩ := reserve_grown cells.size cells.room
      have enough : grown.indices.length < grown.allocated := by
        rw [more.indices]
        exact Nat.lt_of_succ_lt room
      have stillRows : Rows table index done grown.indices := by
        rw [more.indices]
        exact rows
      refine ⟨{ grown with indices := grown.indices ++ [text] }, grown.indices.length, ?_, ?_⟩
      · simp only [reserved, Option.bind_some, if_pos enough]
      · exact
          { name := more.name
            extraColumns := more.extraColumns
            exitval := more.exitval
            indices := by
              rw [if_neg absent]
              dsimp only
              rw [more.indices]
            place := by simp
            inside := enough
            cells := (cells.grown more room).newRow stillRows (by rw [more.indices]; exact absent)
              (by rw [more.indices]; exact room) }

/-- A value is written into the cell of its column and its row. -/
theorem Cells.store
    {row col : Nat}
    {name : Oid}
    {text : Text}
    (value : Text)
    (cells : Cells table index done walk)
    (distinctColumns : table.columns.Nodup)
    (distinctRows : walk.indices.Nodup)
    (fresh : ∀ entry ∈ done, ¬ Lies table index walk.indices entry.1 row col)
    (isText : text = index (table.index name))
    (isCol : table.columns[col]? = some (table.column name))
    (isRow : walk.indices[row]? = some text)
    (inside : row < walk.allocated) :
    ∃ stored, store table walk row col value = some stored ∧
      stored = { walk with
        data := walk.data.set (row * table.fields + col) (.text (oneLine value)) } ∧
      Cells table index (done ++ [(name, value)]) stored := by
  subst isText
  have colInside : col < table.fields := (List.getElem?_eq_some_iff.mp isCol).1
  have placeInside : row * table.fields + col < walk.data.length := by
    rw [cells.size]
    exact (place_lt_iff colInside).mpr inside
  refine ⟨_, by unfold Snmp.store; rw [if_pos placeInside], rfl, ?_⟩
  refine
    { size := by simpa using cells.size
      room := cells.room
      texts := ?_
      nulls := ?_ }
  · intro entry member otherRow otherCol lies
    dsimp only at lies ⊢
    obtain ⟨entryCol, entryRow⟩ := lies
    have otherInside : otherCol < table.fields := (List.getElem?_eq_some_iff.mp entryCol).1
    rcases List.mem_append.mp member with inDone | isNew
    · -- an earlier value lies elsewhere
      have elsewhere : row * table.fields + col ≠ otherRow * table.fields + otherCol := by
        intro same
        obtain ⟨sameRow, sameCol⟩ := place_inj colInside otherInside same
        subst sameRow sameCol
        exact fresh entry inDone ⟨entryCol, entryRow⟩
      rw [List.getElem?_set_ne elsewhere]
      exact cells.texts entry inDone otherRow otherCol ⟨entryCol, entryRow⟩
    · have isEntry := List.mem_singleton.mp isNew
      subst isEntry
      have sameCol : otherCol = col :=
        (List.getElem?_inj otherInside distinctColumns).mp (entryCol.trans isCol.symm)
      have rowLt : otherRow < walk.indices.length := (List.getElem?_eq_some_iff.mp entryRow).1
      have sameRow : otherRow = row :=
        (List.getElem?_inj rowLt distinctRows).mp (entryRow.trans isRow.symm)
      subst sameCol sameRow
      rw [List.getElem?_set_self placeInside]
  · intro otherRow rowInside otherCol otherInside absent
    dsimp only at absent rowInside ⊢
    have elsewhere : row * table.fields + col ≠ otherRow * table.fields + otherCol := by
      intro same
      obtain ⟨sameRow, sameCol⟩ := place_inj colInside otherInside same
      subst sameRow sameCol
      exact absent (name, value) (List.mem_append_right done List.mem_cons_self) ⟨isCol, isRow⟩
    rw [List.getElem?_set_ne elsewhere]
    exact cells.nulls otherRow rowInside otherCol otherInside
      (fun entry member => absent entry (List.mem_append_left _ member))

end

end Pma.Snmp
