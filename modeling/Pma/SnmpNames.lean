import Pma.SnmpTable

namespace Pma.Snmp

/-!
# The names a walk meets

A walk takes the index of an instance from the printed name and tells by the
beginning of a name whether it is in the table.
-/

/-! ## The printed names -/

/-- How a name is printed before the last dot and the index, as the format has it. -/
def Labelled (table : Table) (label : Text) : Prop :=
  match table.printing.format with
  | .module => ∃ mib object, label = mib ++ ':' :: object ∧ ':' ∉ mib ∧ '.' ∉ object
  | .suffix => '.' ∉ label
  | .full | .numeric | .ucd =>
      ∃ entry column, label = table.tableName ++ '.' :: (entry ++ '.' :: column) ∧
        '.' ∉ entry ∧ '.' ∉ column
  | .other => False

/-- The index in a name. -/
def Table.index (table : Table) (name : Oid) : Oid :=
  name.drop (table.root.length + 1)

/-- The names of the table are printed with their indices, different ones differently. -/
structure Prints (table : Table) (names : List Oid) (index : Oid → Text) : Prop where
  plain : table.printing.extendedIndex = false
  labelled : ∀ name ∈ names, table.column name ∈ table.columns → ∃ label,
    Labelled table label ∧
      table.printing.objid name = label ++ '.' :: index (table.index name)
  faithful : ∀ first ∈ names, ∀ second ∈ names,
    index (table.index first) = index (table.index second) →
      table.index first = table.index second

theorem strchr_append
    {char : Char}
    {before : Text}
    (rest : Text)
    (absent : char ∉ before) :
    strchr char (before ++ char :: rest) = some (char :: rest) := by
  have skips : ∀ other ∈ before, decide (other ≠ char) = true := by
    intro other member
    have different : other ≠ char := by
      intro same
      subst same
      exact absent member
    simpa using different
  unfold strchr
  rw [List.dropWhile_append_of_pos skips, List.dropWhile_cons_of_neg (by simp)]

/-- The index is what follows the label. -/
theorem indexText_labelled
    {table : Table}
    {label : Text}
    (plain : table.printing.extendedIndex = false)
    (labelled : Labelled table label)
    (index : Text) :
    indexText table (label ++ '.' :: index) = some (some index) := by
  have behind :
      ∀ {start}, '.' ∉ start →
        (strchr '.' (start ++ '.' :: index)).map (List.drop 1) = some index := by
    intro start absent
    rw [strchr_append index absent]
    rfl
  have numbers :
      (∃ entry column, label = table.tableName ++ '.' :: (entry ++ '.' :: column) ∧
        '.' ∉ entry ∧ '.' ∉ column) →
      ∃ column, '.' ∉ column ∧
        (if table.tableName.length < (label ++ '.' :: index).length then
          (strchr '.' ((label ++ '.' :: index).drop (table.tableName.length + 1))).map (List.drop 1)
        else
          none) = some (column ++ '.' :: index) := by
    intro printed
    obtain ⟨entry, column, rfl, noneInEntry, noneInColumn⟩ := printed
    refine ⟨column, noneInColumn, ?_⟩
    have dropped :
        (table.tableName ++ '.' :: (entry ++ '.' :: column) ++ '.' :: index).drop
            (table.tableName.length + 1) =
          entry ++ '.' :: (column ++ '.' :: index) := by
      rw [List.append_assoc, List.drop_append, Nat.add_sub_cancel_left,
        List.drop_of_length_le (Nat.le_succ _)]
      simp
    rw [if_pos (by simp), dropped, strchr_append _ noneInEntry]
    rfl
  have start : ∃ start, '.' ∉ start ∧
      labelStart table (label ++ '.' :: index) = some (start ++ '.' :: index) := by
    unfold Labelled at labelled
    unfold labelStart
    cases format : table.printing.format with
    | module =>
        simp only [format] at labelled ⊢
        obtain ⟨mib, object, rfl, noneInModule, noneInObject⟩ := labelled
        refine ⟨object, noneInObject, ?_⟩
        rw [List.append_assoc, List.cons_append, strchr_append _ noneInModule]
        rfl
    | suffix =>
        simp only [format] at labelled ⊢
        exact ⟨label, labelled, rfl⟩
    | full =>
        simp only [format] at labelled ⊢
        exact numbers labelled
    | numeric =>
        simp only [format] at labelled ⊢
        exact numbers labelled
    | ucd =>
        simp only [format] at labelled ⊢
        exact numbers labelled
    | other =>
        simp only [format] at labelled
  obtain ⟨start, absent, isStart⟩ := start
  unfold indexText
  rw [plain, isStart]
  simp only [Bool.false_eq_true, if_false, Option.map_some, behind absent]

/-! ## The comparison of names -/

theorem subid_append_left
    {root rest : Oid}
    {i : Nat}
    (inside : i < root.length) :
    subid (root ++ rest) i = root.getD i 0 := by
  unfold subid
  rw [List.getD_eq_getElem?_getD, List.getD_eq_getElem?_getD, List.getElem?_append_left inside]

/-- Names under the root begin alike. -/
theorem sameRoot_of_prefix
    {root first second : Oid}
    (firstUnder : root <+: first)
    (secondUnder : root <+: second) :
    sameRoot root.length first second = true := by
  obtain ⟨firstRest, rfl⟩ := firstUnder
  obtain ⟨secondRest, rfl⟩ := secondUnder
  unfold sameRoot
  rw [List.all_eq_true]
  intro i member
  have inside : i < root.length := List.mem_range.mp member
  rw [subid_append_left inside, subid_append_left inside, decide_eq_true_eq]

/-- A name that follows one under the root and is not under it does not begin alike. -/
theorem sameRoot_of_outside
    {root key name : Oid}
    (keyUnder : root <+: key)
    (above : key < name)
    (outside : ¬ root <+: name) :
    sameRoot root.length name key = false := by
  by_contra alike
  obtain ⟨keyRest, rfl⟩ := keyUnder
  have same : sameRoot root.length name (root ++ keyRest) = true := by
    simpa using alike
  unfold sameRoot at same
  rw [List.all_eq_true] at same
  have equal : ∀ i < root.length, name.getD i 0 = root.getD i 0 := by
    intro i inside
    have parts := same i (List.mem_range.mpr inside)
    rw [subid_append_left inside, decide_eq_true_eq] at parts
    exact parts
  rcases Nat.lt_or_ge name.length root.length with short | long
  · -- a shorter name would be before the root
    have before : name <+: root := by
      rw [List.prefix_iff_eq_take]
      apply List.ext_getElem
      · rw [List.length_take, Nat.min_eq_left short.le]
      · intro i first second
        have parts := equal i (lt_trans first short)
        simp only [List.getD_eq_getElem?_getD, List.getElem?_eq_getElem first,
          List.getElem?_eq_getElem (lt_trans first short), Option.getD_some] at parts
        rw [List.getElem_take, parts]
    exact List.IsPrefix.le (before.trans (List.prefix_append root keyRest)) above
  · apply outside
    rw [List.prefix_iff_eq_take]
    apply List.ext_getElem
    · rw [List.length_take, Nat.min_eq_left long]
    · intro i first second
      have parts := equal i first
      simp only [List.getD_eq_getElem?_getD, List.getElem?_eq_getElem first,
        List.getElem?_eq_getElem (lt_of_lt_of_le first long), Option.getD_some] at parts
      rw [List.getElem_take, parts]

end Pma.Snmp
