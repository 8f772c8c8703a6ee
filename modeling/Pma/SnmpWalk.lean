import Pma.SnmpCells

namespace Pma.Snmp

/-!
# What a walk of a table finds

The agent has the objects in the order of their names and answers each request
with a page of what follows.  Between two requests values may change and objects
may come and go.  The walk then ends with each value in the cell of its column and
its index, and misses no object that is there all the time.
-/

open SortedViews

/-- The walk has taken these values and no others. -/
structure Filled (table : Table) (index : Oid → Text) (done : List (Oid × Text)) (walk : Walk) :
    Prop where
  rows : Rows table index done walk.indices
  cells : Cells table index done walk
  exitval : walk.exitval = 0
  extra : walk.extraColumns = true ↔ ∃ entry ∈ done, table.column entry.1 ∉ table.columns

/-- Each name is in the table. -/
structure TableNames (table : Table) (names : List Oid) : Prop where
  under : ∀ name ∈ names, table.root <+: name
  instances : ∀ name ∈ names, name = table.root ++ table.column name :: table.index name

/-- What a view has of the table. -/
def Table.inView (table : Table) (view : View Nat Text) : List (Oid × Text) :=
  view.under table.root (table.root ++ [0])

section

variable
  {table : Table}
  {names : List Oid}
  {index : Oid → Text}
  {done : List (Oid × Text)}
  {walk : Walk}

/-- Two names of the table in one cell are the same. -/
theorem name_of_lies
    {indices : List Text}
    {first second : Oid}
    {row col : Nat}
    (tableNames : TableNames table names)
    (prints : Prints table names index)
    (firstName : first ∈ names)
    (secondName : second ∈ names)
    (firstLies : Lies table index indices first row col)
    (secondLies : Lies table index indices second row col) :
    first = second := by
  have sameColumn : table.column first = table.column second :=
    Option.some_inj.mp (firstLies.1.symm.trans secondLies.1)
  have sameText : index (table.index first) = index (table.index second) :=
    Option.some_inj.mp (firstLies.2.symm.trans secondLies.2)
  have sameIndex := prints.faithful first firstName second secondName sameText
  rw [tableNames.instances first firstName, tableNames.instances second secondName, sameColumn,
    sameIndex]

/-- A variable without a column changes no cell. -/
theorem Filled.passed
    {name : Oid}
    (value : Text)
    (filled : Filled table index done walk)
    (unknown : table.column name ∉ table.columns) :
    Filled table index (done ++ [(name, value)]) { walk with extraColumns := true } where
  rows := by
    unfold Rows
    rw [List.filter_append, List.filter_cons_of_neg (by simpa using unknown), List.filter_nil,
      List.append_nil]
    exact filled.rows
  cells :=
    { size := filled.cells.size
      room := filled.cells.room
      texts := by
        intro entry member row col lies
        rcases List.mem_append.mp member with inDone | isNew
        · exact filled.cells.texts entry inDone row col lies
        · rw [List.mem_singleton.mp isNew] at lies
          exact absurd (List.mem_of_getElem? lies.1) unknown
      nulls := by
        intro row rowInside col colInside absent
        exact filled.cells.nulls row rowInside col colInside
          (fun entry member => absent entry (List.mem_append_left _ member)) }
  exitval := filled.exitval
  extra := by
    refine ⟨fun _ => ?_, fun _ => rfl⟩
    exact ⟨(name, value), List.mem_append_right done List.mem_cons_self, unknown⟩

/-- A variable of the table is taken into its cell, if it has a column. -/
theorem takeVariable_filled
    {name : Oid}
    (value : Text)
    (distinct : table.columns.Nodup)
    (tableNames : TableNames table names)
    (prints : Prints table names index)
    (filled : Filled table index done walk)
    (doneNames : ∀ entry ∈ done, entry.1 ∈ names)
    (isName : name ∈ names)
    (fresh : name ∉ done.map Prod.fst)
    (walkUnder : table.root <+: walk.name) :
    ∃ taken, takeVariable table walk (name, some value) = some (taken, true) ∧
      taken.name = walk.name ∧ Filled table index (done ++ [(name, value)]) taken := by
  have alike := sameRoot_of_prefix (tableNames.under name isName) walkUnder
  unfold takeVariable
  dsimp only
  rw [alike, if_neg (by simp)]
  cases isColumn : table.columns.findIdx? (· = table.column name) with
  | none =>
      have unknown : table.column name ∉ table.columns := by
        intro member
        have none := List.findIdx?_eq_none_iff.mp isColumn _ member
        simp at none
      exact ⟨_, rfl, rfl, filled.passed value unknown⟩
  | some col =>
      obtain ⟨colInside, isCol, _⟩ := List.findIdx?_eq_some_iff_getElem.mp isColumn
      have column : table.columns[col]? = some (table.column name) := by
        rw [List.getElem?_eq_getElem colInside]
        simpa using isCol
      have known : table.column name ∈ table.columns := List.mem_of_getElem? column
      obtain ⟨label, labelled, printed⟩ := prints.labelled name isName known
      obtain ⟨found, row, isRow, rowFound⟩ :=
        rowOf_found (index (table.index name)) filled.cells filled.rows
      have newRows : Rows table index (done ++ [(name, value)]) found.indices := by
        unfold Rows
        rw [List.filter_append, List.filter_cons_of_pos (by simpa using known), List.filter_nil,
          List.map_append, List.map_cons, List.map_nil, firsts_append, rowFound.indices,
          ← filled.rows]
      have distinctRows : found.indices.Nodup := by
        rw [newRows]
        exact nodup_firsts _
      have free : ∀ entry ∈ done, ¬ Lies table index found.indices entry.1 row col := by
        intro entry member lies
        have same := name_of_lies tableNames prints (doneNames entry member) isName lies
          ⟨column, rowFound.place⟩
        rw [← same] at fresh
        exact fresh (List.mem_map_of_mem member)
      obtain ⟨stored, isStored, storedEq, cells⟩ :=
        rowFound.cells.store value distinct distinctRows free rfl column rowFound.place
          rowFound.inside
      refine ⟨stored, ?_, ?_, ?_⟩
      · simp only [printed, indexText_labelled prints.plain labelled, isRow, Option.bind_some,
          isStored, Option.map_some]
      · rw [storedEq]
        exact rowFound.name
      · exact
          { rows := by
              rw [storedEq]
              exact newRows
            cells := cells
            exitval := by
              rw [storedEq]
              exact rowFound.exitval.trans filled.exitval
            extra := by
              rw [storedEq]
              dsimp only
              rw [rowFound.extraColumns, filled.extra]
              constructor
              · intro before
                obtain ⟨entry, member, unknown⟩ := before
                exact ⟨entry, List.mem_append_left _ member, unknown⟩
              · intro after
                obtain ⟨entry, member, unknown⟩ := after
                rcases List.mem_append.mp member with inDone | isNew
                · exact ⟨entry, inDone, unknown⟩
                · rw [List.mem_singleton.mp isNew] at unknown
                  exact absurd known unknown }

/-- The name of the last of some entries, or one from before. -/
def lastName {Before : Type} (asName : Oid → Before) (before : Before)
    (entries : List (Oid × Text)) : Before :=
  entries.foldl (fun _ entry => asName entry.1) before

/-- The variables of the table are taken one after the other. -/
theorem takeVariables_filled
    {taken : List (Oid × Text)}
    (lastVar : Option Oid)
    (tail : List Variable)
    (distinct : table.columns.Nodup)
    (tableNames : TableNames table names)
    (prints : Prints table names index)
    (filled : Filled table index done walk)
    (allNames : ∀ entry ∈ done ++ taken, entry.1 ∈ names)
    (once : ((done ++ taken).map Prod.fst).Nodup)
    (walkUnder : table.root <+: walk.name) :
    ∃ after, takeVariables table walk lastVar (taken.map (Prod.map id some) ++ tail) =
        takeVariables table after (lastName some lastVar taken) tail ∧
      after.name = walk.name ∧ Filled table index (done ++ taken) after := by
  induction taken generalizing done walk lastVar with
  | nil =>
      refine ⟨walk, rfl, rfl, ?_⟩
      rw [List.append_nil]
      exact filled
  | cons entry taken inductionHypothesis =>
      obtain ⟨name, value⟩ := entry
      have split : done ++ (name, value) :: taken = (done ++ [(name, value)]) ++ taken := by
        rw [List.append_assoc]
        rfl
      rw [split] at allNames once
      have isName : name ∈ names := allNames (name, value) (by simp)
      have doneNames : ∀ entry ∈ done, entry.1 ∈ names := by
        intro entry member
        exact allNames entry (by simp [member])
      have fresh : name ∉ done.map Prod.fst := by
        intro member
        rw [List.map_append, List.map_append] at once
        have left := (List.nodup_append.mp once).1
        exact (List.nodup_append.mp left).2.2 name member name (by simp) rfl
      obtain ⟨one, isOne, oneName, oneFilled⟩ :=
        takeVariable_filled value distinct tableNames prints filled doneNames isName fresh walkUnder
      obtain ⟨after, isAfter, afterName, afterFilled⟩ :=
        inductionHypothesis (some name) oneFilled allNames once (by rw [oneName]; exact walkUnder)
      refine ⟨after, ?_, afterName.trans oneName, ?_⟩
      · rw [List.map_cons, List.cons_append, takeVariables]
        change (takeVariable table walk (name, some value)).bind _ = _
        rw [isOne, Option.bind_some]
        exact isAfter
      · rw [split]
        exact afterFilled

/-- A variable beyond the table ends the loop. -/
theorem takeVariable_stops
    {key : Oid}
    {stop : Variable}
    (walkName : walk.name = key)
    (keyUnder : table.root <+: key)
    (stops : Stops table.root key stop) :
    takeVariable table walk stop = some (walk, false) := by
  unfold takeVariable
  rcases stops with endOfView | ⟨above, outside⟩
  · rw [endOfView]
  · cases value : stop.2 with
    | none =>
        rfl
    | some value =>
        have differs := sameRoot_of_outside keyUnder above outside
        dsimp only
        rw [walkName, differs, if_pos rfl]

/-- The loop over a page: what it takes, and whether it goes on. -/
theorem takeVariables_page
    {taken : List (Oid × Text)}
    {page : List Variable}
    {running : Bool}
    (distinct : table.columns.Nodup)
    (tableNames : TableNames table names)
    (prints : Prints table names index)
    (filled : Filled table index done walk)
    (allNames : ∀ entry ∈ done ++ taken, entry.1 ∈ names)
    (once : ((done ++ taken).map Prod.fst).Nodup)
    (walkUnder : table.root <+: walk.name)
    (isPage : (page = taken.map (Prod.map id some) ∧ running = true) ∨
      (running = false ∧ ∃ stop tail, page = taken.map (Prod.map id some) ++ stop :: tail ∧
        Stops table.root walk.name stop)) :
    ∃ after, takeVariables table walk none page =
        some (after, lastName some none taken, running) ∧
      after.name = walk.name ∧ Filled table index (done ++ taken) after := by
  rcases isPage with ⟨isPage, isRunning⟩ | ⟨isRunning, stop, tail, isPage, stops⟩
  · obtain ⟨after, takes, afterName, afterFilled⟩ :=
      takeVariables_filled none [] distinct tableNames prints filled allNames once walkUnder
    refine ⟨after, ?_, afterName, afterFilled⟩
    rw [isPage, isRunning, ← List.append_nil (taken.map (Prod.map id some)), takes]
    rfl
  · obtain ⟨after, takes, afterName, afterFilled⟩ :=
      takeVariables_filled none (stop :: tail) distinct tableNames prints filled allNames once
        walkUnder
    refine ⟨after, ?_, afterName, afterFilled⟩
    have stopped := takeVariable_stops afterName walkUnder stops
    rw [isPage, isRunning, takes, takeVariables, stopped]
    rfl

end

/-! ## The requests -/

section

variable
  {table : Table}
  {names : List Oid}
  {index : Oid → Text}
  {view : Nat → View Nat Text}
  {agent : Nat → Oid → Response}

/-- Before a request: what has been taken, from which views, and that nothing was passed by. -/
structure Progress (table : Table) (index : Oid → Text) (view : Nat → View Nat Text)
    (number : Nat) (done : List (Oid × Text)) (walk : Walk) : Prop where
  filled : Filled table index done walk
  name : walk.name = lastName id (table.root ++ [0]) done
  above : table.root ++ [0] ≤ walk.name
  increasing : done.Pairwise fun first second => first.1 < second.1
  upTo : ∀ entry ∈ done, entry.1 ≤ walk.name
  seen : ∀ entry ∈ done, ∃ earlier < number, entry ∈ table.inView (view earlier)
  complete : ∀ name, table.root ++ [0] < name → name ≤ walk.name →
    (∀ earlier < number, name ∈ (table.inView (view earlier)).map Prod.fst) →
      name ∈ done.map Prod.fst

theorem lastName_append
    {Before : Type}
    (asName : Oid → Before)
    (before : Before)
    (first second : List (Oid × Text)) :
    lastName asName before (first ++ second) =
      lastName asName (lastName asName before first) second :=
  List.foldl_append

/-- The last name, with one from before where there is none. -/
theorem lastName_getD
    (before : Oid)
    (entries : List (Oid × Text)) :
    (lastName some none entries).getD before = lastName id before entries := by
  induction entries using List.reverseRecOn with
  | nil =>
      rfl
  | append_singleton entries last _ =>
      rw [lastName_append, lastName_append]
      rfl

/-- What follows a later name also follows the first one. -/
theorem under_mono
    {now : View Nat Text}
    {key : Oid}
    {entry : Oid × Text}
    (above : table.root ++ [0] ≤ key)
    (member : entry ∈ now.under table.root key) :
    entry ∈ table.inView now := by
  obtain ⟨inView, isUnder, isAbove⟩ := now.mem_under.mp member
  exact now.mem_under.mpr ⟨inView, isUnder, lt_of_le_of_lt above isAbove⟩

/-- The name to ask for next is no matter of the cells. -/
theorem Filled.renamed
    {done : List (Oid × Text)}
    {walk : Walk}
    (filled : Filled table index done walk)
    (name : Oid) :
    Filled table index done { walk with name := name } where
  rows := filled.rows
  cells :=
    { size := filled.cells.size
      room := filled.cells.room
      texts := filled.cells.texts
      nulls := filled.cells.nulls }
  exitval := filled.exitval
  extra := filled.extra

theorem lastName_under
    {done : List (Oid × Text)}
    (tableNames : TableNames table names)
    (doneNames : ∀ entry ∈ done, entry.1 ∈ names) :
    table.root <+: lastName id (table.root ++ [0]) done := by
  induction done using List.reverseRecOn with
  | nil =>
      exact List.prefix_append table.root [0]
  | append_singleton done last _ =>
      rw [lastName_append]
      exact tableNames.under last.1 (doneNames last (by simp))

/-- A request takes what follows the name, as far as the page goes. -/
structure Requested (table : Table) (index : Oid → Text) (view : Nat → View Nat Text)
    (number : Nat) (done : List (Oid × Text)) (walk after : Walk) (taken rest : List (Oid × Text))
    (running : Bool) : Prop where
  following : (view number).under table.root walk.name = taken ++ rest
  filled : Filled table index (done ++ taken) after
  name : after.name = lastName id walk.name taken
  goesOn : running = true → taken ≠ []
  stops : running = false → rest = []

theorem takeResponse_requested
    {number : Nat}
    {done : List (Oid × Text)}
    {walk : Walk}
    {vars : List Variable}
    {size : Nat}
    (progress : Progress table index view number done walk)
    (distinct : table.columns.Nodup)
    (tableNames : TableNames table names)
    (prints : Prints table names index)
    (inNames : ∀ number, ∀ entry ∈ table.inView (view number), entry.1 ∈ names)
    (isPage : (view number).IsPage walk.name size vars) :
    ∃ taken rest after running,
      takeResponse table walk (.noError vars) = some (after, running) ∧
        Requested table index view number done walk after taken rest running := by
  have doneNames : ∀ entry ∈ done, entry.1 ∈ names := by
    intro entry member
    obtain ⟨earlier, _, inView⟩ := progress.seen entry member
    exact inNames earlier entry inView
  have walkUnder : table.root <+: walk.name := by
    rw [progress.name]
    exact lastName_under tableNames doneNames
  obtain ⟨taken, rest, following, pages⟩ := page_cases walkUnder isPage
  have sorted : (taken ++ rest).Pairwise fun first second => first.1 < second.1 := by
    rw [← following]
    exact (view number).under_increasing table.root walk.name
  have inUnder : ∀ entry ∈ taken, entry ∈ (view number).under table.root walk.name := by
    intro entry member
    rw [following]
    exact List.mem_append_left rest member
  have takenAbove : ∀ entry ∈ taken, walk.name < entry.1 := by
    intro entry member
    exact ((view number).mem_under.mp (inUnder entry member)).2.2
  have takenNames : ∀ entry ∈ taken, entry.1 ∈ names := by
    intro entry member
    exact inNames number entry (under_mono progress.above (inUnder entry member))
  have allNames : ∀ entry ∈ done ++ taken, entry.1 ∈ names := by
    intro entry member
    rcases List.mem_append.mp member with inDone | inTaken
    · exact doneNames entry inDone
    · exact takenNames entry inTaken
  have increasing : (done ++ taken).Pairwise fun first second => first.1 < second.1 := by
    refine List.pairwise_append.mpr ⟨progress.increasing, (List.pairwise_append.mp sorted).1, ?_⟩
    intro first firstMember second secondMember
    exact lt_of_le_of_lt (progress.upTo first firstMember) (takenAbove second secondMember)
  have once : ((done ++ taken).map Prod.fst).Nodup := by
    unfold List.Nodup
    rw [List.pairwise_map]
    exact increasing.imp fun less => ne_of_lt less
  -- the page ends the walk or not
  have answered : ∀ running,
      ((vars = taken.map (Prod.map id some) ∧ running = true) ∨
        (running = false ∧ ∃ stop tail, vars = taken.map (Prod.map id some) ++ stop :: tail ∧
          Stops table.root walk.name stop)) →
      (running = true → taken ≠ []) → (running = false → rest = []) →
      ∃ after, takeResponse table walk (.noError vars) = some (after, running) ∧
        Requested table index view number done walk after taken rest running := by
    intro running isAnswer goesOn stops
    obtain ⟨after, takes, afterName, afterFilled⟩ :=
      takeVariables_page distinct tableNames prints progress.filled allNames once walkUnder isAnswer
    refine ⟨{ after with name := (lastName some none taken).getD after.name }, ?_, ?_⟩
    · simp only [takeResponse, takes, Option.map_some]
    · exact
        { following := following
          filled := afterFilled.renamed _
          name := by
            dsimp only
            rw [lastName_getD, afterName]
          goesOn := goesOn
          stops := stops }
  rcases pages with ⟨isTaken, someTaken⟩ | ⟨noRest, stop, tail, isStop, stops⟩
  · obtain ⟨after, response, requested⟩ :=
      answered true (.inl ⟨isTaken, rfl⟩) (fun _ => someTaken) (fun wrong => absurd wrong (by simp))
    exact ⟨taken, rest, after, true, response, requested⟩
  · obtain ⟨after, response, requested⟩ :=
      answered false (.inr ⟨rfl, stop, tail, isStop, stops⟩) (fun wrong => absurd wrong (by simp))
        (fun _ => noRest)
    exact ⟨taken, rest, after, false, response, requested⟩

/-- The last of increasing names is the largest. -/
theorem le_lastName
    {key : Oid}
    {entries : List (Oid × Text)}
    (increasing : entries.Pairwise fun first second => first.1 < second.1)
    (above : ∀ entry ∈ entries, key < entry.1) :
    key ≤ lastName id key entries ∧ ∀ entry ∈ entries, entry.1 ≤ lastName id key entries := by
  induction entries using List.reverseRecOn with
  | nil =>
      exact ⟨le_rfl, fun entry member => absurd member List.not_mem_nil⟩
  | append_singleton entries last _ =>
      have isLast : lastName id key (entries ++ [last]) = last.1 := by
        rw [lastName_append]
        rfl
      rw [isLast]
      refine ⟨(above last (by simp)).le, ?_⟩
      intro entry member
      rcases List.mem_append.mp member with inEntries | atEnd
      · exact ((List.pairwise_append.mp increasing).2.2 entry inEntries last (by simp)).le
      · rw [List.mem_singleton.mp atEnd]

variable
  {number : Nat}
  {done taken rest : List (Oid × Text)}
  {walk after : Walk}
  {running : Bool}

theorem Requested.sorted
    (requested : Requested table index view number done walk after taken rest running) :
    (taken ++ rest).Pairwise fun first second => first.1 < second.1 := by
  rw [← requested.following]
  exact (view number).under_increasing table.root walk.name

/-- What is taken lies behind the name and up to the next one. -/
theorem Requested.bounds
    (requested : Requested table index view number done walk after taken rest running) :
    walk.name ≤ after.name ∧ ∀ entry ∈ taken, walk.name < entry.1 ∧ entry.1 ≤ after.name := by
  have takenAbove : ∀ entry ∈ taken, walk.name < entry.1 := by
    intro entry member
    have inUnder : entry ∈ (view number).under table.root walk.name := by
      rw [requested.following]
      exact List.mem_append_left rest member
    exact ((view number).mem_under.mp inUnder).2.2
  obtain ⟨walkLow, takenLow⟩ :=
    le_lastName (List.pairwise_append.mp requested.sorted).1 takenAbove
  rw [← requested.name] at walkLow takenLow
  exact ⟨walkLow, fun entry member => ⟨takenAbove entry member, takenLow entry member⟩⟩

/-- What a page leaves out is behind the next name. -/
theorem Requested.rest_behind
    (requested : Requested table index view number done walk after taken rest running) :
    ∀ entry ∈ rest, after.name < entry.1 := by
  intro entry member
  rcases List.eq_nil_or_concat' taken with rfl | ⟨front, last, rfl⟩
  · have inUnder : entry ∈ (view number).under table.root walk.name := by
      rw [requested.following]
      exact List.mem_append_right [] member
    rw [requested.name]
    exact ((view number).mem_under.mp inUnder).2.2
  · have isLast : after.name = last.1 := by
      rw [requested.name, lastName_append]
      rfl
    rw [isLast]
    exact (List.pairwise_append.mp requested.sorted).2.2 last (by simp) entry member

/-- What is there at the request and behind the name is what follows. -/
theorem Requested.mem_following
    {name : Oid}
    (requested : Requested table index view number done walk after taken rest running)
    (present : name ∈ (table.inView (view number)).map Prod.fst)
    (behind : walk.name < name) :
    ∃ entry ∈ taken ++ rest, entry.1 = name := by
  obtain ⟨entry, inView, isName⟩ := List.mem_map.mp present
  obtain ⟨inEntries, isUnder, _⟩ := (view number).mem_under.mp inView
  refine ⟨entry, ?_, isName⟩
  rw [← requested.following]
  exact (view number).mem_under.mpr ⟨inEntries, isUnder, isName ▸ behind⟩

/-- What has been there all the time was taken before or follows now. -/
theorem Progress.done_or_following
    {name : Oid}
    (progress : Progress table index view number done walk)
    (requested : Requested table index view number done walk after taken rest running)
    (inTable : table.root ++ [0] < name)
    (present : ∀ earlier < number + 1, name ∈ (table.inView (view earlier)).map Prod.fst) :
    name ∈ done.map Prod.fst ∨ ∃ entry ∈ taken ++ rest, entry.1 = name := by
  rcases le_or_gt name walk.name with early | late
  · left
    exact progress.complete name inTable early
      (fun earlier before => present earlier (Nat.lt_succ_of_lt before))
  · right
    exact requested.mem_following (present number (Nat.lt_succ_self number)) late

/-- A request goes on where the one before ended. -/
theorem Progress.step
    (progress : Progress table index view number done walk)
    (requested : Requested table index view number done walk after taken rest running) :
    Progress table index view (number + 1) (done ++ taken) after := by
  have takenSorted := (List.pairwise_append.mp requested.sorted).1
  obtain ⟨walkLow, bounds⟩ := requested.bounds
  have seenNow : ∀ entry ∈ taken, entry ∈ table.inView (view number) := by
    intro entry member
    apply under_mono progress.above
    rw [requested.following]
    exact List.mem_append_left rest member
  refine
    { filled := requested.filled
      name := ?_
      above := progress.above.trans walkLow
      increasing := ?_
      upTo := ?_
      seen := ?_
      complete := ?_ }
  · rw [requested.name, progress.name, lastName_append]
  · refine List.pairwise_append.mpr ⟨progress.increasing, takenSorted, ?_⟩
    intro first firstMember second secondMember
    exact lt_of_le_of_lt (progress.upTo first firstMember) (bounds second secondMember).1
  · intro entry member
    rcases List.mem_append.mp member with inDone | inTaken
    · exact (progress.upTo entry inDone).trans walkLow
    · exact (bounds entry inTaken).2
  · intro entry member
    rcases List.mem_append.mp member with inDone | inTaken
    · obtain ⟨earlier, before, inView⟩ := progress.seen entry inDone
      exact ⟨earlier, Nat.lt_succ_of_lt before, inView⟩
    · exact ⟨number, Nat.lt_succ_self number, seenNow entry inTaken⟩
  · intro name inTable below present
    rw [List.map_append, List.mem_append]
    rcases progress.done_or_following requested inTable present with before | now
    · left
      exact before
    · right
      obtain ⟨entry, member, isName⟩ := now
      rcases List.mem_append.mp member with inTaken | inRest
      · rw [← isName]
        exact List.mem_map_of_mem inTaken
      · have behind : after.name < name := isName ▸ requested.rest_behind entry inRest
        exact absurd behind (not_lt.mpr below)

/-- At the last request nothing is left behind the name. -/
theorem Progress.finish
    {name : Oid}
    (progress : Progress table index view number done walk)
    (requested : Requested table index view number done walk after taken rest false)
    (inTable : table.root ++ [0] < name)
    (present : ∀ earlier < number + 1, name ∈ (table.inView (view earlier)).map Prod.fst) :
    name ∈ (done ++ taken).map Prod.fst := by
  rw [List.map_append, List.mem_append]
  rcases progress.done_or_following requested inTable present with before | now
  · left
    exact before
  · right
    obtain ⟨entry, member, isName⟩ := now
    rw [requested.stops rfl, List.append_nil] at member
    rw [← isName]
    exact List.mem_map_of_mem member

/-- All names behind the name of the walk. -/
def behind (names : List Oid) (walk : Walk) : List Oid :=
  names.filter fun name => walk.name < name

/-- A request that goes on leaves fewer names behind it. -/
theorem Requested.fewer
    (requested : Requested table index view number done walk after taken rest true)
    (takenNames : ∀ entry ∈ taken, entry.1 ∈ names) :
    (behind names after).length < (behind names walk).length := by
  obtain ⟨walkLow, bounds⟩ := requested.bounds
  have narrowed :
      behind names after = (behind names walk).filter fun name => after.name < name := by
    unfold behind
    rw [List.filter_filter]
    apply List.filter_congr
    intro name _
    by_cases later : after.name < name
    · simp [later, lt_of_le_of_lt walkLow later]
    · simp [later]
  obtain ⟨entry, member⟩ := List.exists_mem_of_ne_nil taken (requested.goesOn rfl)
  rw [narrowed]
  apply List.length_filter_lt_length_iff_exists.mpr
  refine ⟨entry.1, ?_, ?_⟩
  · exact List.mem_filter.mpr ⟨takenNames entry member, by simpa using (bounds entry member).1⟩
  · simpa using (bounds entry member).2

/-- What a walk is to have read. -/
structure WalkReads (table : Table) (index : Oid → Text) (view : Nat → View Nat Text)
    (requests : Nat) (walk : Walk) (taken : List (Oid × Text)) : Prop where
  filled : Filled table index taken walk
  increasing : taken.Pairwise fun first second => first.1 < second.1
  seen : ∀ entry ∈ taken, ∃ number < requests, entry ∈ table.inView (view number)
  complete : ∀ name, (∀ number < requests, name ∈ (table.inView (view number)).map Prod.fst) →
    name ∈ taken.map Prod.fst

/-- The walk ends, after one request for each name that is left and one more at most. -/
theorem Progress.ends
    {size : Nat}
    (progress : Progress table index view number done walk)
    (distinct : table.columns.Nodup)
    (tableNames : TableNames table names)
    (prints : Prints table names index)
    (inNames : ∀ number, ∀ entry ∈ table.inView (view number), entry.1 ∈ names)
    (answers : ∀ number name, ∃ vars, agent number name = .noError vars ∧
      (view number).IsPage name size vars) :
    ∃ requests final taken, requests ≤ (behind names walk).length + 1 ∧
      getbulkTableEntries table agent requests number walk = some (final, false) ∧
      WalkReads table index view (number + requests) final taken := by
  -- by induction on how many names are left
  induction count : (behind names walk).length using Nat.strong_induction_on
    generalizing number done walk with
  | _ total inductionHypothesis =>
      obtain ⟨vars, isAnswer, isPage⟩ := answers number walk.name
      obtain ⟨taken, rest, after, running, response, requested⟩ :=
        takeResponse_requested progress distinct tableNames prints inNames isPage
      have next := progress.step requested
      cases running with
      | false =>
          refine ⟨1, after, done ++ taken, by omega, ?_, ?_⟩
          · rw [getbulkTableEntries, isAnswer, response]
            rfl
          · refine ⟨next.filled, next.increasing, next.seen, ?_⟩
            intro name present
            obtain ⟨entry, inView, isName⟩ := List.mem_map.mp (present 0 (Nat.succ_pos number))
            have inTable : table.root ++ [0] < name :=
              isName ▸ ((view 0).mem_under.mp inView).2.2
            exact progress.finish requested inTable present
      | true =>
          have takenNames : ∀ entry ∈ taken, entry.1 ∈ names := by
            intro entry member
            obtain ⟨earlier, _, inView⟩ := next.seen entry (List.mem_append_right done member)
            exact inNames earlier entry inView
          have fewer := requested.fewer takenNames
          rw [count] at fewer
          obtain ⟨requests, final, all, bound, run, reads⟩ :=
            inductionHypothesis (behind names after).length fewer next rfl
          refine ⟨requests + 1, final, all, by omega, ?_, ?_⟩
          · rw [getbulkTableEntries, isAnswer, response]
            exact run
          · rw [Nat.add_comm requests, ← Nat.add_assoc]
            exact reads

end

end Pma.Snmp
