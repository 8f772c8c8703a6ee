import Pma.SortedViews

namespace Pma

/-!
# Walking a table of the device

`getbulk_table_entries` of `snmp/snmp/snmptable2.c` asks the agent of the device
for what follows a name, takes the variables of the answer that are in the table
and asks again behind the last of them.  A value goes into the column of its name
and into the row of the index in the printed name.  The cells are in one array,
which grows by ten rows.
-/

namespace Snmp

/-- `oid`: the name of an object. -/
abbrev Oid :=
  List Nat

/-- A text without its terminator. -/
abbrev Text :=
  List Char

/-- `netsnmp_variable_list`: a name and its printed value, none for `SNMP_ENDOFMIBVIEW`. -/
abbrev Variable :=
  Oid × Option Text

/-- What `snmp_synch_response` comes back with. -/
inductive Response where
  | noError (vars : List Variable)
  | noSuchName
  | errstat
  | timeout
  | error

/-- `NETSNMP_DS_LIB_OID_OUTPUT_FORMAT`; zero is as `module`. -/
inductive OidFormat where
  | module
  | suffix
  | full
  | numeric
  | ucd
  | other
  deriving Repr, DecidableEq

/-- How net-snmp prints a name. -/
structure Printing where
  extendedIndex : Bool
  format : OidFormat
  objid : Oid → Text

/-- What `get_field_names` leaves: the entry of the table, its columns and its printed name. -/
structure Table where
  root : Oid
  columns : List Nat
  tableName : Text
  printing : Printing

/-- A place in `data`. -/
inductive Cell where
  | garbage
  | null
  | text (value : Text)
  deriving Repr, DecidableEq

/-- The static variables of the walk. -/
structure Walk where
  name : Oid
  indices : List Text
  data : List Cell
  allocated : Nat
  extraColumns : Bool
  exitval : Nat
  deriving Repr, DecidableEq

/-- `fields`. -/
def Table.fields (table : Table) : Nat :=
  table.columns.length

/-- The walk before the first request. -/
def Table.start (table : Table) : Walk where
  name := table.root ++ [0]
  indices := []
  data := []
  allocated := 0
  extraColumns := false
  exitval := 0

/-- `name[i]`; the rest of the array is zero. -/
def subid (name : Oid) (i : Nat) : Nat :=
  name.getD i 0

/-- `memcmp` of the beginnings of two names is zero. -/
def sameRoot (rootlen : Nat) (first second : Oid) : Bool :=
  (List.range rootlen).all fun i => subid first i = subid second i

/-- The column number in a name. -/
def Table.column (table : Table) (name : Oid) : Nat :=
  subid name table.root.length

/-- `strchr`. -/
def strchr (char : Char) (text : Text) : Option Text :=
  match text.dropWhile (· ≠ char) with
  | [] => none
  | rest => some rest

/-- `name_p` behind the switch; nothing where a null pointer is moved on or `buf` is left. -/
def labelStart (table : Table) (buf : Text) : Option Text :=
  match table.printing.format with
  | .module => (strchr ':' buf).map (List.drop 1)
  | .suffix => some buf
  | .full | .numeric | .ucd =>
      if table.tableName.length < buf.length then
        (strchr '.' (buf.drop (table.tableName.length + 1))).map (List.drop 1)
      else
        none
  | .other => none

/-- The index in a printed name, none where there is no instance in it. -/
def indexText (table : Table) (buf : Text) : Option (Option Text) :=
  if table.printing.extendedIndex then
    (strchr '[' buf).map some
  else
    (labelStart table buf).map fun label => (strchr '.' label).map (List.drop 1)

/-- `memset` of pointers to zero. -/
def clearCells (data : List Cell) (start count : Nat) : Option (List Cell) :=
  if start + count ≤ data.length then
    some (data.take start ++ List.replicate count .null ++ data.drop (start + count))
  else
    none

/-- Room for so many entries. -/
def reserve (table : Table) (walk : Walk) (entries : Nat) : Option Walk :=
  if entries < walk.allocated then
    some walk
  else if walk.allocated = 0 then
    some { walk with
      allocated := 10
      data := List.replicate (10 * table.fields) .null }
  else
    let allocated := walk.allocated + 10
    -- what `realloc` adds is not initialised
    let data := walk.data ++ List.replicate (10 * table.fields) .garbage
    (clearCells data (entries * table.fields) ((allocated - entries) * table.fields)).map
      fun data => { walk with
        allocated := allocated
        data := data }

/-- The row of an index, which is added when it is new. -/
def rowOf (table : Table) (walk : Walk) (text : Text) : Option (Walk × Nat) :=
  match walk.indices.findIdx? (· = text) with
  | some row => some (walk, row)
  | none =>
      (reserve table walk (walk.indices.length + 1)).bind fun walk =>
        if walk.indices.length < walk.allocated then
          some ({ walk with indices := walk.indices ++ [text] }, walk.indices.length)
        else
          none

/-- The value of a cell is on one line. -/
def oneLine (value : Text) : Text :=
  value.map fun char => if char = '\n' then ' ' else char

/-- `dp[col] = buf`. -/
def store (table : Table) (walk : Walk) (row col : Nat) (value : Text) : Option Walk :=
  let place := row * table.fields + col
  if place < walk.data.length then
    some { walk with data := walk.data.set place (.text (oneLine value)) }
  else
    none

/-- A variable of the answer, with whether the next one is looked at. -/
def takeVariable (table : Table) (walk : Walk) (vars : Variable) : Option (Walk × Bool) :=
  match vars.2 with
  | none => some (walk, false)
  | some value =>
      if sameRoot table.root.length vars.1 walk.name = false then
        some (walk, false)
      else
        match table.columns.findIdx? (· = table.column vars.1) with
        | none => some ({ walk with extraColumns := true }, true)
        | some col =>
            match indexText table (table.printing.objid vars.1) with
            | none => none
            | some none => some (walk, false)
            | some (some text) =>
                (rowOf table walk text).bind fun place =>
                  (store table place.1 place.2 col value).map fun walk => (walk, true)

/-- The loop over the variables, with `last_var` and `running`. -/
def takeVariables (table : Table) :
    Walk → Option Oid → List Variable → Option (Walk × Option Oid × Bool)
  | walk, lastVar, [] => some (walk, lastVar, true)
  | walk, lastVar, vars :: rest =>
      (takeVariable table walk vars).bind fun taken =>
        if taken.2 then
          takeVariables table taken.1 (some vars.1) rest
        else
          some (taken.1, lastVar, false)

/-- An answer, with `running`. -/
def takeResponse (table : Table) (walk : Walk) : Response → Option (Walk × Bool)
  | .noError vars =>
      (takeVariables table walk none vars).map fun taken =>
        ({ taken.1 with name := taken.2.1.getD taken.1.name }, taken.2.2)
  | .noSuchName => some (walk, false)
  | .errstat => some ({ walk with exitval := 2 }, false)
  | .timeout => some ({ walk with exitval := 1 }, false)
  | .error => some ({ walk with exitval := 1 }, false)

/--
`getbulk_table_entries` up to so many requests, with `running`.  The agent answers
the request of a number and a name.
-/
def getbulkTableEntries (table : Table) (agent : Nat → Oid → Response) :
    Nat → Nat → Walk → Option (Walk × Bool)
  | 0, _, walk => some (walk, true)
  | requests + 1, number, walk =>
      (takeResponse table walk (agent number walk.name)).bind fun taken =>
        if taken.2 then
          getbulkTableEntries table agent requests (number + 1) taken.1
        else
          some taken

end Snmp

end Pma
