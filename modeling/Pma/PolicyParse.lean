import Pma.Loops
import Pma.PolicyTable
import Pma.Truncation

namespace Pma

open Loops Truncation

/-!
# Loading the policies

`process_policy` empties the policy table and fills it from a document.  The
values of a policy are looked up by name among its children, and `strtol` is
called with whatever is found.  The tree of the document is made by `libxml2`,
and so is the text of a list of nodes.
-/

/-! ## Documents -/

/-- `xmlElementType`, for the nodes below a root. -/
inductive XmlElementType where
  | element
  | text
  | cdataSection
  | entityReference
  | entity
  | processingInstruction
  | comment
  deriving DecidableEq, Repr

/-- `xmlNode`; a section of characters has no name, a text and a comment have one. -/
inductive XmlNode where
  | node
      (type : XmlElementType)
      (name : Option String)
      (content : Option String)
      (children : List XmlNode)

namespace XmlNode

/-- `name`. -/
def name : XmlNode → Option String
  | node _ name _ _ => name

/-- `children`. -/
def children : XmlNode → List XmlNode
  | node _ _ _ children => children

end XmlNode

/-- `strtol` ends the program when it is called with `NULL`. -/
inductive XmlFault where
  | nullString
  deriving DecidableEq, Repr

/-! ## Numbers -/

/-- The characters `isspace` accepts. -/
def isSpace (char : Char) : Bool :=
  char = ' ' ∨ (9 ≤ char.toNat ∧ char.toNat ≤ 13)

/-- The number of the leading digits. -/
def leadingNumber (chars : List Char) : Nat :=
  (chars.takeWhile Char.isDigit).foldl
    (fun value char => 10 * value + (char.toNat - '0'.toNat)) 0

/-- The number after an optional sign. -/
def signedNumber : List Char → Int
  | '-' :: chars => -leadingNumber chars
  | '+' :: chars => leadingNumber chars
  | chars => leadingNumber chars

/-- The number a text begins with. -/
def writtenNumber (text : String) : Int :=
  signedNumber (text.toList.dropWhile isSpace)

/-- The nearest `long`. -/
def toLong (number : Int) : Int :=
  max (-2 ^ 63) (min (2 ^ 63 - 1) number)

/-- `strtol` to base 10, which stops at the ends of `long`. -/
def strtol (text : String) : Int :=
  toLong (writtenNumber text)

/-! ## The model -/

/-- The variables of `parse_policy`, before they are cut to their types. -/
structure PolicyVars where
  operation : Int
  upLimit : Int
  lowerLimit : Int
  value1 : Int
  value2 : Int
  deriving DecidableEq, Repr

/-- The policy of these variables, in the types of its fields. -/
def PolicyVars.element (vars : PolicyVars) : PolicyElement where
  operation := Int32.ofInt vars.operation
  upLimit := UInt32.ofInt vars.upLimit
  lowerLimit := UInt32.ofInt vars.lowerLimit
  value0 := UInt64.ofInt vars.value1
  value1 := UInt64.ofInt vars.value2

/-- `POLICY_TIMER`. -/
def policyTimer : Int32 := 2

section

variable (xmlNodeListGetString : List XmlNode → Option String)

/-- `get_value_by_name`. -/
def getValueByName (parent : XmlNode) (name : String) : Option String :=
  (parent.children.find? (·.name = some name)).bind fun node =>
    xmlNodeListGetString node.children

/-- The number of a value that may be missing; `number` is `strtol` in the code. -/
def numberOf (number : String → Int) (data : Option String) : Except XmlFault Int :=
  match data with
  | some text => .ok (number text)
  | none => .error .nullString

/-- What is read for a policy, in the order of the code. -/
def readVars (number : String → Int) (node : XmlNode) : Except XmlFault PolicyVars := do
  let operation ← numberOf number (getValueByName xmlNodeListGetString node "operation")
  let upLimit ← numberOf number (getValueByName xmlNodeListGetString node "up_limit")
  let lowerLimit ← numberOf number (getValueByName xmlNodeListGetString node "lower_limit")
  let value1 ← numberOf number (getValueByName xmlNodeListGetString node "value1")
  let value2 ← numberOf number (getValueByName xmlNodeListGetString node "value2")
  return ⟨operation, upLimit, lowerLimit, value1, value2⟩

/-- One pass of the loop of `parse_policy`. -/
def parseNode (table : PolicyTable) (node : XmlNode) : Except XmlFault PolicyTable :=
  if node.name = some "Version" then
    .ok table
  else
    (readVars xmlNodeListGetString strtol node).map fun vars =>
      if vars.element.operation = policyTimer then table.addPolicy vars.element else table

/-- `parse_policy`, with what it returns and the table it leaves. -/
def parsePolicy (table : PolicyTable) (node : XmlNode) : Except XmlFault (Int × PolicyTable) :=
  match getValueByName xmlNodeListGetString node "Version" with
  | none => .ok (-1, table)
  | some _ =>
      (node.children.foldlM (parseNode xmlNodeListGetString) table).map fun table => (0, table)

/--
`process_policy`; `doc` is what `xmlParseDoc` returns, with what
`xmlDocGetRootElement` returns for it.
-/
def processPolicy
    (doc : Option (Option XmlNode))
    (table : PolicyTable) : Except XmlFault (Int × PolicyTable) :=
  match doc with
  | none => .ok (-1, table)
  | some none => .ok (-1, table)
  | some (some root) => parsePolicy xmlNodeListGetString .init root

/-! ## What a document says -/

/-- What the nodes of a document say, in their order; the version is not a policy. -/
def varsIn (number : String → Int) (nodes : List XmlNode) : List PolicyVars :=
  (nodes.filter (·.name ≠ some "Version")).filterMap fun node =>
    (readVars xmlNodeListGetString number node).toOption

/-- The timer policies of a document, as they are written in it. -/
def timers (root : XmlNode) : List PolicyVars :=
  (varsIn xmlNodeListGetString writtenNumber root.children).filter fun vars =>
    vars.operation = policyTimer.toInt

/-- The policies whose operation becomes that of a timer in an `int`, as they are read. -/
def readAsTimers (nodes : List XmlNode) : List PolicyVars :=
  (varsIn xmlNodeListGetString strtol nodes).filter fun vars =>
    vars.element.operation = policyTimer

end

/-- An element of the table has the limits and the values of a policy. -/
structure PolicyElement.Holds (elem : PolicyElement) (vars : PolicyVars) : Prop where
  upLimit : elem.upLimit.toNat = vars.upLimit
  lowerLimit : elem.lowerLimit.toNat = vars.lowerLimit
  value0 : elem.value0.toNat = vars.value1
  value1 : elem.value1.toNat = vars.value2

/--
A document is loaded as a whole, or refused with the table as it was; and no
value that is converted is missing.
-/
def LoadsWhole
    (xmlNodeListGetString : List XmlNode → Option String)
    (doc : Option (Option XmlNode))
    (table : PolicyTable) : Prop :=
  ∃ ret after,
    processPolicy xmlNodeListGetString doc table = .ok (ret, after) ∧
      ((ret = 0 ∧ ∃ root, doc = some (some root) ∧
          List.Forall₂ PolicyElement.Holds after.elements
            ((timers xmlNodeListGetString root).take policyTableLen)) ∨
        (ret = -1 ∧ after = table))

/-- The values that are read for a policy. -/
def policyNames : List String :=
  ["operation", "up_limit", "lower_limit", "value1", "value2"]

/-- Every node of a document that is not its version has all values of a policy. -/
def Complete
    (xmlNodeListGetString : List XmlNode → Option String)
    (root : XmlNode) : Prop :=
  ∀ node ∈ root.children,
    node.name ≠ some "Version" →
    ∀ name ∈ policyNames, (getValueByName xmlNodeListGetString node name).isSome = true

/-- The limits and the values of a policy fit into the variables they go through. -/
structure PolicyVars.Fits (vars : PolicyVars) : Prop where
  upLimit : 0 ≤ vars.upLimit ∧ vars.upLimit < 2 ^ 32
  lowerLimit : 0 ≤ vars.lowerLimit ∧ vars.lowerLimit < 2 ^ 32
  value1 : 0 ≤ vars.value1 ∧ vars.value1 < 2 ^ 63
  value2 : 0 ≤ vars.value2 ∧ vars.value2 < 2 ^ 63

/-- What is read for one policy comes to what another one says. -/
structure PolicyVars.ComesTo (read vars : PolicyVars) : Prop where
  upLimit : read.upLimit % 2 ^ 32 = vars.upLimit
  lowerLimit : read.lowerLimit % 2 ^ 32 = vars.lowerLimit
  value1 : read.value1 % 2 ^ 64 = vars.value1
  value2 : read.value2 % 2 ^ 64 = vars.value2

/-! ## What is read -/

section

variable
  {xmlNodeListGetString : List XmlNode → Option String} {number : String → Int}
  {node root : XmlNode} {nodes : List XmlNode} {table after : PolicyTable}

theorem numberOf_ends
    (number : String → Int)
    {data : Option String} :
    (∃ value, numberOf number data = .ok value) ↔ data.isSome = true := by
  cases data with
  | some text =>
      exact iff_of_true ⟨_, rfl⟩ rfl
  | none =>
      exact iff_of_false (fun ⟨_, read⟩ => nomatch read) (fun some => nomatch some)

/-- A policy is read if none of its values is missing. -/
theorem readVars_ends
    (number : String → Int) :
    (∃ vars, readVars xmlNodeListGetString number node = .ok vars) ↔
      ∀ name ∈ policyNames, (getValueByName xmlNodeListGetString node name).isSome = true := by
  simp only [policyNames, List.forall_mem_cons, ← numberOf_ends number]
  unfold readVars
  constructor
  · rintro ⟨vars, read⟩
    obtain ⟨operation, first, read⟩ := bind_eq_ok.mp read
    obtain ⟨upLimit, second, read⟩ := bind_eq_ok.mp read
    obtain ⟨lowerLimit, third, read⟩ := bind_eq_ok.mp read
    obtain ⟨value1, fourth, read⟩ := bind_eq_ok.mp read
    obtain ⟨value2, fifth, -⟩ := bind_eq_ok.mp read
    exact ⟨⟨_, first⟩, ⟨_, second⟩, ⟨_, third⟩, ⟨_, fourth⟩, ⟨_, fifth⟩, by simp⟩
  · rintro ⟨⟨operation, first⟩, ⟨upLimit, second⟩, ⟨lowerLimit, third⟩, ⟨value1, fourth⟩,
      ⟨value2, fifth⟩, -⟩
    rw [first, second, third, fourth, fifth]
    exact ⟨_, rfl⟩

theorem varsIn_cons :
    varsIn xmlNodeListGetString number (node :: nodes) =
      varsIn xmlNodeListGetString number [node] ++
        varsIn xmlNodeListGetString number nodes := by
  unfold varsIn
  rw [← List.filterMap_append, ← List.filter_append, List.singleton_append]

theorem varsIn_version
    (isVersion : node.name = some "Version") :
    varsIn xmlNodeListGetString number [node] = [] := by
  unfold varsIn
  rw [List.filter_cons_of_neg (by simpa using isVersion)]
  rfl

theorem varsIn_policy
    {vars : PolicyVars}
    (isPolicy : node.name ≠ some "Version")
    (read : readVars xmlNodeListGetString number node = .ok vars) :
    varsIn xmlNodeListGetString number [node] = [vars] := by
  unfold varsIn
  rw [List.filter_cons_of_pos (by simpa using isPolicy),
    List.filterMap_cons_some (b := vars) (by rw [read]; rfl)]
  rfl

/-- One node adds its policy, if it is taken for a timer. -/
theorem parseNode_ok
    (parsed : parseNode xmlNodeListGetString table node = .ok after) :
    after =
      ((readAsTimers xmlNodeListGetString [node]).map PolicyVars.element).foldl
        PolicyTable.addPolicy table := by
  unfold parseNode at parsed
  unfold readAsTimers
  split at parsed
  · next isVersion =>
      cases parsed
      rw [varsIn_version isVersion]
      rfl
  · next isPolicy =>
      obtain ⟨vars, read, rfl⟩ := map_eq_ok.mp parsed
      rw [varsIn_policy isPolicy read]
      split
      · next isTimer =>
          rw [List.filter_cons_of_pos (by simpa using isTimer)]
          rfl
      · next isOther =>
          rw [List.filter_cons_of_neg (by simpa using isOther)]
          rfl

/-- The loop adds what it takes for timers, in order. -/
theorem foldlM_parseNode
    (parsed : nodes.foldlM (parseNode xmlNodeListGetString) table = .ok after) :
    after =
      ((readAsTimers xmlNodeListGetString nodes).map PolicyVars.element).foldl
        PolicyTable.addPolicy table := by
  induction nodes generalizing table with
  | nil =>
      cases parsed
      rfl
  | cons node rest inductionHypothesis =>
      rw [List.foldlM_cons] at parsed
      obtain ⟨middle, first, parsed⟩ := bind_eq_ok.mp parsed
      have split :
          readAsTimers xmlNodeListGetString (node :: rest) =
            readAsTimers xmlNodeListGetString [node] ++
              readAsTimers xmlNodeListGetString rest := by
        unfold readAsTimers
        rw [varsIn_cons, List.filter_append]
      rw [inductionHypothesis parsed, parseNode_ok first, split, List.map_append,
        List.foldl_append]

/-- The loop ends if all that it reads is there. -/
theorem foldlM_parseNode_ends :
    (∃ after, nodes.foldlM (parseNode xmlNodeListGetString) table = .ok after) ↔
      ∀ node ∈ nodes,
        node.name ≠ some "Version" →
        ∀ name ∈ policyNames,
          (getValueByName xmlNodeListGetString node name).isSome = true := by
  simp only [← readVars_ends strtol]
  induction nodes generalizing table with
  | nil =>
      simp only [List.foldlM_nil, List.not_mem_nil, false_implies, implies_true, iff_true]
      exact ⟨table, rfl⟩
  | cons node rest inductionHypothesis =>
      rw [List.foldlM_cons, List.forall_mem_cons]
      constructor
      · rintro ⟨after, parsed⟩
        obtain ⟨middle, first, parsed⟩ := bind_eq_ok.mp parsed
        refine ⟨fun isPolicy => ?_, inductionHypothesis.mp ⟨after, parsed⟩⟩
        unfold parseNode at first
        rw [if_neg isPolicy] at first
        obtain ⟨vars, read, -⟩ := map_eq_ok.mp first
        exact ⟨vars, read⟩
      · rintro ⟨first, others⟩
        have ends : ∃ middle, parseNode xmlNodeListGetString table node = .ok middle := by
          unfold parseNode
          by_cases isVersion : node.name = some "Version"
          · rw [if_pos isVersion]
            exact ⟨table, rfl⟩
          · obtain ⟨vars, read⟩ := first isVersion
            rw [if_neg isVersion, read]
            exact ⟨_, rfl⟩
        obtain ⟨middle, parsed⟩ := ends
        rw [parsed]
        exact inductionHypothesis.mpr others

end

/-! ## What is stored -/

namespace PolicyVars

/-- What is stored is what was read, reduced to the types of the fields. -/
theorem element_holds
    {read vars : PolicyVars} :
    read.element.Holds vars ↔ read.ComesTo vars := by
  unfold element
  constructor
  · rintro ⟨upLimit, lowerLimit, value0, value1⟩
    rw [toNat_ofInt32] at upLimit lowerLimit
    rw [toNat_ofInt64] at value0 value1
    exact ⟨upLimit, lowerLimit, value0, value1⟩
  · rintro ⟨upLimit, lowerLimit, value1, value2⟩
    rw [← toNat_ofInt32] at upLimit lowerLimit
    rw [← toNat_ofInt64] at value1 value2
    exact ⟨upLimit, lowerLimit, value1, value2⟩

/-- What `strtol` makes of the numbers of a policy. -/
def longs (vars : PolicyVars) : PolicyVars where
  operation := toLong vars.operation
  upLimit := toLong vars.upLimit
  lowerLimit := toLong vars.lowerLimit
  value1 := toLong vars.value1
  value2 := toLong vars.value2

/-- A policy comes to what it says if it fits. -/
theorem longs_comesTo
    (vars : PolicyVars) :
    vars.longs.ComesTo vars ↔ vars.Fits := by
  have limit (number : Int) :
      toLong number % 2 ^ 32 = number ↔ 0 ≤ number ∧ number < 2 ^ 32 := by
    unfold toLong
    omega
  have value (number : Int) :
      toLong number % 2 ^ 64 = number ↔ 0 ≤ number ∧ number < 2 ^ 63 := by
    unfold toLong
    omega
  constructor
  · rintro ⟨upLimit, lowerLimit, value1, value2⟩
    exact ⟨(limit _).mp upLimit, (limit _).mp lowerLimit, (value _).mp value1,
      (value _).mp value2⟩
  · rintro ⟨upLimit, lowerLimit, value1, value2⟩
    exact ⟨(limit _).mpr upLimit, (limit _).mpr lowerLimit, (value _).mpr value1,
      (value _).mpr value2⟩

end PolicyVars

section

variable
  {xmlNodeListGetString : List XmlNode → Option String}
  {doc : Option (Option XmlNode)} {root : XmlNode} {table : PolicyTable}

/-- Without a root the table is not touched. -/
theorem processPolicy_noRoot
    (noRoot : ∀ root, doc ≠ some (some root)) :
    processPolicy xmlNodeListGetString doc table = .ok (-1, table) := by
  match doc with
  | none => rfl
  | some none => rfl
  | some (some root) => exact absurd rfl (noRoot root)

/-- Without a version the table is emptied nevertheless. -/
theorem processPolicy_noVersion
    (noVersion : getValueByName xmlNodeListGetString root "Version" = none) :
    processPolicy xmlNodeListGetString (some (some root)) table = .ok (-1, .init) := by
  change parsePolicy xmlNodeListGetString .init root = _
  unfold parsePolicy
  rw [noVersion]

/-- With a version the table holds the first policies that are taken for timers. -/
theorem processPolicy_version
    {ret : Int}
    {after : PolicyTable}
    (version : (getValueByName xmlNodeListGetString root "Version").isSome = true) :
    processPolicy xmlNodeListGetString (some (some root)) table = .ok (ret, after) ↔
      ret = 0 ∧ Complete xmlNodeListGetString root ∧
        after.elements =
          ((readAsTimers xmlNodeListGetString root.children).take policyTableLen).map
            PolicyVars.element := by
  have elements (last : PolicyTable)
      (parsed : root.children.foldlM (parseNode xmlNodeListGetString) .init = .ok last) :
      last.elements =
        ((readAsTimers xmlNodeListGetString root.children).take policyTableLen).map
          PolicyVars.element := by
    rw [foldlM_parseNode parsed, PolicyTable.foldl_addPolicy, List.map_take]
    rfl
  obtain ⟨text, found⟩ := Option.isSome_iff_exists.mp version
  change parsePolicy xmlNodeListGetString .init root = _ ↔ _
  unfold parsePolicy
  rw [found]
  constructor
  · intro loaded
    obtain ⟨last, parsed, same⟩ := map_eq_ok.mp loaded
    cases same
    exact ⟨rfl, foldlM_parseNode_ends.mp ⟨_, parsed⟩, elements _ parsed⟩
  · rintro ⟨rfl, complete, stored⟩
    obtain ⟨last, parsed⟩ := foldlM_parseNode_ends.mpr complete
    have same : last = after := PolicyTable.ext ((elements last parsed).trans stored.symm)
    exact map_eq_ok.mpr ⟨last, parsed, by rw [same]⟩

/-- A policy is taken for a timer only if it is one. -/
def NoOtherTimer
    (xmlNodeListGetString : List XmlNode → Option String)
    (root : XmlNode) : Prop :=
  ∀ vars ∈ varsIn xmlNodeListGetString writtenNumber root.children,
    vars.longs.element.operation = policyTimer → vars.operation = policyTimer.toInt

theorem varsIn_strtol
    (nodes : List XmlNode) :
    varsIn xmlNodeListGetString strtol nodes =
      (varsIn xmlNodeListGetString writtenNumber nodes).map PolicyVars.longs := by
  have value (data : Option String) :
      numberOf strtol data = (numberOf writtenNumber data).map toLong := by
    cases data <;> rfl
  have read (node : XmlNode) :
      readVars xmlNodeListGetString strtol node =
        (readVars xmlNodeListGetString writtenNumber node).map PolicyVars.longs := by
    unfold readVars
    simp only [value]
    cases numberOf writtenNumber (getValueByName xmlNodeListGetString node "operation") <;>
    cases numberOf writtenNumber (getValueByName xmlNodeListGetString node "up_limit") <;>
    cases numberOf writtenNumber (getValueByName xmlNodeListGetString node "lower_limit") <;>
    cases numberOf writtenNumber (getValueByName xmlNodeListGetString node "value1") <;>
    cases numberOf writtenNumber (getValueByName xmlNodeListGetString node "value2") <;>
    rfl
  unfold varsIn
  rw [List.map_filterMap]
  refine List.filterMap_congr fun node _ => ?_
  rw [read]
  cases readVars xmlNodeListGetString writtenNumber node <;> rfl

/-- Then what is stored comes to what is written if all that is stored fits. -/
theorem forall₂_comesTo
    (noOther : NoOtherTimer xmlNodeListGetString root) :
    List.Forall₂ PolicyVars.ComesTo
        ((readAsTimers xmlNodeListGetString root.children).take policyTableLen)
        ((timers xmlNodeListGetString root).take policyTableLen) ↔
      ∀ vars ∈ (timers xmlNodeListGetString root).take policyTableLen, vars.Fits := by
  have timer (vars : PolicyVars) (is : vars.operation = policyTimer.toInt) :
      vars.longs.element.operation = policyTimer := by
    change Int32.ofInt (toLong vars.operation) = policyTimer
    rw [is]
    decide
  have same :
      readAsTimers xmlNodeListGetString root.children =
        (timers xmlNodeListGetString root).map PolicyVars.longs := by
    unfold readAsTimers timers
    rw [varsIn_strtol, List.filter_map]
    congr 1
    refine List.filter_congr fun vars member => decide_eq_decide.mpr ?_
    exact ⟨noOther vars member, timer vars⟩
  rw [same, ← List.map_take, List.forall₂_map_left_iff]
  rw [List.forall₂_same]
  exact forall₂_congr fun vars _ => vars.longs_comesTo

/-- With a version, what is stored has to come to what the timers say. -/
theorem loadsWhole_version
    (version : (getValueByName xmlNodeListGetString root "Version").isSome = true) :
    LoadsWhole xmlNodeListGetString (some (some root)) table ↔
      Complete xmlNodeListGetString root ∧
        List.Forall₂ PolicyVars.ComesTo
          ((readAsTimers xmlNodeListGetString root.children).take policyTableLen)
          ((timers xmlNodeListGetString root).take policyTableLen) := by
  constructor
  · rintro ⟨ret, after, loaded, whole⟩
    obtain ⟨rfl, complete, stored⟩ := (processPolicy_version version).mp loaded
    refine ⟨complete, ?_⟩
    obtain ⟨-, other, same, holds⟩ | ⟨⟨⟩, -⟩ := whole
    cases same
    rw [stored, List.forall₂_map_left_iff] at holds
    exact holds.imp fun _ _ => PolicyVars.element_holds.mp
  · rintro ⟨complete, holds⟩
    let stored := (readAsTimers xmlNodeListGetString root.children).take policyTableLen
    have within : (stored.map PolicyVars.element).length ≤ policyTableLen := by
      rw [List.length_map, List.length_take]
      exact Nat.min_le_left _ _
    refine ⟨0, ⟨stored.map PolicyVars.element, within⟩,
      (processPolicy_version version).mpr ⟨rfl, complete, rfl⟩, .inl ⟨rfl, root, rfl, ?_⟩⟩
    rw [List.forall₂_map_left_iff]
    exact holds.imp fun _ _ => PolicyVars.element_holds.mpr

/-- Without one, the table has to be empty already. -/
theorem loadsWhole_noVersion
    (noVersion : getValueByName xmlNodeListGetString root "Version" = none) :
    LoadsWhole xmlNodeListGetString (some (some root)) table ↔ table.elements = [] := by
  constructor
  · rintro ⟨ret, after, loaded, whole⟩
    rw [processPolicy_noVersion noVersion] at loaded
    cases loaded
    obtain ⟨⟨⟩, -⟩ | ⟨-, same⟩ := whole
    rw [← same]
    rfl
  · intro empty
    exact ⟨-1, .init, processPolicy_noVersion noVersion, .inr ⟨rfl, PolicyTable.ext empty.symm⟩⟩

end

/--
A document is loaded as a whole or refused without a trace exactly if it has no
root; or it has a version, every other node below the root has all values of a
policy, and what is stored comes to what the timers say; or it has no version
and the table was empty.
-/
theorem loadsWhole_iff
    (xmlNodeListGetString : List XmlNode → Option String)
    (doc : Option (Option XmlNode))
    (table : PolicyTable) :
    LoadsWhole xmlNodeListGetString doc table ↔
      ∀ root,
        doc = some (some root) →
        if (getValueByName xmlNodeListGetString root "Version").isSome = true then
          Complete xmlNodeListGetString root ∧
            List.Forall₂ PolicyVars.ComesTo
              ((readAsTimers xmlNodeListGetString root.children).take policyTableLen)
              ((timers xmlNodeListGetString root).take policyTableLen)
        else
          table.elements = [] := by
  by_cases noRoot : ∀ root, doc ≠ some (some root)
  · exact iff_of_true ⟨-1, table, processPolicy_noRoot noRoot, .inr ⟨rfl, rfl⟩⟩
      fun root is => absurd is (noRoot root)
  · push Not at noRoot
    obtain ⟨root, rfl⟩ := noRoot
    have only (condition : XmlNode → Prop) :
        (∀ other, some (some root) = some (some other) → condition other) ↔ condition root := by
      constructor
      · exact fun all => all root rfl
      · rintro holds other ⟨⟩
        exact holds
    refine Iff.trans ?_ (only _).symm
    split
    · next version =>
        exact loadsWhole_version version
    · next version =>
        exact loadsWhole_noVersion (Option.not_isSome_iff_eq_none.mp version)

/-- `xmlNodeListGetString` where there is nothing but text. -/
def textOf (nodes : List XmlNode) : Option String :=
  match nodes.filterMap fun | .node _ _ content _ => content with
  | [] => none
  | texts => some (String.join texts)

/-- A document with one timer and a line break before it. -/
def spacedPolicies : XmlNode :=
  let text (content : String) : XmlNode := .node .text (some "text") (some content) []
  let value (name content : String) : XmlNode :=
    .node .element (some name) none [text content]
  .node .element (some "policies") none
    [value "Version" "1", text "\n",
      .node .element (some "policy") none
        [value "operation" "2", value "up_limit" "50", value "lower_limit" "0",
          value "value1" "5000000", value "value2" "20000000"]]

/-- A line break between the policies has no operation, and `strtol` is called for it. -/
theorem spacedPolicies_not_loadsWhole :
    ¬ LoadsWhole textOf (some (some spacedPolicies)) .init := by
  have fails :
      (processPolicy textOf (some (some spacedPolicies)) .init).toOption.isSome = false := by
    decide
  rintro ⟨ret, after, loaded, -⟩
  rw [loaded] at fails
  exact nomatch fails

end Pma
