import Mathlib.Data.List.TakeWhile
import Pma.Interface
import Pma.Words

namespace Pma

/-!
# The configuration of the interface types

`load_interface_type_from_config` of `router/interface.c` reads pairs of words, a
type and the name of an interface.  It reads words where the file has lines: what
stands behind a `#` is skipped to the end of its word only, and a name is taken
from the next line when its own line has none.
-/

namespace Interface.Config

open FirstMatch Words

/-! ## The reader -/

/-- A C string ends at its first zero byte. -/
def cString (bytes : List Char) : List Char :=
  bytes.takeWhile fun char => char ≠ '\x00'

/-- The type of the interface that is found under a name is set. -/
def assign (iflist : List Rinterface) (name : List Char) (type : IfType) : List Rinterface :=
  updateFirst (qName (String.ofList (cString name))) (setType type) iflist

/-- `strncmp` with the length of the keyword. -/
def startsWith (keyword : String) (comm : List Char) : Bool :=
  keyword.toList.isPrefixOf comm

/--
A pass of the loop: the text that is left, and the interfaces.  `fscanf` takes
`comm` and the name without their lengths; nothing where one leaves its array.
-/
def pass (text : List Char) (iflist : List Rinterface) :
    Option (List Char × List Rinterface) :=
  let (comm, text) := scanWord isSpace text
  if 100 ≤ comm.length then
    none
  else if comm.head? = some '#' then
    some (text, iflist)
  else if startsWith "backbone" comm then
    let (ifaceName, text) := scanWord isSpace text
    if 20 ≤ ifaceName.length then
      none
    else
      some (text, assign iflist ifaceName .backbone)
  else if startsWith "access" comm then
    let (ifaceName, text) := scanWord isSpace text
    if 20 ≤ ifaceName.length then
      none
    else
      some (text, assign iflist ifaceName .access)
  else
    some (text, assign iflist [] .access)

/-- The loop, which ends when a word was read up to the end of the file. -/
def passes : Nat → List Char → List Rinterface → Option (List Rinterface)
  | 0, _, _ => none
  | fuel + 1, text, iflist =>
      match pass text iflist with
      | none => none
      | some ([], iflist) => some iflist
      | some (text, iflist) => passes fuel text iflist

/-- `load_interface_type_from_config`; there may be no file. -/
def loadInterfaceTypeFromConfig (file : Option (List Char)) (iflist : List Rinterface) :
    Option (List Rinterface) :=
  match file with
  | none => some iflist
  | some content => passes (content.length + 1) content iflist

/-! ## The format -/

/-- The type in the last line that names an interface. -/
def lastType (given : List (String × IfType)) (name : String) : Option IfType :=
  ((given.filter (·.1 = name)).getLast?).map Prod.snd

/-- An interface with the type it is given, or the one it has. -/
def configured (given : List (String × IfType)) (face : Rinterface) : Rinterface :=
  setType ((lastType given face.name).getD face.type) face

/-! ## The files that are read as they are meant -/

/-- A word that is taken for `backbone` or `access`. -/
def isKeyword (word : List Char) : Bool :=
  startsWith "backbone" word || startsWith "access" word

/-- Words that are read as these types, with nothing left of a keyword. -/
inductive Reads : List (List Char) → List (String × IfType) → Prop where
  | nil :
      Reads [] []
  | ended
      {word : List Char}
      (short : word.length < 100) :
      Reads [word] []
  | other
      {word : List Char}
      {rest : List (List Char)}
      {given : List (String × IfType)}
      (short : word.length < 100)
      (notKeyword : isKeyword word = false)
      (later : Reads rest given) :
      Reads (word :: rest) given
  | backbone
      {name : List Char}
      {rest : List (List Char)}
      {given : List (String × IfType)}
      (short : name.length < 20)
      (isText : '\x00' ∉ name)
      (later : Reads rest given) :
      Reads ("backbone".toList :: name :: rest) ((String.ofList name, .backbone) :: given)
  | access
      {name : List Char}
      {rest : List (List Char)}
      {given : List (String × IfType)}
      (short : name.length < 20)
      (isText : '\x00' ∉ name)
      (later : Reads rest given) :
      Reads ("access".toList :: name :: rest) ((String.ofList name, .access) :: given)

/-- The interfaces after their types are set one after the other. -/
def assignAll (given : List (String × IfType)) (iflist : List Rinterface) : List Rinterface :=
  given.foldl (fun iflist given => updateFirst (qName given.1) (setType given.2) iflist) iflist

theorem names_updateFirst
    (query : Rinterface → Bool)
    (type : IfType)
    (iflist : List Rinterface) :
    (updateFirst query (setType type) iflist).map Rinterface.name =
      iflist.map Rinterface.name := by
  have same (face : Rinterface) (_ : query face = true) : (setType type face).name = face.name :=
    rfl
  exact map_updateFirst same iflist

/-- The loop after a pass. -/
theorem passes_succ
    {fuel : Nat}
    {text rest : List Char}
    {iflist after : List Rinterface}
    (step : pass text iflist = some (rest, after)) :
    passes (fuel + 1) text iflist = if rest = [] then some after else passes fuel rest after := by
  cases rest with
  | nil =>
      simp only [passes, step, if_true]
  | cons char rest =>
      simp only [passes, step, List.cons_ne_nil, if_false]

/-- The type that is set last in the place of an interface, from the names in all places. -/
def typeAt (given : List (String × IfType)) (names : List String) (index : Nat) : Option IfType :=
  ((given.filter fun given => names.findIdx? (· = given.1) = some index).getLast?).map Prod.snd

theorem typeAt_cons
    (given : String × IfType)
    (rest : List (String × IfType))
    (names : List String)
    (index : Nat) :
    typeAt (given :: rest) names index =
      (typeAt rest names index).or
        (if names.findIdx? (· = given.1) = some index then some given.2 else none) := by
  unfold typeAt
  rw [getLast?_filter_cons]
  cases ((rest.filter fun given => names.findIdx? (· = given.1) = some index).getLast?) with
  | none =>
      by_cases found : names.findIdx? (· = given.1) = some index
      · simp [found]
      · simp [found]
  | some last =>
      simp

theorem getElem?_assignAll
    (given : List (String × IfType))
    (iflist : List Rinterface)
    (index : Nat) :
    (assignAll given iflist)[index]? =
      iflist[index]?.map fun face =>
        setType ((typeAt given (iflist.map Rinterface.name) index).getD face.type) face := by
  induction given generalizing iflist with
  | nil =>
      change iflist[index]? = iflist[index]?.map id
      rw [Option.map_id, id_eq]
  | cons first rest inductionHypothesis =>
      have place :
          (iflist.map Rinterface.name).findIdx? (· = first.1) =
            iflist.findIdx? (qName first.1) := by
        rw [List.findIdx?_map]
        rfl
      change (assignAll rest (updateFirst (qName first.1) (setType first.2) iflist))[index]? = _
      rw [inductionHypothesis, names_updateFirst, getElem?_updateFirst, typeAt_cons, place]
      by_cases found : iflist.findIdx? (qName first.1) = some index
      · rw [if_pos found, if_pos found, Option.map_map]
        congr 1
        funext face
        cases typeAt rest (iflist.map Rinterface.name) index with
        | none =>
            rfl
        | some type =>
            rfl
      · rw [if_neg found, if_neg found, Option.or_none]

/-- Where the reader is after a pass and what it sets do not depend on the interfaces. -/
theorem pass_script
    (text : List Char) :
    ∃ script : Option (List Char × List (String × IfType)),
      ∀ iflist,
        pass text iflist = script.map fun next => (next.1, assignAll next.2 iflist) := by
  by_cases long : 100 ≤ (scanWord isSpace text).1.length
  · refine ⟨none, fun iflist => ?_⟩
    simp [pass, long]
  · by_cases comment : (scanWord isSpace text).1.head? = some '#'
    · refine ⟨some ((scanWord isSpace text).2, []), fun iflist => ?_⟩
      simp [pass, long, comment, assignAll]
    · let behind := scanWord isSpace (scanWord isSpace text).2
      by_cases backbone : startsWith "backbone" (scanWord isSpace text).1 = true
      · by_cases longName : 20 ≤ behind.1.length
        · refine ⟨none, fun iflist => ?_⟩
          simp [pass, long, comment, backbone, behind, longName]
        · refine ⟨some (behind.2, [(String.ofList (cString behind.1), .backbone)]),
            fun iflist => ?_⟩
          simp [pass, long, comment, backbone, behind, longName, assign, assignAll]
      · by_cases access : startsWith "access" (scanWord isSpace text).1 = true
        · by_cases longName : 20 ≤ behind.1.length
          · refine ⟨none, fun iflist => ?_⟩
            simp [pass, long, comment, backbone, access, behind, longName]
          · refine ⟨some (behind.2, [(String.ofList (cString behind.1), .access)]),
              fun iflist => ?_⟩
            simp [pass, long, comment, backbone, access, behind, longName, assign, assignAll]
        · refine ⟨some ((scanWord isSpace text).2, [(String.ofList (cString []), .access)]),
            fun iflist => ?_⟩
          simp [pass, long, comment, backbone, access, assign, assignAll]

theorem passes_script
    (fuel : Nat)
    (text : List Char) :
    ∃ script : Option (List (String × IfType)),
      ∀ iflist, passes fuel text iflist = script.map fun given => assignAll given iflist := by
  induction fuel generalizing text with
  | zero =>
      exact ⟨none, fun _ => rfl⟩
  | succ fuel inductionHypothesis =>
      obtain ⟨first, isFirst⟩ := pass_script text
      cases first with
      | none =>
          refine ⟨none, fun iflist => ?_⟩
          simp [passes, isFirst]
      | some next =>
          obtain ⟨rest, given⟩ := next
          by_cases atEnd : rest = []
          · refine ⟨some given, fun iflist => ?_⟩
            rw [passes_succ (isFirst iflist), if_pos atEnd]
            rfl
          · obtain ⟨later, isLater⟩ := inductionHypothesis rest
            refine ⟨later.map fun behind => given ++ behind, fun iflist => ?_⟩
            rw [passes_succ (isFirst iflist), if_neg atEnd, isLater, Option.map_map]
            congr 1
            funext behind
            exact (List.foldl_append).symm

/-- A file sets the same types whatever interfaces there are. -/
theorem load_script
    (file : Option (List Char)) :
    ∃ script : Option (List (String × IfType)),
      ∀ iflist,
        loadInterfaceTypeFromConfig file iflist =
          script.map fun given => assignAll given iflist := by
  cases file with
  | none =>
      exact ⟨some [], fun _ => rfl⟩
  | some content =>
      exact passes_script _ content

/-- A pass that leaves no array, and gets on. -/
theorem pass_some
    {text : List Char}
    (short : ∀ word ∈ words isSpace text, word.length < 20)
    (iflist : List Rinterface) :
    ∃ rest after,
      pass text iflist = some (rest, after) ∧
        (∀ word ∈ words isSpace rest, word.length < 20) ∧
          (rest ≠ [] → rest.length < text.length) := by
  have first := scanWord_short (by decide) short
  have second := scanWord_short (by decide) first.2
  have fits : ¬100 ≤ (scanWord isSpace text).1.length := by omega
  have fitsName := Nat.not_le.mpr second.1
  have shorter (rest : List Char) (less : rest.length ≤ (scanWord isSpace text).2.length) :
      rest ≠ [] → rest.length < text.length := by
    intro more
    have nonempty : text ≠ [] := by
      rintro rfl
      have nothing : rest.length ≤ 0 := less
      exact more (List.length_eq_zero_iff.mp (Nat.le_zero.mp nothing))
    exact Nat.lt_of_le_of_lt less (length_scanWord_lt nonempty)
  have afterWord := shorter _ (Nat.le_refl _)
  have afterName := shorter (scanWord isSpace (scanWord isSpace text).2).2 (length_scanWord_le _)
  by_cases comment : (scanWord isSpace text).1.head? = some '#'
  · refine ⟨(scanWord isSpace text).2, iflist, ?_, first.2, afterWord⟩
    simp only [pass, if_neg fits, if_pos comment]
  · by_cases backbone : startsWith "backbone" (scanWord isSpace text).1 = true
    · refine ⟨_, assign iflist (scanWord isSpace (scanWord isSpace text).2).1 .backbone, ?_,
        second.2, afterName⟩
      simp only [pass, if_neg fits, if_neg comment, if_pos backbone, if_neg fitsName]
    · by_cases access : startsWith "access" (scanWord isSpace text).1 = true
      · refine ⟨_, assign iflist (scanWord isSpace (scanWord isSpace text).2).1 .access, ?_,
          second.2, afterName⟩
        simp only [pass, if_neg fits, if_neg comment, if_neg backbone, if_pos access,
          if_neg fitsName]
      · refine ⟨_, assign iflist [] .access, ?_, first.2, afterWord⟩
        simp only [pass, if_neg fits, if_neg comment, if_neg backbone, if_neg access]

theorem passes_some
    {fuel : Nat}
    {text : List Char}
    (short : ∀ word ∈ words isSpace text, word.length < 20)
    (enough : text.length < fuel)
    (iflist : List Rinterface) :
    ∃ after, passes fuel text iflist = some after := by
  induction fuel generalizing text iflist with
  | zero =>
      exact absurd enough (Nat.not_lt_zero _)
  | succ fuel inductionHypothesis =>
      obtain ⟨rest, next, step, shortRest, less⟩ := pass_some short iflist
      rw [passes_succ step]
      by_cases atEnd : rest = []
      · exact ⟨next, if_pos atEnd⟩
      · rw [if_neg atEnd]
        exact inductionHypothesis shortRest
          (Nat.lt_of_lt_of_le (less atEnd) (Nat.le_of_lt_succ enough)) next

/-- The words of a file fit into the arrays they are read into. -/
def FileFits (file : Option (List Char)) : Prop :=
  ∀ content ∈ file, ∀ word ∈ words isSpace content, word.length < 20

/-- Such a file is read to its end. -/
theorem load_some
    {file : Option (List Char)}
    (fits : FileFits file)
    (iflist : List Rinterface) :
    ∃ after, loadInterfaceTypeFromConfig file iflist = some after := by
  cases file with
  | none =>
      exact ⟨iflist, rfl⟩
  | some content =>
      exact passes_some (fits content rfl) (Nat.lt_succ_self _) iflist

end Interface.Config

end Pma
