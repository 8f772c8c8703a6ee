import Mathlib.Data.List.DropRight
import Mathlib.Data.Nat.ModEq
import Pma.Interface

namespace Pma

/-!
# The detection threads

`utils/thread_daemon.c` calls the function of a daemon at an interval, and once in
a longer interval with another type.  Both intervals come from `icm.ini`, which
`utils/ini.c` reads and `ini_parser` of `server/icm.c` takes over; an interval
that is not in the file is zero.
-/

namespace ThreadDaemon

open FirstMatch Interface

/-! ## The file -/

/-- `fgets` with room for `room` characters: a line, up to its end if it fits, and the rest. -/
def fgets : Nat → List Char → List Char × List Char
  | 0, text => ([], text)
  | _ + 1, [] => ([], [])
  | room + 1, char :: text =>
      if char = '\n' then
        ([char], text)
      else
        let (line, rest) := fgets room text
        (char :: line, rest)

/-- The lines that `fgets` returns for `PATH_MAX`. -/
def fileLines : Nat → List Char → List (List Char)
  | 0, _ => []
  | _ + 1, [] => []
  | fuel + 1, text =>
      let (line, rest) := fgets 4095 text
      line :: fileLines fuel rest

/-- `strtrim`. -/
def strtrim (str : List Char) : List Char :=
  (str.dropWhile isSpace).rdropWhile isSpace

/-- What `_parse_ini` does with a line. -/
inductive IniLine where
  | ignored
  | section (name : String)
  | directive (key value : String)
  | bad
  deriving Repr, DecidableEq

/-- The body of the loop of `_parse_ini`, up to the call of `cb`. -/
def readLine (line : List Char) : IniLine :=
  let line := line.takeWhile fun char => char ≠ '\x00'
  let line := strtrim (line.takeWhile fun char => char ≠ '#')
  if line = [] then
    .ignored
  else if line.head? = some '[' ∧ line.getLast? = some ']' then
    if line.length ≤ 2 then
      .bad
    else
      .section (String.ofList (line.drop 1).dropLast)
  else
    -- `strsep`: the value is null when there is no `=`
    match line.dropWhile fun char => char ≠ '=' with
    | [] => .bad
    | _ :: value =>
        .directive (String.ofList (strtrim (line.takeWhile fun char => char ≠ '=')))
          (String.ofList (strtrim value))

/-- A call of `cb` for a directive. -/
structure Directive where
  sectionName : Option String
  key : String
  value : String
  deriving Repr, DecidableEq

/-- The calls of `cb` for directives, until a line is bad. -/
def directives : Option String → List (List Char) → List Directive
  | _, [] => []
  | sectionName, line :: rest =>
      match readLine line with
      | .ignored => directives sectionName rest
      | .section name => directives (some name) rest
      | .directive key value => ⟨sectionName, key, value⟩ :: directives sectionName rest
      | .bad => []

/-! ## The daemons -/

/-- The seven variables of type `PDaemon`. -/
inductive Daemon where
  | routetable
  | ifinfo
  | devinfo
  | spf
  | ospfifinfo
  | bgpifinfo
  | bgppath
  deriving Repr, DecidableEq

/-- The section of a daemon. -/
def Daemon.sectionName : Daemon → String
  | .routetable => "routetable"
  | .ifinfo => "ifinfo"
  | .devinfo => "devinfo"
  | .spf => "spf"
  | .ospfifinfo => "ospf_ifinfo"
  | .bgpifinfo => "bgp_ifinfo"
  | .bgppath => "bgp_pathinfo"

/-- The fields of a `PDaemon` that the loop reads. -/
structure PDaemon where
  runCount : Int32
  minInterval : Int32
  maxInterval : Int32
  deriving Repr, DecidableEq

/-- `adv_atoi` to base 10. -/
def advAtoi (str : String) : Int32 :=
  Int32.ofInt (strtol str)

/-- `ini_parser`. -/
def iniParser (daemons : Daemon → PDaemon) (call : Directive) : Daemon → PDaemon := fun daemon =>
  if call.sectionName = some daemon.sectionName then
    if call.key = "min_interval" then
      { daemons daemon with minInterval := advAtoi call.value }
    else if call.key = "max_interval" then
      { daemons daemon with maxInterval := advAtoi call.value }
    else
      daemons daemon
  else
    daemons daemon

/-- The daemons after `parse_ini`; there may be no file. -/
def parseIni (file : Option (List Char)) : Daemon → PDaemon :=
  match file with
  | none => fun _ => ⟨0, 0, 0⟩
  | some content =>
      (directives none (fileLines content.length content)).foldl iniParser fun _ => ⟨0, 0, 0⟩

/-! ## The loop -/

/-- What ends a thread in a division. -/
inductive Fault where
  | byZero
  | overflow
  deriving Repr, DecidableEq

/-- `/` of two `int`. -/
def intDiv (first second : Int32) : Except Fault Int32 :=
  if second = 0 then
    .error .byZero
  else if first = Int32.minValue ∧ second = -1 then
    .error .overflow
  else
    .ok (first / second)

/-- `%` of two `int`. -/
def intMod (first second : Int32) : Except Fault Int32 :=
  if second = 0 then
    .error .byZero
  else if first = Int32.minValue ∧ second = -1 then
    .error .overflow
  else
    .ok (first % second)

/-- An iteration of `daemon_loop`: `run_count` and the type the function is called with. -/
def iteration (maxLoopCount runCount : Int32) : Except Fault (Int32 × Int32) := do
  let runCount ← intMod (runCount + 1) maxLoopCount
  return (runCount, if runCount = maxLoopCount - 1 then 2 else 1)

/-- The types of so many iterations. -/
def iterations (maxLoopCount : Int32) : Nat → Int32 → Except Fault (List Int32)
  | 0, _ => .ok []
  | count + 1, runCount => do
      let (runCount, type) ← iteration maxLoopCount runCount
      let types ← iterations maxLoopCount count runCount
      return type :: types

/-- `daemon_loop` for so many iterations. -/
def daemonLoop (p : PDaemon) (count : Nat) : Except Fault (List Int32) := do
  let maxLoopCount ← intDiv p.maxInterval p.minInterval
  iterations maxLoopCount count p.runCount

/-! ## What is asked of a daemon -/

/-- The thread divides and takes remainders by other numbers than zero only. -/
def NeverByZero (p : PDaemon) : Prop :=
  ∀ count, daemonLoop p count ≠ .error .byZero

/-- How many times the short interval fits into the long one. -/
def ratio (p : PDaemon) : Nat :=
  p.maxInterval.toInt.toNat / p.minInterval.toInt.toNat

/-- Among so many consecutive iterations one has type two, and all others have type one. -/
def OnceEach (p : PDaemon) : Prop :=
  ∀ start, ∃ types,
    daemonLoop p (start + ratio p) = .ok types ∧
      (∃! index, index < ratio p ∧ types[start + index]? = some 2) ∧
        ∀ index < ratio p, types[start + index]? = some 1 ∨ types[start + index]? = some 2

/-- The intervals with which a thread can run: the long one is not the shorter one. -/
def Divides (minInterval maxInterval : Int32) : Prop :=
  minInterval ≠ 0 ∧ minInterval.toInt.natAbs ≤ maxInterval.toInt.natAbs

/-! ## Divisions by zero -/

theorem toInt_eq_zero_iff
    (value : Int32) :
    value.toInt = 0 ↔ value = 0 := by
  constructor
  · intro zero
    exact Int32.toInt_inj.mp zero
  · intro zero
    rw [zero]
    rfl

/-- The long interval holds the short one at least once if and only if it is not shorter. -/
theorem div_eq_zero_iff
    {first second : Int32}
    (nonzero : second ≠ 0)
    (inside : ¬(first = Int32.minValue ∧ second = -1)) :
    first / second = 0 ↔ first.toInt.natAbs < second.toInt.natAbs := by
  have quotient : (first / second).toInt = first.toInt.tdiv second.toInt := by
    by_cases least : first = Int32.minValue
    · exact Int32.toInt_div_of_ne_right first second fun minus => inside ⟨least, minus⟩
    · exact Int32.toInt_div_of_ne_left first second least
  have nonzeroInt : second.toInt ≠ 0 := fun zero => nonzero ((toInt_eq_zero_iff second).mp zero)
  have positive : 0 < second.toInt.natAbs := Int.natAbs_pos.mpr nonzeroInt
  rw [← toInt_eq_zero_iff, quotient, ← Int.natAbs_eq_zero, Int.natAbs_tdiv]
  change first.toInt.natAbs / second.toInt.natAbs = 0 ↔ _
  rw [Nat.div_eq_zero_iff]
  omega

/-- With another count than zero no iteration takes a remainder by zero. -/
theorem iterations_not_byZero
    {maxLoopCount : Int32}
    (nonzero : maxLoopCount ≠ 0)
    (count : Nat)
    (runCount : Int32) :
    iterations maxLoopCount count runCount ≠ .error .byZero := by
  induction count generalizing runCount with
  | zero =>
      intro fails
      cases fails
  | succ count inductionHypothesis =>
      intro fails
      unfold iterations iteration intMod at fails
      rw [if_neg nonzero] at fails
      by_cases overflows : runCount + 1 = Int32.minValue ∧ maxLoopCount = -1
      · rw [if_pos overflows] at fails
        cases fails
      · rw [if_neg overflows] at fails
        cases later : iterations maxLoopCount count ((runCount + 1) % maxLoopCount) with
        | error fault =>
            have sameFault : fault = .byZero := by
              simpa [bind, Except.bind, pure, Except.pure, later] using fails
            exact inductionHypothesis _ (later.trans (congrArg Except.error sameFault))
        | ok types =>
            simp [bind, Except.bind, pure, Except.pure, later] at fails

/-- The thread never divides by zero if and only if the intervals are these. -/
theorem neverByZero_iff
    (p : PDaemon) :
    NeverByZero p ↔ Divides p.minInterval p.maxInterval := by
  by_cases zero : p.minInterval = 0
  · constructor
    · intro never
      have first : daemonLoop p 0 = .error .byZero := by
        unfold daemonLoop intDiv
        rw [if_pos zero]
        rfl
      exact absurd first (never 0)
    · intro divides
      exact absurd zero divides.1
  · by_cases overflows : p.maxInterval = Int32.minValue ∧ p.minInterval = -1
    · have divides : Divides p.minInterval p.maxInterval := by
        refine ⟨zero, ?_⟩
        rw [overflows.1, overflows.2]
        decide
      have never : NeverByZero p := by
        intro count
        unfold daemonLoop intDiv
        rw [if_neg zero, if_pos overflows]
        intro same
        cases same
      exact iff_of_true never divides
    · have quotient : intDiv p.maxInterval p.minInterval =
          .ok (p.maxInterval / p.minInterval) := by
        unfold intDiv
        rw [if_neg zero, if_neg overflows]
      have empty := div_eq_zero_iff zero overflows
      have loops (count : Nat) :
          daemonLoop p count =
            iterations (p.maxInterval / p.minInterval) count p.runCount := by
        unfold daemonLoop
        rw [quotient]
        rfl
      constructor
      · intro never
        refine ⟨zero, Nat.not_lt.mp fun shorter => never 1 ?_⟩
        rw [loops, empty.mpr shorter]
        rfl
      · intro divides count
        rw [loops]
        apply iterations_not_byZero
        intro isZero
        exact Nat.not_lt.mpr divides.2 (empty.mp isZero)

/-! ## The cadence -/

/-- An iteration with a positive count. -/
theorem iteration_eq
    {maxLoopCount runCount : Int32}
    {loops run : Nat}
    (isCount : maxLoopCount.toInt = loops)
    (isRun : runCount.toInt = run)
    (below : run < loops) :
    ∃ next : Int32,
      next.toInt = ((run + 1) % loops : Nat) ∧
        iteration maxLoopCount runCount =
          .ok (next, if (run + 1) % loops = loops - 1 then 2 else 1) := by
  have bound := maxLoopCount.toInt_lt
  have positive : maxLoopCount ≠ 0 := by
    intro zero
    rw [zero] at isCount
    have none : (0 : Int32).toInt = 0 := rfl
    omega
  have sum : (runCount + 1).toInt = (run + 1 : Nat) := by
    have one : (1 : Int32).toInt = 1 := rfl
    rw [Int32.toInt_add, isRun, one]
    apply Int.bmod_eq_of_le
    · omega
    · omega
  have pred : (maxLoopCount - 1).toInt = (loops - 1 : Nat) := by
    have one : (1 : Int32).toInt = 1 := rfl
    rw [Int32.toInt_sub, isCount, one, Int.bmod_eq_of_le]
    · omega
    · omega
    · omega
  have notLeast : runCount + 1 ≠ Int32.minValue := by
    intro least
    rw [least] at sum
    have value : Int32.minValue.toInt = -2147483648 := by decide
    omega
  have next : ((runCount + 1) % maxLoopCount).toInt = ((run + 1) % loops : Nat) := by
    rw [Int32.toInt_mod, sum, isCount, Int.tmod_eq_emod_of_nonneg (Int.natCast_nonneg _)]
    rfl
  refine ⟨(runCount + 1) % maxLoopCount, next, ?_⟩
  have isLast : (runCount + 1) % maxLoopCount = maxLoopCount - 1 ↔
      (run + 1) % loops = loops - 1 := by
    rw [← Int32.toInt_inj, next, pred, Int.natCast_inj]
  unfold iteration intMod
  rw [if_neg positive, if_neg fun least => notLeast least.1]
  by_cases last : (run + 1) % loops = loops - 1
  · rw [if_pos last]
    exact congrArg (fun type => Except.ok (_, type)) (if_pos (isLast.mpr last))
  · rw [if_neg last]
    exact congrArg (fun type => Except.ok (_, type)) (if_neg fun same => last (isLast.mp same))

/-- The types of iterations, counted from the first one of the thread. -/
theorem iterations_eq
    {maxLoopCount runCount : Int32}
    {loops : Nat}
    (positive : 0 < loops)
    (isCount : maxLoopCount.toInt = loops)
    (done count : Nat)
    (isRun : runCount.toInt = (done % loops : Nat)) :
    iterations maxLoopCount count runCount =
      .ok ((List.range count).map fun index =>
        if (done + index + 1) % loops = loops - 1 then 2 else 1) := by
  induction count generalizing done runCount with
  | zero =>
      rfl
  | succ count inductionHypothesis =>
      obtain ⟨next, isNext, step⟩ := iteration_eq isCount isRun (Nat.mod_lt done positive)
      rw [Nat.mod_add_mod] at isNext step
      have later := inductionHypothesis (done + 1) isNext
      unfold iterations
      rw [step]
      change (iterations maxLoopCount count next).bind (fun types => .ok (_ :: types)) = _
      rw [later, List.range_succ_eq_map, List.map_cons, List.map_map]
      change Except.ok (_ :: _) = Except.ok (_ :: _)
      congr 3
      funext index
      simp only [Function.comp_apply]
      have shift : done + 1 + index + 1 = done + index.succ + 1 := by omega
      rw [shift]

/-- In a window of the length of a period one place is the last one of the period. -/
theorem existsUnique_last
    {loops : Nat}
    (positive : 0 < loops)
    (start : Nat) :
    ∃! index, index < loops ∧ (start + index) % loops = loops - 1 := by
  have below := Nat.mod_lt start positive
  refine ⟨loops - 1 - start % loops, ⟨by omega, ?_⟩, ?_⟩
  · rw [← Nat.mod_add_mod]
    have whole : start % loops + (loops - 1 - start % loops) = loops - 1 := by omega
    rw [whole]
    exact Nat.mod_eq_of_lt (by omega)
  · rintro other ⟨inside, isLast⟩
    have same : start + other ≡ start + (loops - 1 - start % loops) [MOD loops] := by
      unfold Nat.ModEq
      rw [isLast, ← Nat.mod_add_mod]
      have whole : start % loops + (loops - 1 - start % loops) = loops - 1 := by omega
      rw [whole]
      exact (Nat.mod_eq_of_lt (by omega)).symm
    have places := Nat.ModEq.add_left_cancel' start same
    have inPlace : loops - 1 - start % loops < loops := by omega
    exact Nat.ModEq.eq_of_lt_of_lt places inside inPlace

theorem onceEach_of_le
    {p : PDaemon}
    (fresh : p.runCount = 0)
    (positive : 0 < p.minInterval.toInt)
    (ordered : p.minInterval.toInt ≤ p.maxInterval.toInt) :
    OnceEach p := by
  have long : 0 < ratio p := Nat.div_pos (by omega) (by omega)
  have nonzero : p.minInterval ≠ 0 := by
    intro zero
    rw [zero] at positive
    exact absurd positive (by decide)
  have notLeast : p.maxInterval ≠ Int32.minValue := by
    intro least
    rw [least] at ordered
    have value : Int32.minValue.toInt = -2147483648 := by decide
    omega
  have isCount : (p.maxInterval / p.minInterval).toInt = ratio p := by
    rw [Int32.toInt_div_of_ne_left _ _ notLeast,
      Int.tdiv_eq_ediv_of_nonneg (Int.le_trans (Int.le_of_lt positive) ordered)]
    have dividend : p.maxInterval.toInt = (p.maxInterval.toInt.toNat : Int) := by omega
    have divisor : p.minInterval.toInt = (p.minInterval.toInt.toNat : Int) := by omega
    rw [dividend, divisor]
    rfl
  intro start
  have run : daemonLoop p (start + ratio p) =
      .ok ((List.range (start + ratio p)).map fun index =>
        if (0 + index + 1) % ratio p = ratio p - 1 then 2 else 1) := by
    have isRun : p.runCount.toInt = (0 % ratio p : Nat) := by
      rw [fresh, Nat.zero_mod]
      rfl
    unfold daemonLoop intDiv
    rw [if_neg nonzero, if_neg fun least => notLeast least.1]
    exact iterations_eq long isCount 0 (start + ratio p) isRun
  have place {index : Nat} (inside : index < ratio p) :
      ((List.range (start + ratio p)).map fun index =>
        if (0 + index + 1) % ratio p = ratio p - 1 then (2 : Int32) else 1)[start + index]? =
        some (if (start + 1 + index) % ratio p = ratio p - 1 then 2 else 1) := by
    have shift : 0 + (start + index) + 1 = start + 1 + index := by omega
    rw [List.getElem?_map, List.getElem?_range (by omega), Option.map_some, shift]
  refine ⟨_, run, ?_, ?_⟩
  · obtain ⟨index, ⟨inside, isLast⟩, unique⟩ := existsUnique_last long (start + 1)
    refine ⟨index, ⟨inside, ?_⟩, ?_⟩
    · rw [place inside, if_pos isLast]
    · rintro other ⟨insideOther, isTwo⟩
      refine unique other ⟨insideOther, ?_⟩
      by_contra notLast
      rw [place insideOther, if_neg notLast] at isTwo
      exact absurd (Option.some.inj isTwo) (by decide)
  · intro index inside
    rw [place inside]
    by_cases isLast : (start + 1 + index) % ratio p = ratio p - 1
    · exact Or.inr (congrArg some (if_pos isLast))
    · exact Or.inl (congrArg some (if_neg isLast))

/-! ## The file and the daemons -/

/-- `fgets` takes something from a file that is not at its end, and loses nothing. -/
theorem fgets_append
    (room : Nat)
    (text : List Char) :
    (fgets room text).1 ++ (fgets room text).2 = text := by
  induction room generalizing text with
  | zero =>
      rfl
  | succ room inductionHypothesis =>
      cases text with
      | nil =>
          rfl
      | cons char text =>
          unfold fgets
          by_cases newline : char = '\n'
          · rw [if_pos newline]
            rfl
          · rw [if_neg newline]
            exact congrArg (List.cons char) (inductionHypothesis text)

theorem length_fgets_lt
    {room : Nat}
    (char : Char)
    (text : List Char) :
    (fgets (room + 1) (char :: text)).2.length < (char :: text).length := by
  unfold fgets
  by_cases newline : char = '\n'
  · rw [if_pos newline]
    exact Nat.lt_succ_self _
  · rw [if_neg newline]
    have whole := congrArg List.length (fgets_append room text)
    rw [List.length_append] at whole
    simp only [List.length_cons]
    omega

/-- The lines of a file are the whole file. -/
theorem flatten_fileLines
    {fuel : Nat}
    {text : List Char}
    (enough : text.length ≤ fuel) :
    (fileLines fuel text).flatten = text := by
  induction fuel generalizing text with
  | zero =>
      rw [List.length_eq_zero_iff.mp (Nat.le_zero.mp enough)]
      rfl
  | succ fuel inductionHypothesis =>
      cases text with
      | nil =>
          rfl
      | cons char text =>
          have shorter : (fgets 4095 (char :: text)).2.length < (char :: text).length :=
            length_fgets_lt char text
          unfold fileLines
          rw [List.flatten_cons, inductionHypothesis (by omega)]
          exact fgets_append 4095 (char :: text)

/-- The value of the last directive for a key in the section of a daemon. -/
def lastValue (calls : List Directive) (daemon : Daemon) (key : String) : Option Int32 :=
  ((calls.filter fun call =>
    call.sectionName = some daemon.sectionName ∧ call.key = key).getLast?).map fun call =>
      advAtoi call.value

theorem lastValue_cons
    (call : Directive)
    (rest : List Directive)
    (daemon : Daemon)
    (key : String) :
    lastValue (call :: rest) daemon key =
      (lastValue rest daemon key).or
        (if call.sectionName = some daemon.sectionName ∧ call.key = key then
          some (advAtoi call.value)
        else
          none) := by
  unfold lastValue
  rw [getLast?_filter_cons]
  cases ((rest.filter fun call =>
    call.sectionName = some daemon.sectionName ∧ call.key = key).getLast?) with
  | none =>
      by_cases isKey : call.sectionName = some daemon.sectionName ∧ call.key = key
      · simp [isKey]
      · simp [isKey]
  | some last =>
      simp

/-- Each interval is that of its last directive; one without a directive stays as it was. -/
theorem foldl_iniParser
    (calls : List Directive)
    (daemons : Daemon → PDaemon)
    (daemon : Daemon) :
    calls.foldl iniParser daemons daemon =
      { daemons daemon with
        minInterval :=
          (lastValue calls daemon "min_interval").getD (daemons daemon).minInterval
        maxInterval :=
          (lastValue calls daemon "max_interval").getD (daemons daemon).maxInterval } := by
  induction calls generalizing daemons with
  | nil =>
      rfl
  | cons call rest inductionHypothesis =>
      rw [List.foldl_cons, inductionHypothesis, lastValue_cons, lastValue_cons]
      unfold iniParser
      by_cases inSection : call.sectionName = some daemon.sectionName
      · by_cases isMin : call.key = "min_interval"
        · have notMax : ¬call.key = "max_interval" := by
            rw [isMin]
            decide
          cases lastValue rest daemon "min_interval" with
          | none =>
              simp [inSection, isMin]
          | some value =>
              simp [inSection, isMin]
        · by_cases isMax : call.key = "max_interval"
          · cases lastValue rest daemon "max_interval" with
            | none =>
                simp [inSection, isMax]
            | some value =>
                simp [inSection, isMax]
          · simp [inSection, isMin, isMax]
      · simp [inSection]

/-- The value that a file gives to a key for a daemon, which is zero when it gives none. -/
def written (file : Option (List Char)) (daemon : Daemon) (key : String) : Int32 :=
  match file with
  | none => 0
  | some content =>
      (lastValue (directives none (fileLines content.length content)) daemon key).getD 0

/-- The daemons of a file. -/
theorem parseIni_eq
    (file : Option (List Char))
    (daemon : Daemon) :
    parseIni file daemon =
      { runCount := 0
        minInterval := written file daemon "min_interval"
        maxInterval := written file daemon "max_interval" } := by
  cases file with
  | none =>
      rfl
  | some content =>
      exact foldl_iniParser _ _ daemon

/--
For any file and daemon, the loop never divides by zero and keeps its cadence if
and only if the short interval in the file is not zero and the long one not shorter.
-/
theorem parseIni_daemonLoop
    (file : Option (List Char))
    (daemon : Daemon) :
    (NeverByZero (parseIni file daemon) ∧
        (0 < (parseIni file daemon).minInterval →
          (parseIni file daemon).minInterval ≤ (parseIni file daemon).maxInterval →
            OnceEach (parseIni file daemon))) ↔
      Divides (written file daemon "min_interval") (written file daemon "max_interval") := by
  rw [parseIni_eq]
  constructor
  · intro both
    exact (neverByZero_iff _).mp both.1
  · intro divides
    refine ⟨(neverByZero_iff _).mpr divides, fun positive ordered => ?_⟩
    exact onceEach_of_le rfl (Int32.lt_iff_toInt_lt.mp positive)
      (Int32.le_iff_toInt_le.mp ordered)

/-- Without a file the first division is one by zero. -/
theorem parseIni_missing :
    daemonLoop (parseIni none .routetable) 0 = .error .byZero ∧
      ¬NeverByZero (parseIni none .routetable) := by
  have fails : daemonLoop (parseIni none .routetable) 0 = .error .byZero := by
    decide
  exact ⟨fails, fun never => never 0 fails⟩

end ThreadDaemon

end Pma
