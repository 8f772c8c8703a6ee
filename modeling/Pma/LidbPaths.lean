import Pma.Lidb
import Pma.Loops

namespace Pma.Lidb

open Ddc (maxMetric)

/-!
# The recorded paths

`record_short_path` makes a `Netpath` for the pairs of routers it selects and
hangs it into the list of the area and into the lists of the links on its way.
The lists share their paths, which are known by their addresses here.
-/

/-- `connection`. -/
inductive Connection where
  | unconnecting
  | connecting
  deriving DecidableEq, Repr

/-- `struct Netpath`. -/
structure Netpath where
  /-- What the pointers to it hold. -/
  address : Nat
  rid : UInt32
  nrid : UInt32
  connection : Connection
  importanceValue : UInt32
  distanceMetric : UInt32
  /-- An index in fact. -/
  nexthopRid : Int
  deriving DecidableEq, Repr

/-- `struct link_path_info`; its link is the one at the same place of `lslist`. -/
structure LinkPathInfo where
  /-- The paths by their addresses, the last one first. -/
  allshortpaths : List Nat
  shortpathCount : Nat
  deriving DecidableEq, Repr

/-- The lists of `struct area_info`. -/
structure Paths where
  /-- What was added to the list, the last one first. -/
  shortpaths : List Netpath
  /-- What the pointer to the list held before, which is where it ends; 0 is `NULL`. -/
  tail : Nat
  linkshadows : List LinkPathInfo
  deriving DecidableEq, Repr

/-- What the memory of the lists of an area held before. -/
structure Memory where
  shortpaths : Nat
  linkshadows : Nat → LinkPathInfo

/-- What `init_lidb_info` does to the lists for one link. -/
def initLists (paths : Paths) (entry : TopoLink × Nat) : Paths :=
  let (link, j) := entry
  let linkshadows := paths.linkshadows.set j ⟨[], 0⟩
  if IsAccess link then
    { paths with linkshadows := linkshadows }
  else
    { paths with linkshadows := linkshadows, shortpaths := [], tail := 0 }

/-- The lists that `init_lidb_info` leaves, in memory that holds anything. -/
def startPaths (memory : Memory) (lslist : List TopoLink) : Paths :=
  lslist.zipIdx.foldl initLists
    ⟨[], memory.shortpaths, (List.range lslist.length).map memory.linkshadows⟩

/-- `get_importance_value_of_router`. -/
def importanceValueOfRouter (lslist : List TopoLink) (rid : UInt32) : UInt32 :=
  lslist.foldl
    (fun value link => if link.rid = rid ∧ IsAccess link then value + link.metric else value)
    0

/-- `add_path_to_area_short_path`; the list grows in front, also when it is empty. -/
def Paths.addPath (paths : Paths) (path : Netpath) : Paths :=
  { paths with shortpaths := path :: paths.shortpaths }

/-- A path is added to the list of a link. -/
def LinkPathInfo.add (linkshadow : LinkPathInfo) (path : Nat) : LinkPathInfo where
  allshortpaths := path :: linkshadow.allshortpaths
  shortpathCount := linkshadow.shortpathCount + 1

/-- `add_path_of_link`. -/
def addPathOfLink (path : Nat) (paths : Paths) (linkIndex : Int) : Except Fault Paths :=
  if paths.linkshadows.length < linkIndex ∨ linkIndex < 0 then
    .ok paths
  else if linkIndex < paths.linkshadows.length then
    .ok
      { paths with
        linkshadows := paths.linkshadows.modify linkIndex.toNat (·.add path) }
  else
    .error .linkshadowsOverrun

/--
The loop of `record_short_path`, which may not end: the link indices it hands on.
The next hop of a node is taken up one pass after the node.
-/
def walk (az : AreaInfo) (j : Nat) : Nat → Nat → Int → Except Fault (List Int)
  | 0, _, _ => .error .unending
  | fuel + 1, thisnode, nextHop =>
      if thisnode ≠ j ∧ 0 ≤ nextHop then
        if nextHop < az.routerCount then
          (walk az j fuel nextHop.toNat (az.matrix thisnode j).nextHop).map
            ((az.matrix thisnode nextHop.toNat).linkIndex :: ·)
        else
          .error .nodeinfoOverrun
      else
        .ok []

/-- Whether `record_short_path` makes a path for an entry. -/
def Netnode.isRecorded (node : Netnode) : Bool :=
  ¬(maxMetric ≤ node.pathCost.toNat ∨ node.metric = 0)

/-- The path from router `i` to router `j`. -/
def AreaInfo.netpath (az : AreaInfo) (address : Nat) (cell : Nat × Nat) : Netpath where
  address := address
  rid := az.routers.getD cell.1 0
  nrid := az.routers.getD cell.2 0
  connection := .connecting
  importanceValue :=
    importanceValueOfRouter az.lslist (az.routers.getD cell.1 0) *
      importanceValueOfRouter az.lslist (az.routers.getD cell.2 0)
  distanceMetric := (az.matrix cell.1 cell.2).pathCost
  nexthopRid := (az.matrix cell.1 cell.2).nextHop

/-- One pass of the loops of `record_short_path`. -/
def recordCell
    (fuel : Nat)
    (az : AreaInfo)
    (paths : Paths)
    (cell : Nat × Nat) : Except Fault Paths :=
  let node := az.matrix cell.1 cell.2
  if node.isRecorded = true then
    let address := paths.shortpaths.length
    (walk az cell.2 fuel cell.1 node.nextHop).bind fun linkIndices =>
      linkIndices.foldlM (addPathOfLink address) (paths.addPath (az.netpath address cell))
  else
    .ok paths

/-- The pairs of routers in the order of the loops. -/
def cells (n : Nat) : List (Nat × Nat) :=
  (List.range n).flatMap fun i => (List.range n).map fun j => (i, j)

/-- `record_short_path`. -/
def recordShortPath (fuel : Nat) (az : AreaInfo) (paths : Paths) : Except Fault Paths :=
  (cells az.routerCount).foldlM (recordCell fuel az) paths

/-- An area with its paths. -/
structure Area where
  info : AreaInfo
  paths : Paths

/--
`path_compute_start`; `memory` is what the memory of an area held before.
The answers of the queries come by area, source, pass and node.
-/
def pathComputeStart
    (fuel : Nat)
    (ifid : UInt32 → Nat → Nat → Nat → Int)
    (memory : UInt32 → Memory)
    (table : List TopoLink) : Except Fault (List Area) :=
  ((getAreaes table).mapM (initLidbInfo table)).bind fun azinfo =>
    azinfo.mapM fun az =>
      (dijkstraUpTo (ifid az.azid) az az.routerCount).bind fun computed =>
        (recordShortPath fuel computed (startPaths (memory az.azid) az.lslist)).map
          fun paths => ⟨computed, paths⟩

/-! ## What is recorded -/

/-- The pairs that are recorded, in their order. -/
def recordedCells (az : AreaInfo) (done : List (Nat × Nat)) : List (Nat × Nat) :=
  done.filter fun cell => (az.matrix cell.1 cell.2).isRecorded

/-- The paths of these pairs; the address of a path is its number. -/
def netpaths (az : AreaInfo) (done : List (Nat × Nat)) : List Netpath :=
  (recordedCells az done).mapIdx az.netpath

/-- How often a path was added to the list of a link. -/
def Paths.timesOn (paths : Paths) (link address : Nat) : Nat :=
  ((paths.linkshadows[link]?).map fun linkshadow =>
    linkshadow.allshortpaths.count address).getD 0

/-- No list of a link has another length than its count. -/
def Paths.Counted (paths : Paths) : Prop :=
  ∀ linkshadow ∈ paths.linkshadows,
    linkshadow.shortpathCount = linkshadow.allshortpaths.length

section Links

variable {path : Nat} {paths after : Paths} {linkIndex : Int}

/-- What one call of `add_path_of_link` does. -/
theorem addPathOfLink_spec
    (added : addPathOfLink path paths linkIndex = .ok after) :
    after.shortpaths = paths.shortpaths ∧
      after.tail = paths.tail ∧
      after.linkshadows.length = paths.linkshadows.length ∧
      (paths.Counted → after.Counted) ∧
      ∀ link < paths.linkshadows.length,
        ∀ address,
          after.timesOn link address =
            paths.timesOn link address +
              if address = path ∧ linkIndex = link then 1 else 0 := by
  unfold addPathOfLink at added
  split at added
  · rename_i outside
    cases added
    refine ⟨rfl, rfl, rfl, id, fun link inside address => ?_⟩
    rw [if_neg (by omega), Nat.add_zero]
  · split at added
    · rename_i nonnegative inside
      cases added
      obtain ⟨index, rfl⟩ := Int.eq_ofNat_of_zero_le (by omega : 0 ≤ linkIndex)
      refine ⟨rfl, rfl, List.length_modify _ _ _, fun counted linkshadow member => ?_,
        fun link linkInside address => ?_⟩
      · obtain ⟨place, within, rfl⟩ := List.mem_iff_getElem.mp member
        rw [List.getElem_modify]
        have before := counted _ (List.getElem_mem (by simpa using within))
        split
        · rw [LinkPathInfo.add, before]
          rfl
        · exact before
      · unfold Paths.timesOn
        dsimp only
        rw [List.getElem?_modify, List.getElem?_eq_getElem linkInside]
        dsimp only [Option.map_some, Option.getD_some, Int.toNat_natCast]
        by_cases same : index = link
        · simp only [if_pos same, Option.map_eq_map, Option.map_some, Option.getD_some]
          change List.count address (path :: _) = _
          rw [List.count_cons]
          by_cases own : address = path
          · rw [own, beq_self_eq_true, if_pos rfl, if_pos ⟨rfl, by rw [same]⟩]
          · rw [if_neg fun equal => own (eq_of_beq equal).symm, if_neg fun both => own both.1]
        · rw [if_neg fun both => same (Int.ofNat_inj.mp both.2), Nat.add_zero]
          simp only [if_neg same, Option.map_eq_map, Option.map_some, Option.getD_some]
    · cases added

/-- What the calls for one path do. -/
theorem foldlM_addPathOfLink_spec
    {linkIndices : List Int}
    (added : linkIndices.foldlM (addPathOfLink path) paths = .ok after) :
    after.shortpaths = paths.shortpaths ∧
      after.tail = paths.tail ∧
      after.linkshadows.length = paths.linkshadows.length ∧
      (paths.Counted → after.Counted) ∧
      ∀ link < paths.linkshadows.length,
        ∀ address,
          after.timesOn link address =
            paths.timesOn link address +
              if address = path then linkIndices.count (link : Int) else 0 := by
  induction linkIndices generalizing paths with
  | nil =>
      cases added
      refine ⟨rfl, rfl, rfl, id, fun link _ address => ?_⟩
      rw [List.count_nil, ite_self]
      rfl
  | cons linkIndex rest inductionHypothesis =>
      rw [List.foldlM_cons] at added
      obtain ⟨middle, first, later⟩ := Loops.bind_eq_ok.mp added
      obtain ⟨paths₁, tail₁, length₁, counted₁, times₁⟩ := addPathOfLink_spec first
      obtain ⟨paths₂, tail₂, length₂, counted₂, times₂⟩ := inductionHypothesis later
      refine ⟨paths₂.trans paths₁, tail₂.trans tail₁, length₂.trans length₁,
        fun counted => counted₂ (counted₁ counted), fun link inside address => ?_⟩
      rw [times₂ link (by rw [length₁]; exact inside) address, times₁ link inside address,
        List.count_cons, Nat.add_assoc]
      congr 1
      by_cases own : address = path
      · rw [if_pos own, if_pos own, Nat.add_comm]
        congr 1
        by_cases same : linkIndex = link
        · rw [if_pos ⟨own, same⟩, if_pos (beq_iff_eq.mpr same)]
        · rw [if_neg fun both => same both.2, if_neg fun equal => same (beq_iff_eq.mp equal)]
      · rw [if_neg own, if_neg own, if_neg fun both => own both.1]

/-- A link index inside the list of links is fine, and so is a negative one. -/
theorem foldlM_addPathOfLink_ends
    (path : Nat)
    {linkIndices : List Int}
    (inside : ∀ linkIndex ∈ linkIndices, linkIndex < paths.linkshadows.length) :
    ∃ after,
      linkIndices.foldlM (addPathOfLink path) paths = .ok after ∧
        after.linkshadows.length = paths.linkshadows.length := by
  refine Loops.foldlM_ends
    (fun state : Paths => state.linkshadows.length = paths.linkshadows.length)
    (fun state linkIndex member same => ?_) rfl
  have within := inside linkIndex member
  rw [← same] at within
  have step : ∃ next, addPathOfLink path state linkIndex = .ok next := by
    unfold addPathOfLink
    rw [if_pos within]
    split
    · exact ⟨_, rfl⟩
    · exact ⟨_, rfl⟩
  obtain ⟨next, added⟩ := step
  exact ⟨next, added, (addPathOfLink_spec added).2.2.1.trans same⟩

end Links

/-- The loops of `record_short_path` have done some pairs. -/
structure Recorded
    (fuel : Nat)
    (az : AreaInfo)
    (start : Paths)
    (done : List (Nat × Nat))
    (paths : Paths) : Prop where
  shortpaths : paths.shortpaths = (netpaths az done).reverse
  tail : paths.tail = start.tail
  length : paths.linkshadows.length = start.linkshadows.length
  counted : paths.Counted
  walks :
    ∀ (address : Nat) cell,
      (recordedCells az done)[address]? = some cell →
      ∃ linkIndices,
        walk az cell.2 fuel cell.1 (az.matrix cell.1 cell.2).nextHop = .ok linkIndices ∧
          ∀ link < start.linkshadows.length,
            paths.timesOn link address = linkIndices.count (link : Int)
  others :
    ∀ address ≥ (recordedCells az done).length,
      ∀ link < start.linkshadows.length, paths.timesOn link address = 0

section Recording

variable {fuel : Nat} {az : AreaInfo} {start paths after : Paths} {done : List (Nat × Nat)}

theorem Recorded.shortpaths_length
    (recorded : Recorded fuel az start done paths) :
    paths.shortpaths.length = (recordedCells az done).length := by
  rw [recorded.shortpaths, List.length_reverse, netpaths, List.length_mapIdx]

theorem recordedCells_append
    (az : AreaInfo)
    (done : List (Nat × Nat))
    (cell : Nat × Nat) :
    recordedCells az (done ++ [cell]) =
      if (az.matrix cell.1 cell.2).isRecorded = true then
        recordedCells az done ++ [cell]
      else
        recordedCells az done := by
  unfold recordedCells
  rw [List.filter_append, List.filter_singleton]
  by_cases isRecorded : (az.matrix cell.1 cell.2).isRecorded = true
  · rw [if_pos isRecorded, isRecorded, cond_true]
  · rw [if_neg isRecorded, Bool.eq_false_of_not_eq_true isRecorded, cond_false,
      List.append_nil]

/-- One more pair. -/
theorem Recorded.step
    (recorded : Recorded fuel az start done paths)
    {cell : Nat × Nat}
    (step : recordCell fuel az paths cell = .ok after) :
    Recorded fuel az start (done ++ [cell]) after := by
  unfold recordCell at step
  dsimp only at step
  have cellsAfter := recordedCells_append az done cell
  by_cases isRecorded : (az.matrix cell.1 cell.2).isRecorded = true
  · rw [if_pos isRecorded] at step cellsAfter
    obtain ⟨linkIndices, walked, added⟩ := Loops.bind_eq_ok.mp step
    obtain ⟨shortpaths, tail, length, counted, times⟩ := foldlM_addPathOfLink_spec added
    have address := recorded.shortpaths_length
    change after.linkshadows.length = paths.linkshadows.length at length
    change ∀ link < paths.linkshadows.length, ∀ address,
      after.timesOn link address = paths.timesOn link address + _ at times
    rw [recorded.length] at length times
    rw [address] at shortpaths times
    constructor
    case shortpaths =>
      rw [shortpaths, Paths.addPath, recorded.shortpaths, netpaths, netpaths, cellsAfter,
        List.mapIdx_concat, List.reverse_append]
      rfl
    case tail => exact tail.trans recorded.tail
    case length => exact length
    case counted => exact counted recorded.counted
    case walks =>
      intro place other atPlace
      rw [cellsAfter] at atPlace
      rcases Nat.lt_trichotomy place (recordedCells az done).length with
        earlier | same | later
      · rw [List.getElem?_append_left earlier] at atPlace
        obtain ⟨before, walkedBefore, timesBefore⟩ := recorded.walks place other atPlace
        refine ⟨before, walkedBefore, fun link inside => ?_⟩
        rw [times link inside place, if_neg (Nat.ne_of_lt earlier), timesBefore link inside,
          Nat.add_zero]
      · rw [same, List.getElem?_concat_length] at atPlace
        cases atPlace
        refine ⟨linkIndices, walked, fun link inside => ?_⟩
        rw [times link inside place, if_pos same,
          recorded.others place (Nat.le_of_eq same.symm) link inside, Nat.zero_add]
      · have inside := (List.getElem?_eq_some_iff.mp atPlace).1
        rw [List.length_append] at inside
        exact absurd later (Nat.not_lt.mpr (Nat.le_of_lt_succ inside))
    case others =>
      intro place behind link inside
      rw [cellsAfter, List.length_append] at behind
      change place ≥ _ + 1 at behind
      rw [times link inside place, if_neg (by omega),
        recorded.others place (by omega) link inside]
  · rw [if_neg isRecorded] at step cellsAfter
    cases step
    constructor
    case shortpaths =>
      rw [recorded.shortpaths, netpaths, netpaths, cellsAfter]
    case tail => exact recorded.tail
    case length => exact recorded.length
    case counted => exact recorded.counted
    case walks =>
      rw [cellsAfter]
      exact recorded.walks
    case others =>
      rw [cellsAfter]
      exact recorded.others

/-- Lists without a path. -/
structure Paths.Clean (paths : Paths) : Prop where
  shortpaths : paths.shortpaths = []
  linkshadows : ∀ linkshadow ∈ paths.linkshadows, linkshadow = ⟨[], 0⟩

/-- The lists of the first links have been set. -/
theorem set_linkshadows
    (memory : Memory)
    (size done : Nat) :
    ((List.range size).map fun j =>
        if j < done then ⟨[], 0⟩ else memory.linkshadows j).set done ⟨[], 0⟩ =
      (List.range size).map fun j =>
        if j < done + 1 then ⟨[], 0⟩ else memory.linkshadows j := by
  refine List.ext_getElem ?_ fun j inside _ => ?_
  · rw [List.length_set, List.length_map, List.length_map]
  · rw [List.getElem_set, List.getElem_map, List.getElem_map, List.getElem_range]
    by_cases same : done = j
    · rw [if_pos same, if_pos (by omega)]
    · rw [if_neg same]
      by_cases earlier : j < done
      · rw [if_pos earlier, if_pos (by omega)]
      · rw [if_neg earlier, if_neg (by omega)]

theorem exists_backbone_concat
    {links : List TopoLink}
    {last : TopoLink} :
    (∃ link ∈ links ++ [last], ¬IsAccess link) ↔
      (∃ link ∈ links, ¬IsAccess link) ∨ ¬IsAccess last := by
  simp only [List.mem_append, List.mem_singleton, or_and_right, exists_or, exists_eq_left]

/-- The lists while the links are passed. -/
theorem foldl_initLists
    (memory : Memory)
    (links : List TopoLink)
    (size : Nat) :
    links.zipIdx.foldl initLists
        ⟨[], memory.shortpaths, (List.range size).map memory.linkshadows⟩ =
      { shortpaths := []
        tail := if ∃ link ∈ links, ¬IsAccess link then 0 else memory.shortpaths
        linkshadows :=
          (List.range size).map fun j =>
            if j < links.length then ⟨[], 0⟩ else memory.linkshadows j } := by
  induction links using List.reverseRecOn with
  | nil =>
      have none : ¬∃ link ∈ ([] : List TopoLink), ¬IsAccess link := by
        rintro ⟨_, member, -⟩
        exact absurd member List.not_mem_nil
      rw [if_neg none]
      rfl
  | append_singleton links last inductionHypothesis =>
      have zipped : (links ++ [last]).zipIdx = links.zipIdx ++ [(last, links.length)] := by
        rw [List.zipIdx_append, Nat.zero_add]
        rfl
      rw [zipped, List.foldl_append, inductionHypothesis, List.foldl_cons, List.foldl_nil,
        List.length_append, List.length_singleton]
      unfold initLists
      dsimp only
      rw [set_linkshadows]
      by_cases access : IsAccess last
      · have same :
            (∃ link ∈ links ++ [last], ¬IsAccess link) ↔ ∃ link ∈ links, ¬IsAccess link :=
          exists_backbone_concat.trans (or_iff_left (not_not.mpr access))
        simp only [if_pos access, same]
      · rw [if_neg access, if_pos (exists_backbone_concat.mpr (.inr access))]

/-- `shortpaths` is set where a backbone link is seen, the other lists everywhere. -/
theorem startPaths_eq
    (memory : Memory)
    (lslist : List TopoLink) :
    startPaths memory lslist =
      { shortpaths := []
        tail := if ∃ link ∈ lslist, ¬IsAccess link then 0 else memory.shortpaths
        linkshadows := lslist.map fun _ => ⟨[], 0⟩ } := by
  unfold startPaths
  rw [foldl_initLists]
  congr 1
  refine List.ext_getElem ?_ fun j inside _ => ?_
  · rw [List.length_map, List.length_map, List.length_range]
  · rw [List.length_map, List.length_range] at inside
    rw [List.getElem_map, List.getElem_map, List.getElem_range, if_pos inside]

theorem startPaths_length
    (memory : Memory)
    (lslist : List TopoLink) :
    (startPaths memory lslist).linkshadows.length = lslist.length := by
  rw [startPaths_eq, List.length_map]

theorem startPaths_clean
    (memory : Memory)
    (lslist : List TopoLink) :
    (startPaths memory lslist).Clean := by
  rw [startPaths_eq]
  refine ⟨rfl, fun linkshadow member => ?_⟩
  obtain ⟨-, -, same⟩ := List.mem_map.mp member
  exact same.symm

/-- Before the first pair. -/
theorem Paths.Clean.recorded
    (clean : start.Clean)
    (fuel : Nat)
    (az : AreaInfo) :
    Recorded fuel az start [] start where
  shortpaths := clean.shortpaths
  tail := rfl
  length := rfl
  counted linkshadow member := by
    rw [clean.linkshadows linkshadow member]
    rfl
  walks _ _ listed := nomatch listed
  others address _ link inside := by
    unfold Paths.timesOn
    rw [List.getElem?_eq_getElem inside,
      clean.linkshadows _ (List.getElem_mem inside)]
    rfl

/-- What `record_short_path` leaves when it ends. -/
theorem recordShortPath_recorded
    (clean : start.Clean)
    (ends : recordShortPath fuel az start = .ok paths) :
    Recorded fuel az start (cells az.routerCount) paths := by
  have loop (todo : List (Nat × Nat)) :
      ∀ done before,
        Recorded fuel az start done before →
        todo.foldlM (recordCell fuel az) before = .ok paths →
        Recorded fuel az start (done ++ todo) paths := by
    induction todo with
    | nil =>
        intro done before recorded ends
        cases ends
        rw [List.append_nil]
        exact recorded
    | cons cell rest inductionHypothesis =>
        intro done before recorded ends
        rw [List.foldlM_cons] at ends
        obtain ⟨middle, first, later⟩ := Loops.bind_eq_ok.mp ends
        have whole := inductionHypothesis (done ++ [cell]) middle (recorded.step first) later
        rwa [List.append_assoc] at whole
  exact loop _ [] start (clean.recorded fuel az) ends

/-- `record_short_path` ends if all its walks do and stay among the links. -/
theorem recordShortPath_ends
    (walks :
      ∀ cell ∈ cells az.routerCount,
        (az.matrix cell.1 cell.2).isRecorded = true →
        ∃ linkIndices,
          walk az cell.2 fuel cell.1 (az.matrix cell.1 cell.2).nextHop = .ok linkIndices ∧
            ∀ linkIndex ∈ linkIndices, linkIndex < start.linkshadows.length) :
    ∃ paths, recordShortPath fuel az start = .ok paths := by
  have loop :
      ∃ paths,
        recordShortPath fuel az start = .ok paths ∧
          paths.linkshadows.length = start.linkshadows.length := by
    refine Loops.foldlM_ends
      (fun paths : Paths => paths.linkshadows.length = start.linkshadows.length)
      (fun paths cell member same => ?_) rfl
    unfold recordCell
    dsimp only
    by_cases isRecorded : (az.matrix cell.1 cell.2).isRecorded = true
    · rw [if_pos isRecorded]
      obtain ⟨linkIndices, walked, inside⟩ := walks cell member isRecorded
      rw [← same] at inside
      rw [walked]
      obtain ⟨after, added, length⟩ :
          ∃ after,
            linkIndices.foldlM (addPathOfLink paths.shortpaths.length)
                (paths.addPath (az.netpath paths.shortpaths.length cell)) = .ok after ∧
              after.linkshadows.length = paths.linkshadows.length :=
        foldlM_addPathOfLink_ends _ inside
      exact ⟨after, added, length.trans same⟩
    · rw [if_neg isRecorded]
      exact ⟨paths, rfl, same⟩
  obtain ⟨paths, ends, -⟩ := loop
  exact ⟨paths, ends⟩

theorem mem_cells
    {n : Nat}
    {cell : Nat × Nat} :
    cell ∈ cells n ↔ cell.1 < n ∧ cell.2 < n := by
  obtain ⟨i, j⟩ := cell
  unfold cells
  rw [List.mem_flatMap]
  constructor
  · rintro ⟨row, rowInside, member⟩
    obtain ⟨column, columnInside, same⟩ := List.mem_map.mp member
    cases same
    exact ⟨List.mem_range.mp rowInside, List.mem_range.mp columnInside⟩
  · rintro ⟨rowInside, columnInside⟩
    exact ⟨i, List.mem_range.mpr rowInside,
      List.mem_map.mpr ⟨j, List.mem_range.mpr columnInside, rfl⟩⟩

theorem mem_netpaths
    {done : List (Nat × Nat)}
    {path : Netpath} :
    path ∈ netpaths az done ↔
      ∃ address cell,
        (recordedCells az done)[address]? = some cell ∧ path = az.netpath address cell := by
  unfold netpaths
  rw [List.mem_mapIdx]
  constructor
  · rintro ⟨address, inside, same⟩
    exact ⟨address, _, List.getElem?_eq_getElem inside, same.symm⟩
  · rintro ⟨address, cell, listed, same⟩
    obtain ⟨inside, isCell⟩ := List.getElem?_eq_some_iff.mp listed
    refine ⟨address, inside, ?_⟩
    rw [isCell, same]

theorem netpaths_addresses
    (az : AreaInfo)
    (done : List (Nat × Nat)) :
    (netpaths az done).map Netpath.address = List.range (recordedCells az done).length := by
  unfold netpaths
  refine List.ext_getElem? fun address => ?_
  rw [List.getElem?_map, List.getElem?_mapIdx]
  by_cases inside : address < (recordedCells az done).length
  · rw [List.getElem?_eq_getElem inside, List.getElem?_range inside]
    rfl
  · rw [List.getElem?_eq_none (Nat.le_of_not_lt inside),
      List.getElem?_eq_none (by rw [List.length_range]; exact Nat.le_of_not_lt inside)]
    rfl

/-- The entries for which a path is made. -/
theorem Netnode.isRecorded_iff
    {node : Netnode} :
    node.isRecorded = true ↔ node.pathCost.toNat < maxMetric ∧ node.metric ≠ 0 := by
  unfold isRecorded
  rw [decide_eq_true_iff, not_or, Nat.not_le]

theorem mem_recordedCells
    {cell : Nat × Nat} :
    cell ∈ recordedCells az (cells az.routerCount) ↔
      cell.1 < az.routerCount ∧ cell.2 < az.routerCount ∧
        (az.matrix cell.1 cell.2).pathCost.toNat < maxMetric ∧
        (az.matrix cell.1 cell.2).metric ≠ 0 := by
  unfold recordedCells
  rw [List.mem_filter, mem_cells, Netnode.isRecorded_iff, and_assoc]

theorem routers_getD
    {routers : List UInt32}
    {i : Nat}
    (inside : i < routers.length) :
    routers[i]? = some (routers.getD i 0) := by
  rw [List.getD_eq_getElem?_getD, List.getElem?_eq_getElem inside, Option.getD_some]

end Recording

/-! ## The path of a pair -/

section Netpaths

variable {az : AreaInfo} {i j : Nat}

theorem recordedCells_nodup
    (az : AreaInfo) :
    (recordedCells az (cells az.routerCount)).Nodup :=
  (List.nodup_range.product List.nodup_range).filter _

theorem netpaths_nodup
    (az : AreaInfo)
    (done : List (Nat × Nat)) :
    (netpaths az done).Nodup := by
  refine List.Nodup.of_map Netpath.address ?_
  rw [netpaths_addresses]
  exact List.nodup_range

/-- The routers of a path tell its pair. -/
theorem netpath_ends
    (nodup : az.routers.Nodup)
    {address : Nat}
    {cell : Nat × Nat}
    (rowInside : cell.1 < az.routerCount)
    (columnInside : cell.2 < az.routerCount) :
    (az.routers[i]? = some (az.netpath address cell).rid ∧
        az.routers[j]? = some (az.netpath address cell).nrid) ↔
      cell = (i, j) := by
  obtain ⟨row, column⟩ := cell
  have isRow : az.routers[row]? = some (az.netpath address (row, column)).rid :=
    routers_getD rowInside
  have isColumn : az.routers[column]? = some (az.netpath address (row, column)).nrid :=
    routers_getD columnInside
  rw [← isRow, ← isColumn, Prod.mk.injEq]
  constructor
  · rintro ⟨sameRow, sameColumn⟩
    exact ⟨(List.getElem?_inj rowInside nodup).mp sameRow.symm,
      (List.getElem?_inj columnInside nodup).mp sameColumn.symm⟩
  · rintro ⟨rfl, rfl⟩
    exact ⟨rfl, rfl⟩

/-- The path of a recorded pair is the only one between its routers. -/
theorem filter_netpaths
    (nodup : az.routers.Nodup)
    (recorded : (i, j) ∈ recordedCells az (cells az.routerCount)) :
    ∃ address,
      ((netpaths az (cells az.routerCount)).reverse.filter fun path =>
          az.routers[i]? = some path.rid ∧ az.routers[j]? = some path.nrid) =
        [az.netpath address (i, j)] := by
  obtain ⟨address, listed⟩ := List.getElem?_of_mem recorded
  have addressInside := (List.getElem?_eq_some_iff.mp listed).1
  refine ⟨address, ?_⟩
  have unique :
      ∀ path ∈ (netpaths az (cells az.routerCount)).reverse,
        decide (az.routers[i]? = some path.rid ∧ az.routers[j]? = some path.nrid) =
          decide (path = az.netpath address (i, j)) := by
    intro path member
    obtain ⟨other, cell, listedOther, rfl⟩ := mem_netpaths.mp (List.mem_reverse.mp member)
    obtain ⟨rowInside, columnInside, -⟩ :=
      mem_recordedCells.mp (List.mem_of_getElem? listedOther)
    rw [decide_eq_decide, netpath_ends nodup rowInside columnInside]
    constructor
    · rintro rfl
      have same := (List.getElem?_inj addressInside (recordedCells_nodup az)).mp
        (listed.trans listedOther.symm)
      rw [same]
    · intro same
      have equal : other = address := congrArg Netpath.address same
      rw [equal, listed] at listedOther
      exact (Option.some.inj listedOther).symm
  rw [List.filter_congr unique, List.filter_eq, List.count_eq_one_of_mem
    (List.nodup_reverse.mpr (netpaths_nodup az _))
    (List.mem_reverse.mpr (mem_netpaths.mpr ⟨address, _, listed, rfl⟩))]
  rfl

end Netpaths

end Pma.Lidb
