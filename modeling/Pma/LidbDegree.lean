import Mathlib.Algebra.Order.BigOperators.Group.List
import Pma.LidbAreas

namespace Pma.Lidb

/-!
# Broken paths

`record_broken_path_down` marks the paths of a link, which it finds in the list
of the link, and `get_net_destory_degree` adds the importances of all paths and
of those that are marked.  A path is shared by the lists of all links on its way;
marking it again changes nothing.
-/

/-! ## Marking -/

/-- The comparison of `record_broken_path_down`. -/
def isSameLink (ls link : TopoLink) : Bool :=
  ls.rid = link.rid ∧ ls.nrid = link.nrid ∧ ls.ifid = link.ifid ∧ ls.nifid = link.nifid

/-- The paths of the first link that is the same. -/
def Area.pathsOfLink (area : Area) (link : TopoLink) : List Nat :=
  match area.info.lslist.findIdx? (isSameLink · link) with
  | some i => ((area.paths.linkshadows[i]?).map LinkPathInfo.allshortpaths).getD []
  | none => []

/-- A path is marked if this is so of it. -/
def Netpath.mark (isMarked : Netpath → Bool) (path : Netpath) : Netpath :=
  if isMarked path = true then { path with connection := .unconnecting } else path

/-- The paths of an area are marked. -/
def Area.mark (area : Area) (isMarked : Netpath → Bool) : Area where
  info := area.info
  paths :=
    { area.paths with shortpaths := area.paths.shortpaths.map (Netpath.mark isMarked) }

/-- `get_area_by_areaid`, by its place. -/
def getAreaByAreaid (areas : List Area) (areaid : UInt32) : Option Nat :=
  areas.findIdx? (·.info.azid = areaid)

/-- `record_broken_path_down`. -/
def recordBrokenPathDown (areas : List Area) (link : TopoLink) : List Area :=
  match getAreaByAreaid areas link.areaid with
  | some k => areas.modify k fun area => area.mark (·.address ∈ area.pathsOfLink link)
  | none => areas

/-! ## Adding up -/

/-- The variables of `get_net_destory_degree`. -/
structure NetValues where
  brokenValue : Int32
  netValue : Int32
  deriving DecidableEq, Repr

/-- One pass of its loop. -/
def NetValues.add (values : NetValues) (path : Netpath) : NetValues where
  brokenValue :=
    if path.connection = .connecting then
      values.brokenValue
    else
      values.brokenValue + path.importanceValue.toInt32
  netValue := values.netValue + path.importanceValue.toInt32

/-- The loop of `get_net_destory_degree`, which follows the list until `NULL`. -/
def getNetValues (paths : Paths) : Except Fault NetValues :=
  if paths.tail = 0 then
    .ok (paths.shortpaths.foldl NetValues.add ⟨0, 0⟩)
  else
    .error .foreignMemory

/-- The importances of the paths for which this is so. -/
def importanceOf (isCounted : Netpath → Bool) (paths : List Netpath) : Nat :=
  (paths.map fun path => if isCounted path = true then path.importanceValue.toNat else 0).sum

/-! ## What is broken -/

/-- The link indices that the walk for a path has handed on. -/
def linkIndicesOf (fuel : Nat) (info : AreaInfo) (path : Netpath) : List Int :=
  let i := (getIndexByRid info.routers path.rid).toNat
  let j := (getIndexByRid info.routers path.nrid).toNat
  match walk info j fuel i (info.matrix i j).nextHop with
  | .ok linkIndices => linkIndices
  | .error _ => []

/-- Whether a path uses a link. -/
def usesLink (fuel : Nat) (info : AreaInfo) (path : Netpath) (link : TopoLink) : Bool :=
  (linkIndicesOf fuel info path).any fun linkIndex =>
    0 ≤ linkIndex ∧ (info.lslist[linkIndex.toNat]?).any (isSameLink · link) = true

/-- Whether it uses one of the links of its area that are broken. -/
def usesBroken
    (fuel : Nat)
    (info : AreaInfo)
    (broken : List TopoLink)
    (path : Netpath) : Bool :=
  broken.any fun link => link.areaid = info.azid ∧ usesLink fuel info path link = true

/-- In whatever order the links break, the marks and the values are those of the broken paths. -/
structure BreaksRight
    (fuel : Nat)
    (areas : List Area)
    (k : Nat)
    (area : Area)
    (broken : List TopoLink) : Prop where
  connecting : ∀ path ∈ area.paths.shortpaths, path.connection = .connecting
  marks :
    ∀ calls : List TopoLink,
      (∀ link, link ∈ calls ↔ link ∈ broken) →
      (calls.foldl recordBrokenPathDown areas)[k]? =
        some (area.mark (usesBroken fuel area.info broken))
  brokenValue :
    ∃ values,
      getNetValues (area.mark (usesBroken fuel area.info broken)).paths = .ok values ∧
        values.brokenValue.toInt =
          importanceOf (usesBroken fuel area.info broken) area.paths.shortpaths
  monotone :
    ∀ fewer ⊆ broken,
      ∃ less more,
        getNetValues (area.mark (usesBroken fuel area.info fewer)).paths = .ok less ∧
          getNetValues (area.mark (usesBroken fuel area.info broken)).paths = .ok more ∧
          less.brokenValue ≤ more.brokenValue
  netValue :
    ∃ before after,
      getNetValues area.paths = .ok before ∧
        getNetValues (area.mark (usesBroken fuel area.info broken)).paths = .ok after ∧
        after.netValue = before.netValue

/-! ## The marks of many calls -/

section Marking

variable {area : Area} {first second : Netpath → Bool}

/-- Marks add up where it does not matter what is marked already. -/
theorem Netpath.mark_mark
    (unmarked :
      ∀ path, second { path with connection := .unconnecting } = second path)
    (path : Netpath) :
    (path.mark first).mark second = path.mark fun path => first path || second path := by
  by_cases isFirst : first path = true
  · have marked : path.mark first = { path with connection := .unconnecting } :=
      if_pos isFirst
    have both : (first path || second path) = true := by
      rw [isFirst, Bool.true_or]
    rw [marked]
    unfold mark
    rw [if_pos both, unmarked]
    split <;> rfl
  · have kept : path.mark first = path := if_neg isFirst
    rw [kept]
    unfold mark
    simp only [Bool.eq_false_of_not_eq_true isFirst, Bool.false_or]

theorem Area.mark_mark
    (unmarked :
      ∀ path, second { path with connection := .unconnecting } = second path) :
    (area.mark first).mark second = area.mark fun path => first path || second path := by
  unfold mark
  dsimp only
  rw [List.map_map]
  congr 2
  exact List.map_congr_left fun path _ => Netpath.mark_mark unmarked path

theorem Area.mark_congr
    (same : ∀ path ∈ area.paths.shortpaths, first path = second path) :
    area.mark first = area.mark second := by
  unfold mark
  have paths :
      area.paths.shortpaths.map (Netpath.mark first) =
        area.paths.shortpaths.map (Netpath.mark second) := by
    refine List.map_congr_left fun path member => ?_
    unfold Netpath.mark
    rw [same path member]
  rw [paths]

theorem Area.mark_none : area.mark (fun _ => false) = area := by
  unfold mark
  have same : area.paths.shortpaths.map (Netpath.mark fun _ => false) = area.paths.shortpaths :=
    List.map_id _
  rw [same]

/-- What is read of the elements changes only where one of them does. -/
theorem map_modify
    {Item Value : Type*}
    {read : Item → Value}
    {change : Item → Item}
    {changeRead : Value → Value}
    (reads : ∀ item, read (change item) = changeRead (read item))
    (items : List Item)
    (k : Nat) :
    (items.modify k change).map read = (items.map read).modify k changeRead := by
  refine List.ext_getElem? fun i => ?_
  rw [List.getElem?_map, List.getElem?_modify, List.getElem?_modify, List.getElem?_map]
  cases items[i]? with
  | none =>
      rfl
  | some item =>
      by_cases here : k = i
      · simp only [if_pos here]
        exact congrArg some (reads item)
      · simp only [if_neg here]
        rfl

/-- And what is not changed is read as before. -/
theorem map_modify_kept
    {Item Value : Type*}
    {read : Item → Value}
    {change : Item → Item}
    (kept : ∀ item, read (change item) = read item)
    (items : List Item)
    (k : Nat) :
    (items.modify k change).map read = items.map read :=
  (map_modify kept items k).trans (List.modify_id k _)

/-- What one call does to an area. -/
theorem recordBrokenPathDown_area
    {areas : List Area}
    (distinct : (areas.map fun area => area.info.azid).Nodup)
    {k : Nat}
    (listed : areas[k]? = some area)
    (link : TopoLink) :
    (recordBrokenPathDown areas link).map (fun area => area.info.azid) =
        areas.map (fun area => area.info.azid) ∧
      (recordBrokenPathDown areas link)[k]? =
        some (area.mark fun path =>
          link.areaid = area.info.azid ∧ path.address ∈ area.pathsOfLink link) := by
  unfold recordBrokenPathDown getAreaByAreaid
  cases found : areas.findIdx? (·.info.azid = link.areaid) with
  | none =>
      have other := List.findIdx?_eq_none_iff.mp found area (List.mem_of_getElem? listed)
      have notArea : ¬link.areaid = area.info.azid :=
        fun same => of_decide_eq_false other same.symm
      refine ⟨rfl, ?_⟩
      simp only [notArea, false_and, decide_false]
      rw [Area.mark_none]
      exact listed
  | some place =>
      obtain ⟨inside, isArea, -⟩ := List.findIdx?_eq_some_iff_getElem.mp found
      have azid : (areas[place]).info.azid = link.areaid := of_decide_eq_true isArea
      constructor
      · refine map_modify_kept (fun _ => ?_) areas place
        rfl
      · dsimp only
        rw [List.getElem?_modify, listed]
        by_cases same : place = k
        · subst same
          rw [List.getElem?_eq_getElem inside] at listed
          cases listed
          simp only [if_true, azid, true_and]
          rfl
        · have notArea : ¬link.areaid = area.info.azid := by
            intro equal
            refine same ((List.getElem?_inj ?_ distinct).mp ?_)
            · rw [List.length_map]
              exact inside
            · rw [List.getElem?_map, List.getElem?_map, listed,
                List.getElem?_eq_getElem inside]
              exact congrArg some (azid.trans equal)
          simp only [if_neg same, notArea, false_and, decide_false]
          rw [Area.mark_none]
          rfl

/-- And what many calls do. -/
theorem foldl_recordBrokenPathDown
    {areas : List Area}
    (distinct : (areas.map fun area => area.info.azid).Nodup)
    {k : Nat}
    (listed : areas[k]? = some area)
    (calls : List TopoLink) :
    (calls.foldl recordBrokenPathDown areas)[k]? =
      some (area.mark fun path =>
        ∃ link ∈ calls,
          link.areaid = area.info.azid ∧ path.address ∈ area.pathsOfLink link) := by
  induction calls generalizing areas area with
  | nil =>
      have nothing :
          (fun path : Netpath =>
              decide (∃ link ∈ ([] : List TopoLink),
                link.areaid = area.info.azid ∧ path.address ∈ area.pathsOfLink link)) =
            fun _ => false := by
        funext path
        rw [decide_eq_false_iff_not]
        rintro ⟨_, member, -⟩
        exact absurd member List.not_mem_nil
      rw [nothing, Area.mark_none]
      exact listed
  | cons link rest inductionHypothesis =>
      obtain ⟨azids, next⟩ := recordBrokenPathDown_area distinct listed link
      rw [List.foldl_cons, inductionHypothesis (azids ▸ distinct) next]
      congr 1
      rw [Area.mark_mark fun _ => rfl]
      congr 1
      funext path
      rw [Bool.eq_iff_iff, Bool.or_eq_true, decide_eq_true_iff, decide_eq_true_iff,
        decide_eq_true_iff]
      change _ ∨ (∃ link ∈ rest,
        link.areaid = area.info.azid ∧ path.address ∈ area.pathsOfLink link) ↔ _
      rw [List.exists_mem_cons_iff]

end Marking

/-! ## The list of a link -/

/-- The primary key of `pma_lsdb`. -/
def linkKey (link : TopoLink) : UInt32 × UInt32 × UInt32 × UInt32 × UInt32 :=
  (link.areaid, link.rid, link.nrid, link.ifid, link.nifid)

section Computed

variable
  {fuel : Nat}
  {ifid : UInt32 → Nat → Nat → Nat → Int}
  {memory : UInt32 → Memory}
  {table : List TopoLink}
  {areaid : UInt32}
  {area : Area}

/-- The walk of a path is the one that was recorded. -/
theorem AreaComputed.linkIndicesOf
    (computed : AreaComputed fuel ifid memory table areaid area)
    {path : Netpath}
    (member : path ∈ area.paths.shortpaths) :
    ∀ x < area.info.lslist.length,
      area.paths.timesOn x path.address =
        (linkIndicesOf fuel area.info path).count (x : Int) := by
  rw [computed.paths.shortpaths, List.mem_reverse] at member
  obtain ⟨address, cell, listed, rfl⟩ := mem_netpaths.mp member
  obtain ⟨linkIndices, walked, times⟩ := computed.paths.walks address cell listed
  rw [startPaths_length] at times
  obtain ⟨rowInside, columnInside, -⟩ := mem_recordedCells.mp (List.mem_of_getElem? listed)
  have nodup := computed.nodup
  have row := (getIndexByRid_eq_iff nodup).mpr (routers_getD rowInside)
  have column := (getIndexByRid_eq_iff nodup).mpr (routers_getD columnInside)
  have indices :
      Lidb.linkIndicesOf fuel area.info (area.info.netpath address cell) = linkIndices := by
    unfold Lidb.linkIndicesOf AreaInfo.netpath
    dsimp only
    rw [row, column, Int.toNat_natCast, Int.toNat_natCast, walked]
  intro x inside
  rw [indices]
  exact times x inside

theorem Paths.timesOn_pos
    {paths : Paths}
    {x address : Nat} :
    0 < paths.timesOn x address ↔
      address ∈ ((paths.linkshadows[x]?).map LinkPathInfo.allshortpaths).getD [] := by
  unfold timesOn
  cases paths.linkshadows[x]? with
  | none =>
      exact iff_of_false (Nat.lt_irrefl 0) List.not_mem_nil
  | some linkshadow =>
      exact List.count_pos_iff

/-- Of the rows of an area, no two are the same link. -/
theorem AreaComputed.sameLink_unique
    (computed : AreaComputed fuel ifid memory table areaid area)
    (keys : (table.map linkKey).Nodup)
    {x y : Nat}
    {row other link : TopoLink}
    (xListed : area.info.lslist[x]? = some row)
    (yListed : area.info.lslist[y]? = some other)
    (xSame : isSameLink row link = true)
    (ySame : isSameLink other link = true) :
    x = y := by
  have lslist := computed.fields.2.2
  have areas {place : Nat} {found : TopoLink}
      (listed : area.info.lslist[place]? = some found) :
      found.areaid = areaid := by
    rw [lslist] at listed
    exact of_decide_eq_true (List.mem_filter.mp (List.mem_of_getElem? listed)).2
  have distinct : (area.info.lslist.map linkKey).Nodup := by
    rw [lslist]
    exact keys.sublist (List.filter_sublist.map _)
  obtain ⟨rid, nrid, ifid, nifid⟩ := of_decide_eq_true xSame
  obtain ⟨otherRid, otherNrid, otherIfid, otherNifid⟩ := of_decide_eq_true ySame
  have sameKey : linkKey row = linkKey other := by
    unfold linkKey
    rw [areas xListed, areas yListed, rid, nrid, ifid, nifid, otherRid, otherNrid, otherIfid,
      otherNifid]
  have inside := (List.getElem?_eq_some_iff.mp xListed).1
  refine (List.getElem?_inj (by rw [List.length_map]; exact inside) distinct).mp ?_
  rw [List.getElem?_map, List.getElem?_map, xListed, yListed]
  exact congrArg some sameKey

theorem usesLink_iff
    {info : AreaInfo}
    {path : Netpath}
    {link : TopoLink} :
    usesLink fuel info path link = true ↔
      ∃ (x : Nat) (row : TopoLink),
        info.lslist[x]? = some row ∧ isSameLink row link = true ∧
          (x : Int) ∈ linkIndicesOf fuel info path := by
  unfold usesLink
  rw [List.any_eq_true]
  constructor
  · rintro ⟨linkIndex, member, found⟩
    obtain ⟨nonnegative, found⟩ := of_decide_eq_true found
    cases listed : info.lslist[linkIndex.toNat]? with
    | none =>
        rw [listed] at found
        cases found
    | some row =>
        rw [listed] at found
        exact ⟨_, row, listed, found, by rwa [Int.toNat_of_nonneg nonnegative]⟩
  · rintro ⟨x, row, listed, same, member⟩
    refine ⟨x, member, decide_eq_true ⟨Int.natCast_nonneg x, ?_⟩⟩
    rw [Int.toNat_natCast, listed]
    exact same

/-- The list of a link has the paths that use it. -/
theorem AreaComputed.pathsOfLink_iff
    (computed : AreaComputed fuel ifid memory table areaid area)
    (keys : (table.map linkKey).Nodup)
    {path : Netpath}
    (member : path ∈ area.paths.shortpaths)
    (link : TopoLink) :
    path.address ∈ area.pathsOfLink link ↔ usesLink fuel area.info path link = true := by
  have times := computed.linkIndicesOf member
  rw [usesLink_iff]
  unfold Area.pathsOfLink
  cases found : area.info.lslist.findIdx? (isSameLink · link) with
  | none =>
      refine iff_of_false List.not_mem_nil ?_
      rintro ⟨x, row, listed, same, -⟩
      have other := List.findIdx?_eq_none_iff.mp found row (List.mem_of_getElem? listed)
      rw [same] at other
      cases other
  | some x =>
      obtain ⟨inside, same, -⟩ := List.findIdx?_eq_some_iff_getElem.mp found
      have listed := List.getElem?_eq_getElem inside
      dsimp only
      rw [← Paths.timesOn_pos, times x inside, List.count_pos_iff]
      constructor
      · intro onWalk
        exact ⟨x, _, listed, same, onWalk⟩
      · rintro ⟨y, other, otherListed, otherSame, onWalk⟩
        rwa [computed.sameLink_unique keys listed otherListed same otherSame]

/-- Nothing is marked at first. -/
theorem AreaComputed.connecting
    (computed : AreaComputed fuel ifid memory table areaid area) :
    ∀ path ∈ area.paths.shortpaths, path.connection = .connecting := by
  intro path member
  rw [computed.paths.shortpaths, List.mem_reverse] at member
  obtain ⟨address, cell, -, rfl⟩ := mem_netpaths.mp member
  rfl

end Computed

/-- The areas are those of the table, each once. -/
theorem pathComputeStart_distinct
    {fuel : Nat}
    {ifid : UInt32 → Nat → Nat → Nat → Int}
    {memory : UInt32 → Memory}
    {table : List TopoLink}
    {areas : List Area}
    (ends : pathComputeStart fuel ifid memory table = .ok areas) :
    (areas.map fun area => area.info.azid).Nodup := by
  have azids : areas.map (fun area => area.info.azid) = getAreaes table := by
    have computed := pathComputeStart_ok ends
    clear ends
    generalize getAreaes table = areaids at computed
    induction computed with
    | nil => rfl
    | cons first _ inductionHypothesis =>
        rw [List.map_cons, inductionHypothesis, first.fields.1]
  rw [azids]
  exact List.nodup_dedup _

/-! ## The values -/

section Values

variable {paths : List Netpath}

theorem importanceOf_cons
    (isCounted : Netpath → Bool)
    (path : Netpath)
    (paths : List Netpath) :
    importanceOf isCounted (path :: paths) =
      (if isCounted path = true then path.importanceValue.toNat else 0) +
        importanceOf isCounted paths :=
  List.sum_cons

theorem importanceOf_mono
    {first second : Netpath → Bool}
    (implies : ∀ path, first path = true → second path = true) :
    importanceOf first paths ≤ importanceOf second paths := by
  unfold importanceOf
  refine List.sum_le_sum fun path _ => ?_
  by_cases isFirst : first path = true
  · rw [if_pos isFirst, if_pos (implies path isFirst)]
  · rw [if_neg isFirst]
    exact Nat.zero_le _

theorem toInt32_eq_ofNat (number : UInt32) : number.toInt32 = Int32.ofNat number.toNat := by
  refine Int32.toBitVec.inj ?_
  change number.toBitVec = BitVec.ofNat 32 number.toBitVec.toNat
  rw [BitVec.ofNat_toNat, BitVec.setWidth_eq]

/-- The sums of the loop, which wrap. -/
theorem foldl_add
    (values : NetValues)
    (paths : List Netpath) :
    paths.foldl NetValues.add values =
      { brokenValue :=
          values.brokenValue +
            Int32.ofNat (importanceOf (fun path => path.connection ≠ .connecting) paths)
        netValue := values.netValue + Int32.ofNat (importanceOf (fun _ => true) paths) } := by
  induction paths generalizing values with
  | nil =>
      change values = ⟨values.brokenValue + 0, values.netValue + 0⟩
      rw [Int32.add_zero, Int32.add_zero]
  | cons path rest inductionHypothesis =>
      rw [List.foldl_cons, inductionHypothesis, importanceOf_cons, importanceOf_cons,
        Int32.ofNat_add, Int32.ofNat_add, if_pos rfl]
      unfold NetValues.add
      dsimp only
      rw [toInt32_eq_ofNat, Int32.add_assoc]
      congr 1
      by_cases isConnecting : path.connection = .connecting
      · have notBroken : ¬decide (path.connection ≠ .connecting) = true := by
          rw [isConnecting]
          decide
        rw [if_pos isConnecting, if_neg notBroken, show Int32.ofNat 0 = 0 from rfl,
          Int32.zero_add]
      · rw [if_neg isConnecting, if_pos (decide_eq_true isConnecting), Int32.add_assoc]

/-- A path keeps its importance when it is marked. -/
theorem importanceOf_mark
    (connecting : ∀ path ∈ paths, path.connection = .connecting)
    (isMarked : Netpath → Bool) :
    importanceOf (fun path => path.connection ≠ .connecting) (paths.map (Netpath.mark isMarked)) =
        importanceOf isMarked paths ∧
      importanceOf (fun _ => true) (paths.map (Netpath.mark isMarked)) =
        importanceOf (fun _ => true) paths := by
  induction paths with
  | nil =>
      exact ⟨rfl, rfl⟩
  | cons path rest inductionHypothesis =>
      rw [List.forall_mem_cons] at connecting
      obtain ⟨broken, all⟩ := inductionHypothesis connecting.2
      rw [List.map_cons, importanceOf_cons, importanceOf_cons, importanceOf_cons,
        importanceOf_cons, broken, all]
      unfold Netpath.mark
      by_cases marked : isMarked path = true
      · rw [if_pos marked, if_pos marked]
        exact ⟨rfl, rfl⟩
      · rw [if_neg marked, if_neg marked, connecting.1]
        exact ⟨rfl, rfl⟩

theorem getNetValues_ok
    {paths : Paths}
    {values : NetValues}
    (added : getNetValues paths = .ok values) :
    paths.tail = 0 := by
  unfold getNetValues at added
  by_contra foreign
  rw [if_neg foreign] at added
  cases added

/-- What is added up when the list ends. -/
theorem getNetValues_mark
    {area : Area}
    (ends : area.paths.tail = 0)
    (connecting : ∀ path ∈ area.paths.shortpaths, path.connection = .connecting)
    (isMarked : Netpath → Bool) :
    getNetValues (area.mark isMarked).paths =
      .ok
        { brokenValue := Int32.ofNat (importanceOf isMarked area.paths.shortpaths)
          netValue := Int32.ofNat (importanceOf (fun _ => true) area.paths.shortpaths) } := by
  obtain ⟨broken, all⟩ := importanceOf_mark connecting isMarked
  unfold getNetValues
  rw [if_pos (show (area.mark isMarked).paths.tail = 0 from ends), foldl_add]
  change Except.ok (NetValues.mk
    (0 + Int32.ofNat (importanceOf _ (area.paths.shortpaths.map (Netpath.mark isMarked))))
    (0 + Int32.ofNat (importanceOf _ (area.paths.shortpaths.map (Netpath.mark isMarked))))) = _
  rw [broken, all, Int32.zero_add, Int32.zero_add]

end Values

theorem usesBroken_mono
    {fuel : Nat}
    {info : AreaInfo}
    {fewer broken : List TopoLink}
    (subset : fewer ⊆ broken)
    {path : Netpath}
    (uses : usesBroken fuel info fewer path = true) :
    usesBroken fuel info broken path = true := by
  obtain ⟨link, member, isUsed⟩ := List.any_eq_true.mp uses
  exact List.any_eq_true.mpr ⟨link, subset member, isUsed⟩

/--
For every area that a computation has left and every set of links, the marks and
the values are right exactly if the list of the area ends and the importances of
the broken paths do not overflow.
-/
theorem breaksRight_iff
    {fuel : Nat}
    {ifid : UInt32 → Nat → Nat → Nat → Int}
    {memory : UInt32 → Memory}
    {table : List TopoLink}
    {areas : List Area}
    (ends : pathComputeStart fuel ifid memory table = .ok areas)
    (keys : (table.map linkKey).Nodup)
    {k : Nat}
    {area : Area}
    (listed : areas[k]? = some area)
    (broken : List TopoLink) :
    BreaksRight fuel areas k area broken ↔
      area.paths.tail = 0 ∧
        importanceOf (usesBroken fuel area.info broken) area.paths.shortpaths < 2 ^ 31 := by
  obtain ⟨areaid, -, computed⟩ :=
    (Loops.exists_of_forall₂ (pathComputeStart_ok ends)).2 area (List.mem_of_getElem? listed)
  have connecting := computed.connecting
  constructor
  · intro right
    obtain ⟨values, added, exact⟩ := right.brokenValue
    have tail : (area.mark (usesBroken fuel area.info broken)).paths.tail = 0 :=
      getNetValues_ok added
    refine ⟨tail, ?_⟩
    have bounded := values.brokenValue.toInt_lt
    rw [exact] at bounded
    exact_mod_cast bounded
  · rintro ⟨tail, small⟩
    have values := getNetValues_mark tail connecting
    have fewerSmall {fewer : List TopoLink} (subset : fewer ⊆ broken) :
        importanceOf (usesBroken fuel area.info fewer) area.paths.shortpaths ≤
          importanceOf (usesBroken fuel area.info broken) area.paths.shortpaths :=
      importanceOf_mono fun path uses => usesBroken_mono subset uses
    constructor
    case connecting => exact connecting
    case marks =>
      intro calls same
      rw [foldl_recordBrokenPathDown (pathComputeStart_distinct ends) listed calls]
      congr 1
      refine Area.mark_congr fun path member => ?_
      unfold usesBroken
      rw [Bool.eq_iff_iff, decide_eq_true_iff, List.any_eq_true]
      refine exists_congr fun link => ?_
      rw [same link, decide_eq_true_iff, computed.pathsOfLink_iff keys member link]
    case brokenValue => exact ⟨_, values _, Int32.toInt_ofNat_of_lt small⟩
    case monotone =>
      intro fewer subset
      refine ⟨_, _, values _, values _, Int32.le_iff_toInt_le.mpr ?_⟩
      have less := fewerSmall subset
      dsimp only
      rw [Int32.toInt_ofNat_of_lt small, Int32.toInt_ofNat_of_lt (Nat.lt_of_le_of_lt less small)]
      exact_mod_cast less
    case netValue =>
      have before := values fun _ => false
      rw [Area.mark_none] at before
      exact ⟨_, _, before, values _, rfl⟩

/-- Two routers that are linked, each with a network of this metric. -/
def twoHomes (metric : UInt32) : List TopoLink :=
  [Ddc.linkBetween 1 2 10, Ddc.linkBetween 2 1 10, ⟨1, 1, 0, 3, 0, metric⟩,
    ⟨1, 2, 0, 3, 0, metric⟩]

/-- Their area, computed in empty memory. -/
def computeHomes (metric : UInt32) : Except Fault (List Area) :=
  pathComputeStart 100 (fun _ _ _ _ => 1) (fun _ => ⟨0, fun _ => ⟨[], 0⟩⟩) (twoHomes metric)

/-- Where their list ends, and what the importances of the broken paths come to. -/
def brokenHomes (metric : UInt32) (broken : List TopoLink) : Option (Nat × Nat) :=
  (computeHomes metric).toOption.bind fun areas =>
    (areas[0]?).map fun area =>
      (area.paths.tail,
        importanceOf (usesBroken 100 area.info broken) area.paths.shortpaths)

theorem brokenHomes_spec
    {metric : UInt32}
    {broken : List TopoLink}
    {tail total : Nat}
    (value : brokenHomes metric broken = some (tail, total)) :
    ∃ areas area,
      computeHomes metric = .ok areas ∧
        areas[0]? = some area ∧
        area.paths.tail = tail ∧
        importanceOf (usesBroken 100 area.info broken) area.paths.shortpaths = total := by
  obtain ⟨areas, ends, value⟩ := Option.bind_eq_some_iff.mp value
  obtain ⟨area, listed, value⟩ := Option.map_eq_some_iff.mp value
  obtain ⟨sameTail, sameTotal⟩ := Prod.mk.inj value
  refine ⟨areas, area, ?_, listed, sameTail, sameTotal⟩
  cases computed : computeHomes metric with
  | error _ =>
      rw [computed] at ends
      cases ends
  | ok others =>
      rw [computed] at ends
      exact congrArg Except.ok (Option.some.inj ends)

/-- With small metrics a broken link counts as it should. -/
theorem breaksRight_twoHomes :
    ∃ areas area,
      computeHomes 3 = .ok areas ∧
        areas[0]? = some area ∧
        BreaksRight 100 areas 0 area [Ddc.linkBetween 1 2 10] := by
  have value : brokenHomes 3 [Ddc.linkBetween 1 2 10] = some (0, 9) := by
    decide
  obtain ⟨areas, area, computed, listed, tail, total⟩ := brokenHomes_spec value
  have keys : ((twoHomes 3).map linkKey).Nodup := by decide
  refine ⟨areas, area, computed, listed, (breaksRight_iff computed keys listed _).mpr ?_⟩
  rw [tail, total]
  decide

/-- With metrics of 40000 the broken value of both links wraps to a negative one. -/
theorem overflow_not_breaksRight :
    ∃ areas area,
      computeHomes 40000 = .ok areas ∧
        ((twoHomes 40000).map linkKey).Nodup ∧
        areas[0]? = some area ∧
        ¬BreaksRight 100 areas 0 area [Ddc.linkBetween 1 2 10, Ddc.linkBetween 2 1 10] := by
  have value :
      brokenHomes 40000 [Ddc.linkBetween 1 2 10, Ddc.linkBetween 2 1 10] =
        some (0, 3200000000) := by
    decide
  obtain ⟨areas, area, computed, listed, -, total⟩ := brokenHomes_spec value
  refine ⟨areas, area, computed, by decide, listed, fun right => ?_⟩
  obtain ⟨values, -, exact⟩ := right.brokenValue
  have bounded := values.brokenValue.toInt_lt
  rw [exact, total] at bounded
  omega

end Pma.Lidb
