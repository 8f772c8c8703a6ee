import Pma.LidbDegree
import Pma.Rounding
import Pma.Transition

namespace Pma.Lidb

open Transition

/-!
# The policy of a broken link

`fah_protect_link` divides the broken value of an area by its net value and looks
up a policy under the hundredfold of the quotient.  The quotient is a `float`, and
the product with `100.0` a `double`.
-/

/-! ## The model -/

/-- `get_net_destory_degree`; there is no number for a division by 0. -/
def getNetDestoryDegree (paths : Paths) : Except Fault (Option ℚ) :=
  (getNetValues paths).map fun values =>
    if values.netValue = 0 then
      none
    else
      some (Rounding.single
        (Rounding.single values.brokenValue.toInt / Rounding.single values.netValue.toInt))

/-- The key in `protect_local_link`. -/
def policyKey : Option ℚ → Except Fault Int
  | some destorydegree => .ok (Rounding.truncate (Rounding.double (destorydegree * 100)))
  | none => .error .notANumber

/-- The variables of `ddc/fah.c`. -/
structure Fah where
  areas : List Area
  isRouterNeedProtect : Bool

/-- A call of `fah_protect_link`. -/
structure ProtectCall where
  routerid : UInt32
  link : TopoLink

/-- The links for which `reprotect_local_link` asks for protection. -/
def isReprotected (status : TopoLink → UInt32) (routerid : UInt32) (info : TopoLink) : Bool :=
  status info ≠ 3 ∧ info.rid = routerid ∧ info.nrid ≠ 0 ∧ info.nifid ≠ 0

/--
`fah_protect_link` after a computation, with the keys of the policies that it
looks up; `status` is the column of that name.
-/
def fahProtectLink
    (status : TopoLink → UInt32)
    (fah : Fah)
    (call : ProtectCall) : Except Fault (Fah × List Int) :=
  let areas := recordBrokenPathDown fah.areas call.link
  match (getAreaByAreaid fah.areas call.link.areaid).bind (areas[·]?) with
  | none => .ok (fah, [])
  | some az => do
      let destorydegree ← getNetDestoryDegree az.paths
      if call.link.rid = call.routerid ∨ call.link.nrid = call.routerid then
        let key ← policyKey destorydegree
        return (⟨areas, true⟩, [key])
      else if fah.isRouterNeedProtect = true then
        let keys ← (az.info.lslist.filter (isReprotected status call.routerid)).mapM
          fun _ => policyKey destorydegree
        return (⟨areas, true⟩, keys)
      else
        return (⟨areas, fah.isRouterNeedProtect⟩, [])

/-! ## What is exact -/

/-- The metrics of the access links of a router. -/
def accessMetric (lslist : List TopoLink) (rid : UInt32) : Nat :=
  (lslist.map fun link =>
    if link.rid = rid ∧ IsAccess link then link.metric.toNat else 0).sum

/-- The importance of a path. -/
def exactImportance (info : AreaInfo) (path : Netpath) : Nat :=
  accessMetric info.lslist path.rid * accessMetric info.lslist path.nrid

/-- The importances of the paths for which this is so. -/
def exactValue (area : Area) (isCounted : Netpath → Bool) : Nat :=
  (area.paths.shortpaths.map fun path =>
    if isCounted path = true then exactImportance area.info path else 0).sum

/-- Nothing overflows where `get_net_destory_degree` divides, and the key is a percentage. -/
structure DegreeRight (area : Area) : Prop where
  sums :
    ∀ path ∈ area.paths.shortpaths,
      ∀ rid ∈ [path.rid, path.nrid],
        (importanceValueOfRouter area.info.lslist rid).toInt32.toInt =
          accessMetric area.info.lslist rid
  products :
    ∀ path ∈ area.paths.shortpaths,
      path.importanceValue.toInt32.toInt = exactImportance area.info path
  values :
    ∃ values,
      getNetValues area.paths = .ok values ∧
        values.netValue.toInt = exactValue area (fun _ => true) ∧
        values.brokenValue.toInt = exactValue area (·.connection ≠ .connecting) ∧
        0 < values.netValue.toInt ∧
        0 ≤ values.brokenValue.toInt ∧
        values.brokenValue.toInt ≤ values.netValue.toInt
  key :
    ∃ destorydegree key,
      getNetDestoryDegree area.paths = .ok destorydegree ∧
        policyKey destorydegree = .ok key ∧
        0 ≤ key ∧
        key ≤ 100

/-- After any calls, all is right where the next one divides. -/
def AlwaysRight (status : TopoLink → UInt32) (areas : List Area) : Prop :=
  ∀ isRouterNeedProtect calls fah,
    Run (ofPartial fun fah call => (fahProtectLink status fah call).map Prod.fst)
      ⟨areas, isRouterNeedProtect⟩ calls fah →
    ∀ (call : ProtectCall) az,
      (getAreaByAreaid fah.areas call.link.areaid).bind
          ((recordBrokenPathDown fah.areas call.link)[·]?) = some az →
      DegreeRight az

/-- The list ends, the routers on it are not too important, and their paths not all without. -/
structure AddsUp (area : Area) : Prop where
  ends : area.paths.tail = 0
  routers :
    ∀ path ∈ area.paths.shortpaths,
      ∀ rid ∈ [path.rid, path.nrid], accessMetric area.info.lslist rid < 2 ^ 31
  positive : 0 < exactValue area fun _ => true
  bounded : exactValue area (fun _ => true) < 2 ^ 31

/-! ## The key -/

/-- The key of a broken value that is not above the net value. -/
theorem policyKey_bounds
    {brokenValue netValue : ℕ}
    (positive : 0 < netValue)
    (le : brokenValue ≤ netValue) :
    let degree := Rounding.single
      (Rounding.single brokenValue / Rounding.single netValue)
    0 ≤ Rounding.truncate (Rounding.double (degree * 100)) ∧
      Rounding.truncate (Rounding.double (degree * 100)) ≤ 100 := by
  intro degree
  have broken : 0 ≤ Rounding.single brokenValue :=
    Rounding.round_nonneg _ (Nat.cast_nonneg brokenValue)
  have order : Rounding.single brokenValue ≤ Rounding.single netValue :=
    Rounding.round_mono (Nat.cast_nonneg brokenValue) (Nat.cast_le.mpr le)
  have one : ((1 : ℕ) : ℚ) ≤ Rounding.single netValue :=
    Rounding.natCast_le_round (by norm_num) (Nat.cast_le.mpr positive)
  rw [Nat.cast_one] at one
  have net : 0 < Rounding.single netValue := lt_of_lt_of_le one_pos one
  have low : 0 ≤ Rounding.single brokenValue / Rounding.single netValue :=
    div_nonneg broken net.le
  have high : Rounding.single brokenValue / Rounding.single netValue ≤ ((1 : ℕ) : ℚ) := by
    rw [Nat.cast_one]
    exact (div_le_one net).mpr order
  have degreeLow : 0 ≤ degree := Rounding.round_nonneg _ low
  have degreeHigh : degree ≤ ((1 : ℕ) : ℚ) :=
    Rounding.round_le_natCast (by norm_num) low high
  rw [Nat.cast_one] at degreeHigh
  have productLow : 0 ≤ degree * 100 := mul_nonneg degreeLow (by norm_num)
  have productHigh : degree * 100 ≤ ((100 : ℕ) : ℚ) := by
    push_cast
    linarith
  have keyLow : 0 ≤ Rounding.double (degree * 100) := Rounding.round_nonneg _ productLow
  have keyHigh : Rounding.double (degree * 100) ≤ ((100 : ℕ) : ℚ) :=
    Rounding.round_le_natCast (by norm_num) productLow productHigh
  unfold Rounding.truncate
  rw [if_neg (not_lt.mpr keyLow)]
  refine ⟨Int.floor_nonneg.mpr keyLow, ?_⟩
  have floors := Int.floor_le_floor keyHigh
  rwa [Int.floor_natCast] at floors

/-! ## Sums -/

section Sums

variable {area : Area}

/-- The sum of the code, which wraps. -/
theorem importanceValueOfRouter_eq
    (lslist : List TopoLink)
    (rid : UInt32) :
    importanceValueOfRouter lslist rid = UInt32.ofNat (accessMetric lslist rid) := by
  have loop (links : List TopoLink) (value : UInt32) :
      links.foldl
          (fun value link =>
            if link.rid = rid ∧ IsAccess link then value + link.metric else value)
          value =
        value + UInt32.ofNat (accessMetric links rid) := by
    induction links generalizing value with
    | nil =>
        exact (UInt32.add_zero value).symm
    | cons link rest inductionHypothesis =>
        have sum :
            accessMetric (link :: rest) rid =
              (if link.rid = rid ∧ IsAccess link then link.metric.toNat else 0) +
                accessMetric rest rid :=
          List.sum_cons
        rw [List.foldl_cons, inductionHypothesis, sum, UInt32.ofNat_add]
        by_cases counts : link.rid = rid ∧ IsAccess link
        · rw [if_pos counts, if_pos counts, UInt32.ofNat_toNat, UInt32.add_assoc]
        · rw [if_neg counts, if_neg counts, show UInt32.ofNat 0 = 0 from rfl, UInt32.zero_add]
  unfold importanceValueOfRouter
  rw [loop, UInt32.zero_add]

/-- A small number is the same in every type. -/
theorem toInt_ofNat
    {n : Nat}
    (small : n < 2 ^ 31) :
    (UInt32.ofNat n).toNat = n ∧ (UInt32.ofNat n).toInt32.toInt = n := by
  have kept : (UInt32.ofNat n).toNat = n := UInt32.toNat_ofNat_of_lt' (by
    change n < 2 ^ 32
    omega)
  refine ⟨kept, ?_⟩
  rw [toInt32_eq_ofNat, kept]
  exact Int32.toInt_ofNat_of_lt small

/-- A path has the importance of its ends. -/
def ImportancesOfEnds (area : Area) : Prop :=
  ∀ path ∈ area.paths.shortpaths,
    path.importanceValue =
      importanceValueOfRouter area.info.lslist path.rid *
        importanceValueOfRouter area.info.lslist path.nrid

theorem exactValue_mono
    {first second : Netpath → Bool}
    (implies : ∀ path, first path = true → second path = true) :
    exactValue area first ≤ exactValue area second := by
  unfold exactValue
  refine List.sum_le_sum fun path _ => ?_
  by_cases isFirst : first path = true
  · rw [if_pos isFirst, if_pos (implies path isFirst)]
  · rw [if_neg isFirst]
    exact Nat.zero_le _

/-- Where everything adds up, a path has its exact importance. -/
theorem AddsUp.importance
    (addsUp : AddsUp area)
    (importances : ImportancesOfEnds area)
    {path : Netpath}
    (member : path ∈ area.paths.shortpaths) :
    path.importanceValue.toNat = exactImportance area.info path ∧
      path.importanceValue.toInt32.toInt = exactImportance area.info path := by
  have within : exactImportance area.info path ≤ exactValue area fun _ => true :=
    List.single_le_sum (fun _ _ => Nat.zero_le _) _
      (List.mem_map.mpr ⟨path, member, if_pos rfl⟩)
  have value :
      path.importanceValue = UInt32.ofNat (exactImportance area.info path) := by
    rw [importances path member, importanceValueOfRouter_eq, importanceValueOfRouter_eq,
      ← UInt32.ofNat_mul]
    rfl
  rw [value]
  exact toInt_ofNat (Nat.lt_of_le_of_lt within addsUp.bounded)

theorem AddsUp.importanceOf
    (addsUp : AddsUp area)
    (importances : ImportancesOfEnds area)
    (isCounted : Netpath → Bool) :
    importanceOf isCounted area.paths.shortpaths = exactValue area isCounted := by
  unfold Lidb.importanceOf exactValue
  congr 1
  refine List.map_congr_left fun path member => ?_
  rw [(addsUp.importance importances member).1]

/-- What adds up is right to divide. -/
theorem AddsUp.degreeRight
    (addsUp : AddsUp area)
    (importances : ImportancesOfEnds area) :
    DegreeRight area := by
  have le :
      exactValue area (·.connection ≠ .connecting) ≤ exactValue area fun _ => true :=
    exactValue_mono fun _ _ => rfl
  have bounded := addsUp.bounded
  have positive := addsUp.positive
  have added :
      getNetValues area.paths =
        .ok
          { brokenValue := Int32.ofNat (exactValue area (·.connection ≠ .connecting))
            netValue := Int32.ofNat (exactValue area fun _ => true) } := by
    unfold getNetValues
    rw [if_pos addsUp.ends, foldl_add, addsUp.importanceOf importances,
      addsUp.importanceOf importances, Int32.zero_add, Int32.zero_add]
  have net := Int32.toInt_ofNat_of_lt bounded
  have broken := Int32.toInt_ofNat_of_lt (Nat.lt_of_le_of_lt le bounded)
  constructor
  case sums =>
    intro path member rid isEnd
    rw [importanceValueOfRouter_eq]
    exact (toInt_ofNat (addsUp.routers path member rid isEnd)).2
  case products => exact fun path member => (addsUp.importance importances member).2
  case values =>
    refine ⟨_, added, net, broken, ?_⟩
    dsimp only
    rw [net, broken]
    omega
  case key =>
    have nonzero : Int32.ofNat (exactValue area fun _ => true) ≠ 0 := by
      intro zero
      rw [zero] at net
      change (0 : Int) = _ at net
      omega
    refine ⟨some _, _, ?_, rfl, policyKey_bounds positive le⟩
    unfold getNetDestoryDegree
    rw [added]
    change Except.ok (if Int32.ofNat (exactValue area fun _ => true) = 0 then none else _) = _
    rw [if_neg nonzero]
    dsimp only
    rw [net, broken]
    rfl

/-- And what is right to divide adds up. -/
theorem DegreeRight.addsUp
    (right : DegreeRight area) :
    AddsUp area := by
  obtain ⟨values, added, net, -, positive, -⟩ := right.values
  have bounded := values.netValue.toInt_lt
  rw [net] at positive bounded
  constructor
  case ends => exact getNetValues_ok added
  case routers =>
    intro path member rid isEnd
    have small := (importanceValueOfRouter area.info.lslist rid).toInt32.toInt_lt
    rw [right.sums path member rid isEnd] at small
    exact_mod_cast small
  case positive => exact_mod_cast positive
  case bounded => exact_mod_cast bounded

end Sums

/-! ## Marks -/

section Marks

variable {area : Area}

/-- A mark changes the connection alone. -/
theorem Netpath.mark_fields
    (isMarked : Netpath → Bool)
    (path : Netpath) :
    (path.mark isMarked).rid = path.rid ∧
      (path.mark isMarked).nrid = path.nrid ∧
      (path.mark isMarked).importanceValue = path.importanceValue := by
  unfold mark
  split
  · exact ⟨rfl, rfl, rfl⟩
  · exact ⟨rfl, rfl, rfl⟩

theorem ImportancesOfEnds.mark
    (importances : ImportancesOfEnds area)
    (isMarked : Netpath → Bool) :
    ImportancesOfEnds (area.mark isMarked) := by
  refine List.forall_mem_map.mpr fun path member => ?_
  obtain ⟨rid, nrid, importance⟩ := path.mark_fields isMarked
  rw [rid, nrid, importance]
  exact importances path member

theorem addsUp_mark
    (isMarked : Netpath → Bool) :
    AddsUp (area.mark isMarked) ↔ AddsUp area := by
  have total :
      exactValue (area.mark isMarked) (fun _ => true) = exactValue area fun _ => true := by
    unfold exactValue Area.mark
    dsimp only
    rw [List.map_map]
    congr 1
    refine List.map_congr_left fun path _ => ?_
    obtain ⟨rid, nrid, -⟩ := path.mark_fields isMarked
    rw [Function.comp_apply, if_pos rfl, if_pos rfl, exactImportance, rid, nrid]
    rfl
  have routers :
      (∀ path ∈ (area.mark isMarked).paths.shortpaths,
          ∀ rid ∈ [path.rid, path.nrid],
            accessMetric (area.mark isMarked).info.lslist rid < 2 ^ 31) ↔
        ∀ path ∈ area.paths.shortpaths,
          ∀ rid ∈ [path.rid, path.nrid], accessMetric area.info.lslist rid < 2 ^ 31 := by
    refine List.forall_mem_map.trans (forall₂_congr fun path _ => ?_)
    obtain ⟨rid, nrid, -⟩ := path.mark_fields isMarked
    rw [rid, nrid]
    rfl
  constructor
  · rintro ⟨ends, small, positive, bounded⟩
    rw [total] at positive bounded
    exact ⟨ends, routers.mp small, positive, bounded⟩
  · rintro ⟨ends, small, positive, bounded⟩
    rw [← total] at positive bounded
    exact ⟨ends, routers.mpr small, positive, bounded⟩

/-- Every area after a call is one from before, perhaps with more marks. -/
theorem mem_recordBrokenPathDown
    {areas : List Area}
    {link : TopoLink}
    (member : area ∈ recordBrokenPathDown areas link) :
    ∃ before ∈ areas, ∃ isMarked, area = before.mark isMarked := by
  unfold recordBrokenPathDown at member
  cases found : getAreaByAreaid areas link.areaid with
  | none =>
      rw [found] at member
      exact ⟨area, member, fun _ => false, Area.mark_none.symm⟩
  | some k =>
      rw [found] at member
      obtain ⟨place, listed⟩ := List.getElem?_of_mem member
      rw [List.getElem?_modify] at listed
      obtain ⟨before, isBefore, same⟩ := Option.map_eq_some_iff.mp listed
      refine ⟨before, List.mem_of_getElem? isBefore, ?_⟩
      by_cases here : k = place
      · rw [if_pos here] at same
        exact ⟨_, same.symm⟩
      · rw [if_neg here] at same
        exact ⟨fun _ => false, same.symm.trans Area.mark_none.symm⟩

/-- The areas after a call of `fah_protect_link`. -/
theorem fahProtectLink_areas
    {status : TopoLink → UInt32}
    {fah after : Fah}
    {call : ProtectCall}
    (step : (fahProtectLink status fah call).map Prod.fst = .ok after) :
    after.areas = fah.areas ∨ after.areas = recordBrokenPathDown fah.areas call.link := by
  obtain ⟨⟨state, keys⟩, called, rfl⟩ := Loops.map_eq_ok.mp step
  clear step
  unfold fahProtectLink at called
  dsimp only at called
  split at called
  · cases called
    exact .inl rfl
  · obtain ⟨degree, -, called⟩ := Loops.bind_eq_ok.mp called
    split at called
    · obtain ⟨key, -, called⟩ := Loops.bind_eq_ok.mp called
      cases called
      exact .inr rfl
    · split at called
      · obtain ⟨keys, -, called⟩ := Loops.bind_eq_ok.mp called
        cases called
        exact .inr rfl
      · cases called
        exact .inr rfl

/-- What `record_short_path` leaves has the importances of the ends. -/
theorem AreaComputed.importancesOfEnds
    {fuel : Nat}
    {ifid : UInt32 → Nat → Nat → Nat → Int}
    {memory : UInt32 → Memory}
    {table : List TopoLink}
    {areaid : UInt32}
    (computed : AreaComputed fuel ifid memory table areaid area) :
    ImportancesOfEnds area := by
  intro path member
  rw [computed.paths.shortpaths, List.mem_reverse] at member
  obtain ⟨address, cell, -, rfl⟩ := mem_netpaths.mp member
  rfl

/-- An area is found by its identifier. -/
theorem getAreaByAreaid_self
    {areas : List Area}
    (distinct : (areas.map fun area => area.info.azid).Nodup)
    {k : Nat}
    (listed : areas[k]? = some area) :
    getAreaByAreaid areas area.info.azid = some k := by
  obtain ⟨inside, isArea⟩ := List.getElem?_eq_some_iff.mp listed
  refine List.findIdx?_eq_some_iff_getElem.mpr ⟨inside, ?_, fun j earlier isOther => ?_⟩
  · rw [isArea]
    exact decide_eq_true rfl
  · have within : j < areas.length := Nat.lt_trans earlier inside
    have same : (areas[j]).info.azid = area.info.azid := of_decide_eq_true isOther
    refine absurd ((List.getElem?_inj (by rw [List.length_map]; exact within) distinct).mp ?_)
      (Nat.ne_of_lt earlier)
    rw [List.getElem?_map, List.getElem?_map, listed, List.getElem?_eq_getElem within]
    exact congrArg some same

end Marks

section Calls

variable
  {fuel : Nat}
  {ifid : UInt32 → Nat → Nat → Nat → Int}
  {memory : UInt32 → Memory}
  {table : List TopoLink}
  {areas : List Area}
  {status : TopoLink → UInt32}

/-- A first call divides for its area. -/
theorem AlwaysRight.addsUp
    (right : AlwaysRight status areas)
    (ends : pathComputeStart fuel ifid memory table = .ok areas) :
    ∀ area ∈ areas, AddsUp area := by
  intro area member
  have distinct := pathComputeStart_distinct ends
  obtain ⟨k, listed⟩ := List.getElem?_of_mem member
  let call : ProtectCall := ⟨0, ⟨area.info.azid, 0, 0, 0, 0, 0⟩⟩
  obtain ⟨-, marked⟩ := recordBrokenPathDown_area distinct listed call.link
  have divides := right false [] _ (.nil _) call _ (by
    change (getAreaByAreaid areas area.info.azid).bind _ = _
    rw [getAreaByAreaid_self distinct listed]
    exact marked)
  exact (addsUp_mark _).mp divides.addsUp

/-- What adds up after the computation adds up after every call. -/
theorem alwaysRight_of_addsUp
    (ends : pathComputeStart fuel ifid memory table = .ok areas)
    (addsUp : ∀ area ∈ areas, AddsUp area) :
    AlwaysRight status areas := by
  intro isRouterNeedProtect calls fah run call az divides
  have invariant : ∀ area ∈ fah.areas, AddsUp area ∧ ImportancesOfEnds area := by
    refine run.invariant
      (fun fah => ∀ area ∈ fah.areas, AddsUp area ∧ ImportancesOfEnds area) ?_ ?_
    · intro before call after holds step area member
      rcases fahProtectLink_areas step with same | marked
      · exact holds area (same ▸ member)
      · rw [marked] at member
        obtain ⟨earlier, isBefore, isMarked, rfl⟩ := mem_recordBrokenPathDown member
        obtain ⟨adds, importances⟩ := holds earlier isBefore
        exact ⟨(addsUp_mark isMarked).mpr adds, importances.mark isMarked⟩
    · intro area member
      obtain ⟨areaid, -, computed⟩ :=
        (Loops.exists_of_forall₂ (pathComputeStart_ok ends)).2 area member
      exact ⟨addsUp area member, computed.importancesOfEnds⟩
  obtain ⟨k, -, listed⟩ := Option.bind_eq_some_iff.mp divides
  obtain ⟨before, isBefore, isMarked, rfl⟩ :=
    mem_recordBrokenPathDown (List.mem_of_getElem? listed)
  obtain ⟨adds, importances⟩ := invariant before isBefore
  exact ((addsUp_mark isMarked).mpr adds).degreeRight (importances.mark isMarked)

end Calls

/--
After every computation and any calls, all is right where the next call divides,
exactly if everything adds up in each area that the computation has left.
-/
theorem alwaysRight_iff
    {fuel : Nat}
    {ifid : UInt32 → Nat → Nat → Nat → Int}
    {memory : UInt32 → Memory}
    {table : List TopoLink}
    {areas : List Area}
    (ends : pathComputeStart fuel ifid memory table = .ok areas)
    (status : TopoLink → UInt32) :
    AlwaysRight status areas ↔ ∀ area ∈ areas, AddsUp area :=
  ⟨fun right => right.addsUp ends, alwaysRight_of_addsUp ends⟩

theorem addsUp_iff
    {area : Area} :
    AddsUp area ↔
      area.paths.tail = 0 ∧
        (∀ path ∈ area.paths.shortpaths,
          accessMetric area.info.lslist path.rid < 2 ^ 31 ∧
            accessMetric area.info.lslist path.nrid < 2 ^ 31) ∧
        0 < exactValue area (fun _ => true) ∧ exactValue area (fun _ => true) < 2 ^ 31 := by
  constructor
  · rintro ⟨ends, routers, positive, bounded⟩
    refine ⟨ends, fun path member => ?_, positive, bounded⟩
    simpa using routers path member
  · rintro ⟨ends, routers, positive, bounded⟩
    refine ⟨ends, fun path member => ?_, positive, bounded⟩
    simpa using routers path member

instance (area : Area) : Decidable (AddsUp area) :=
  decidable_of_iff' _ addsUp_iff

/-- Whether everything adds up in a table, computed in empty memory. -/
def addsUpIn (table : List TopoLink) : Except Fault Bool :=
  (pathComputeStart 100 (fun _ _ _ _ => 1) (fun _ => ⟨0, fun _ => ⟨[], 0⟩⟩) table).map
    fun areas => ∀ area ∈ areas, AddsUp area

/-- Two routers with small networks. -/
theorem alwaysRight_twoHomes :
    ∃ areas, computeHomes 3 = .ok areas ∧ AlwaysRight (fun _ => 3) areas := by
  have adds : addsUpIn (twoHomes 3) = .ok true := by decide
  obtain ⟨areas, computed, all⟩ := Loops.map_eq_ok.mp adds
  exact ⟨areas, computed, (alwaysRight_iff computed _).mpr (of_decide_eq_true all)⟩

/-- Three routers without a network: the net value is 0. -/
theorem triangle_not_alwaysRight :
    ∃ areas,
      pathComputeStart 100 (fun _ _ _ _ => 1) (fun _ => ⟨0, fun _ => ⟨[], 0⟩⟩)
          Ddc.triangleLinks = .ok areas ∧
        ¬AlwaysRight (fun _ => 3) areas := by
  have adds : addsUpIn Ddc.triangleLinks = .ok false := by decide
  obtain ⟨areas, computed, all⟩ := Loops.map_eq_ok.mp adds
  exact ⟨areas, computed, fun right =>
    of_decide_eq_false all (right.addsUp computed)⟩

end Pma.Lidb
