import Mathlib.Data.List.Sort
import Pma.Ddc

namespace Pma.Lidb

open Ddc (maxMetric maxInterface maxEcmpLimit)

/-!
# The link database in memory

`ddc/ddc.c` once more, with its arrays, its 32-bit numbers and its -1 for what
is unknown, for any rows of `pma_lsdb`.  A write outside the matrix, a write
past the end of `nexthop` and a read outside of `nodeinfo` are faults.  Indices
are integers here, as the code keeps -1 in some of them.
-/

/-- `struct Netnode`. -/
structure Netnode where
  nextHop : Int
  nexthop : Vector Int maxEcmpLimit
  nexthopCount : Nat
  metric : UInt32
  pathCost : UInt32
  /-- The place in `lslist`, or -1. -/
  linkIndex : Int
  /-- The pointer into `lslist`, by its place. -/
  link : Option Nat
  deriving DecidableEq, Repr

abbrev Matrix := Nat → Nat → Netnode

/-- Write one entry. -/
def Matrix.setNode (matrix : Matrix) (x y : Nat) (node : Netnode) : Matrix :=
  fun row column => if row = x ∧ column = y then node else matrix row column

/-- The part of `struct area_info` that is read from the database, and the matrix. -/
structure AreaInfo where
  azid : UInt32
  /-- `nodeinfo`, which has the routers of `routerlist`. -/
  routers : List UInt32
  lslist : List TopoLink
  matrix : Matrix

/-- `router_count`. -/
def AreaInfo.routerCount (az : AreaInfo) : Nat :=
  az.routers.length

/-- An access outside of an array or a list, a loop without end, or no number. -/
inductive Fault where
  | matrixOverrun
  | nexthopOverrun
  | nodeinfoOverrun
  | linkshadowsOverrun
  | foreignMemory
  | notANumber
  | unending
  deriving DecidableEq, Repr

/-! ## Reading the database -/

/-- `get_areaes`. -/
def getAreaes (table : List TopoLink) : List UInt32 :=
  (table.map TopoLink.areaid).dedup

/-- `get_link_states`. -/
def getLinkStates (table : List TopoLink) (areaid : UInt32) : List TopoLink :=
  table.filter (·.areaid = areaid)

/-- `get_routers`: in ascending order, and the database has signed numbers. -/
def getRouters (table : List TopoLink) (areaid : UInt32) : List UInt32 :=
  ((getLinkStates table areaid).map TopoLink.rid).dedup.insertionSort
    fun first second => first.toInt32 ≤ second.toInt32

/-- `get_index_by_rid`. -/
def getIndexByRid (routers : List UInt32) (rid : UInt32) : Int :=
  match routers.findIdx? (· = rid) with
  | some x => x
  | none => -1

/-! ## The matrix -/

/-- An entry before its link is seen. -/
def noLink : Netnode where
  nextHop := 0
  nexthop := .replicate maxEcmpLimit 0
  nexthopCount := 0
  metric := 2000
  pathCost := 0
  linkIndex := -1
  link := none

/-- A row without a neighbour. -/
def IsAccess (link : TopoLink) : Prop :=
  link.nrid = 0 ∧ link.nifid = 0

instance (link : TopoLink) : Decidable (IsAccess link) :=
  inferInstanceAs (Decidable (_ ∧ _))

/-- What a link leaves in its entry; `y` is what was found for the neighbour. -/
def Netnode.setLink (node : Netnode) (link : TopoLink) (j : Nat) (y : Int) : Netnode :=
  { node with
    link := some j
    linkIndex := j
    metric := link.metric
    pathCost := link.metric
    nexthopCount := if link.metric.toNat < maxMetric then 1 else node.nexthopCount
    nexthop :=
      if link.metric.toNat < maxMetric then node.nexthop.set 0 y (by decide)
      else node.nexthop }

/-- Where `matrix + x * router_count + y` points. -/
def position (routers : List UInt32) (link : TopoLink) : Int :=
  getIndexByRid routers link.rid * routers.length + getIndexByRid routers link.nrid

/-- What `init_lidb_info` does with a link; the matrix is an array of rows. -/
def addLink
    (routers : List UInt32)
    (matrix : Matrix)
    (entry : TopoLink × Nat) : Except Fault Matrix :=
  let (link, j) := entry
  if IsAccess link then
    .ok matrix
  else
    let place := position routers link
    if 0 ≤ place ∧ place < routers.length * routers.length then
      let row := place.toNat / routers.length
      let column := place.toNat % routers.length
      .ok (matrix.setNode row column
        ((matrix row column).setLink link j (getIndexByRid routers link.nrid)))
    else
      .error .matrixOverrun

/-- The matrix that `init_lidb_info` makes of the links of an area. -/
def initMatrix (routers : List UInt32) (lslist : List TopoLink) : Except Fault Matrix :=
  lslist.zipIdx.foldlM (addLink routers) fun _ _ => noLink

/-- `init_lsdb_info` and `init_lidb_info` for one area, without the lists of paths. -/
def initLidbInfo (table : List TopoLink) (areaid : UInt32) : Except Fault AreaInfo :=
  let routers := getRouters table areaid
  let lslist := getLinkStates table areaid
  (initMatrix routers lslist).map fun matrix => ⟨areaid, routers, lslist, matrix⟩

/-! ## Next hops -/

/-- Write one entry of `nexthop` and count it. -/
def Netnode.writeNexthop (dst : Netnode) (index : Nat) (hop : Int) :
    Except Fault Netnode :=
  if inside : index < maxEcmpLimit then
    .ok
      { dst with
        nexthop := dst.nexthop.set index hop inside
        nexthopCount := dst.nexthopCount + 1 }
  else
    .error .nexthopOverrun

/-- `nexthop[index]`, if it is an entry. -/
def Netnode.hopAt (node : Netnode) (index : Nat) : Int :=
  node.nexthop.toList.getD index 0

/-- One pass of the loop of `nexthop_copy`, and whether it returned. -/
def nexthopCopyStep
    (w : Netnode)
    (copied : Netnode × Bool)
    (i : Nat) : Except Fault (Netnode × Bool) :=
  if copied.2 = true then
    .ok copied
  else
    (copied.1.writeNexthop i (w.hopAt i)).map fun dst =>
      (dst, decide (maxEcmpLimit < dst.nexthopCount))

/-- `nexthop_copy`. -/
def nexthopCopy (w dst : Netnode) : Except Fault Netnode :=
  ((List.range w.nexthopCount).foldlM (nexthopCopyStep w)
    ({ dst with nexthopCount := 0 }, false)).map Prod.fst

/-- Whether a next hop is among the first entries of `dst`. -/
def isSame (dst : Netnode) (originEcmpSum : Nat) (hop : Int) : Bool :=
  (List.range originEcmpSum).any fun j => hop = dst.hopAt j

/--
One pass of the loop of `equal_path_copy` behind the entries that `dst` has;
`index` stays where it is if there is nothing to write.
-/
def equalPathCopyStep
    (w : Netnode)
    (originEcmpSum : Nat)
    (merging : Netnode × Nat)
    (i : Nat) : Except Fault (Netnode × Nat) :=
  let (dst, index) := merging
  if isSame dst originEcmpSum (w.hopAt i) = true then
    .ok (dst, index)
  else
    (dst.writeNexthop index (w.hopAt i)).map fun node => (node, index + 1)

/-- `equal_path_copy`. -/
def equalPathCopy (w dst : Netnode) : Except Fault Netnode :=
  ((List.range w.nexthopCount).foldlM (equalPathCopyStep w dst.nexthopCount)
    (dst, dst.nexthopCount)).map Prod.fst

/-! ## The computation -/

/-- The variables of `dijkstra`. -/
structure DijkstraState where
  visite : Nat → Bool
  distance : Nat → Int32
  matrix : Matrix

/-- The variables of `min_cost`. -/
structure MinCost where
  temp : Int32
  minIfindex : Int
  value : Nat

/--
One pass of the loop of `min_cost`; `curIfindex` is what the query answers.  Its
arguments are read from `nodeinfo`.
-/
def minCostStep
    (total s : Nat)
    (state : DijkstraState)
    (curIfindex : Nat → Int)
    (best : MinCost)
    (i : Nat) : Except Fault MinCost :=
  if state.visite i = false ∧ state.distance i ≤ best.temp ∧ state.distance i ≠ 0 then
    let index := (state.matrix s i).hopAt 0
    if 0 ≤ index ∧ index < total then
      .ok
        (if state.distance i = best.temp then
          if curIfindex i < best.minIfindex then
            ⟨state.distance i, curIfindex i, i⟩
          else
            best
        else
          ⟨state.distance i, curIfindex i, i⟩)
    else
      .error .nodeinfoOverrun
  else
    .ok best

/-- `min_cost`. -/
def minCost
    (total s : Nat)
    (state : DijkstraState)
    (curIfindex : Nat → Int) : Except Fault Nat :=
  ((List.range total).foldlM (minCostStep total s state curIfindex)
    ⟨1999, maxInterface, 0⟩).map MinCost.value

/-- One pass of the inner loop of `dijkstra`. -/
def relax
    (s w : Nat)
    (state : DijkstraState)
    (j : Nat) : Except Fault DijkstraState :=
  if j = s then
    .ok { state with distance := fun i => if i = j then 0 else state.distance i }
  else if state.visite j = true then
    .ok state
  else
    let sum := state.distance w + (state.matrix w j).metric.toInt32
    if sum < state.distance j then
      (nexthopCopy (state.matrix s w) (state.matrix s j)).map fun node =>
        { state with
          distance := fun i => if i = j then sum else state.distance i
          matrix := state.matrix.setNode s j node }
    else if sum = state.distance j then
      (equalPathCopy (state.matrix s w) (state.matrix s j)).map fun node =>
        { state with matrix := state.matrix.setNode s j node }
    else
      .ok state

/-- Mark a node. -/
def DijkstraState.visit (state : DijkstraState) (w : Nat) : DijkstraState :=
  { state with visite := fun i => if i = w then true else state.visite i }

/-- The outer loop has selected a node, and the inner loop has come to `m`. -/
def innerLoop
    (total s : Nat)
    (state : DijkstraState)
    (curIfindex : Nat → Int)
    (m : Nat) : Except Fault (Nat × DijkstraState) := do
  let w ← minCost total s state curIfindex
  let reached ← (List.range m).foldlM (relax s w) (state.visit w)
  return (w, reached)

/-- One pass of the outer loop, with the answers that its queries get. -/
def iteration
    (total s : Nat)
    (state : DijkstraState)
    (curIfindex : Nat → Int) : Except Fault DijkstraState :=
  (innerLoop total s state curIfindex total).map Prod.snd

/-- Before the outer loop. -/
def AreaInfo.start (az : AreaInfo) (s : Nat) : DijkstraState where
  visite := fun _ => false
  distance := fun i => (az.matrix s i).metric.toInt32
  matrix := az.matrix

/-- The last loop: the distances and a next hop for each destination. -/
def DijkstraState.finish (state : DijkstraState) (total s : Nat) : Matrix :=
  fun row column =>
    let node := state.matrix row column
    if row = s ∧ column < total then
      { node with
        pathCost := (state.distance column).toUInt32
        nextHop := if node.nexthopCount ≠ 0 then node.hopAt 0 else s }
    else
      node

/-- The outer loop up to pass `k`; `ifid` has the answers, by pass and by node. -/
def afterPasses
    (ifid : Nat → Nat → Int)
    (s : Nat)
    (az : AreaInfo)
    (k : Nat) : Except Fault DijkstraState :=
  ((List.range k).map ifid).foldlM (iteration az.routerCount s) (az.start s)

/-- `dijkstra`. -/
def dijkstra
    (ifid : Nat → Nat → Int)
    (s : Nat)
    (az : AreaInfo) : Except Fault AreaInfo :=
  (afterPasses ifid s az az.routerCount).map fun state =>
    { az with matrix := state.finish az.routerCount s }

/-- The loop of `path_compute_start` over the sources, up to source `k`. -/
def dijkstraUpTo
    (ifid : Nat → Nat → Nat → Int)
    (az : AreaInfo)
    (k : Nat) : Except Fault AreaInfo :=
  (List.range k).foldlM (fun az r => dijkstra (ifid r) r az) az

end Pma.Lidb
