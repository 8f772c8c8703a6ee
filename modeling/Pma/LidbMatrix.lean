import Pma.Lidb

namespace Pma.Lidb

open Ddc (maxMetric)

/-!
# What the matrix is made of

Every link of an area writes one entry, and of the links that write the same
entry the last one stays.  Where a link writes follows from two look-ups, and
the second may fail: then the -1 leads to the last entry of the row before, or
in front of the matrix.
-/

variable {routers : List UInt32}

/-! ## Look-ups -/

/-- What `get_index_by_rid` finds: the place of the router, or -1. -/
theorem getIndexByRid_cases
    (routers : List UInt32)
    (rid : UInt32) :
    (∃ x : Nat, getIndexByRid routers rid = x ∧ routers[x]? = some rid) ∨
      (getIndexByRid routers rid = -1 ∧ rid ∉ routers) := by
  unfold getIndexByRid
  cases found : routers.findIdx? (· = rid) with
  | none =>
      refine .inr ⟨rfl, fun member => ?_⟩
      have other := List.findIdx?_eq_none_iff.mp found rid member
      exact of_decide_eq_false other rfl
  | some x =>
      obtain ⟨inside, same, -⟩ := List.findIdx?_eq_some_iff_getElem.mp found
      refine .inl ⟨x, rfl, ?_⟩
      rw [List.getElem?_eq_getElem inside, of_decide_eq_true same]

/-- Among routers that are listed once, the look-up finds the place where a router is. -/
theorem getIndexByRid_eq_iff
    (nodup : routers.Nodup)
    {rid : UInt32}
    {x : Nat} :
    getIndexByRid routers rid = x ↔ routers[x]? = some rid := by
  constructor
  · intro found
    rcases getIndexByRid_cases routers rid with ⟨place, foundPlace, atPlace⟩ | ⟨missing, -⟩
    · rw [found] at foundPlace
      rw [Int.ofNat_inj.mp foundPlace]
      exact atPlace
    · rw [found] at missing
      omega
  · intro atX
    rcases getIndexByRid_cases routers rid with ⟨place, foundPlace, atPlace⟩ | ⟨-, unknown⟩
    · have inside := (List.getElem?_eq_some_iff.mp atX).1
      rw [foundPlace, (List.getElem?_inj inside nodup).mp (atX.trans atPlace.symm)]
    · exact absurd (List.mem_of_getElem? atX) unknown

/-! ## The last link that writes an entry -/

/-- A backbone link that writes the entry of row `x` and column `y`. -/
def Writes (routers : List UInt32) (x y : Nat) (link : TopoLink) : Prop :=
  ¬IsAccess link ∧ position routers link = x * routers.length + y

instance (routers : List UInt32) (x y : Nat) (link : TopoLink) :
    Decidable (Writes routers x y link) :=
  inferInstanceAs (Decidable (_ ∧ _))

/-- The last of the links that write an entry, with its place. -/
def lastWrite
    (routers : List UInt32)
    (entries : List (TopoLink × Nat))
    (x y : Nat) : Option (TopoLink × Nat) :=
  (entries.filter fun entry => Writes routers x y entry.1).getLast?

/-- An entry is what a link made of it, or was not written. -/
def Describes
    (routers : List UInt32)
    (node : Netnode) : Option (TopoLink × Nat) → Prop
  | none => node = noLink
  | some (link, j) =>
      node.link = some j ∧ node.linkIndex = j ∧ node.metric = link.metric ∧
        node.pathCost = link.metric ∧
        (link.metric.toNat < maxMetric → node.hopAt 0 = getIndexByRid routers link.nrid)

/-- A link writes inside the matrix. -/
def WritesInside (routers : List UInt32) (link : TopoLink) : Prop :=
  ¬IsAccess link →
    0 ≤ position routers link ∧ position routers link < routers.length * routers.length

theorem lastWrite_append
    (entries : List (TopoLink × Nat))
    (entry : TopoLink × Nat)
    (x y : Nat) :
    lastWrite routers (entries ++ [entry]) x y =
      if Writes routers x y entry.1 then some entry else lastWrite routers entries x y := by
  unfold lastWrite
  rw [List.filter_append, List.filter_singleton]
  by_cases writes : Writes routers x y entry.1
  · rw [if_pos writes, decide_eq_true writes, cond_true]
    exact List.getLast?_concat
  · rw [if_neg writes, decide_eq_false writes, cond_false, List.append_nil]

/-- A place in the array is that of one row and one column. -/
theorem place_iff
    {n : Nat}
    {place : Int}
    (nonnegative : 0 ≤ place)
    {x y : Nat}
    (inside : y < n) :
    (x = place.toNat / n ∧ y = place.toNat % n) ↔ place = x * n + y := by
  have positive : 0 < n := Nat.zero_lt_of_lt inside
  obtain ⟨position, rfl⟩ := Int.eq_ofNat_of_zero_le nonnegative
  rw [Int.toNat_natCast]
  constructor
  · rintro ⟨rfl, rfl⟩
    have division := Nat.div_add_mod position n
    rw [Nat.mul_comm] at division
    exact_mod_cast division.symm
  · intro same
    have natural : position = x * n + y := by exact_mod_cast same
    rw [natural, Nat.mul_comm x n, Nat.mul_add_div positive, Nat.mul_add_mod,
      Nat.div_eq_of_lt inside, Nat.mod_eq_of_lt inside]
    exact ⟨rfl, rfl⟩

/-- A near neighbour is the first next hop of its entry. -/
theorem Netnode.setLink_hopAt
    (node : Netnode)
    {link : TopoLink}
    (j : Nat)
    (y : Int)
    (near : link.metric.toNat < maxMetric) :
    (node.setLink link j y).hopAt 0 = y := by
  unfold setLink hopAt
  dsimp only
  rw [if_pos near, Vector.toList_set, List.getD_eq_getElem?_getD,
    List.getElem?_set_self (by rw [Vector.length_toList]; decide), Option.getD_some]

/-- One link: a write inside the matrix, which the links before it do not survive. -/
theorem addLink_ok
    {matrix : Matrix}
    {entries : List (TopoLink × Nat)}
    {entry : TopoLink × Nat}
    (inside : WritesInside routers entry.1)
    (before :
      ∀ x, ∀ y < routers.length, Describes routers (matrix x y) (lastWrite routers entries x y)) :
    ∃ next,
      addLink routers matrix entry = .ok next ∧
        ∀ x, ∀ y < routers.length,
          Describes routers (next x y) (lastWrite routers (entries ++ [entry]) x y) := by
  obtain ⟨link, j⟩ := entry
  unfold addLink
  dsimp only
  by_cases access : IsAccess link
  · rw [if_pos access]
    refine ⟨matrix, rfl, fun x y yInside => ?_⟩
    have other : ¬Writes routers x y link := fun writes => writes.1 access
    rw [lastWrite_append, if_neg other]
    exact before x y yInside
  · obtain ⟨nonnegative, bounded⟩ := inside access
    rw [if_neg access, if_pos ⟨nonnegative, bounded⟩]
    refine ⟨_, rfl, fun x y yInside => ?_⟩
    have same := place_iff nonnegative (x := x) yInside
    rw [lastWrite_append, Matrix.setNode]
    by_cases writes : Writes routers x y link
    · obtain ⟨isRow, isColumn⟩ := same.mpr writes.2
      rw [if_pos writes, if_pos ⟨isRow, isColumn⟩]
      exact ⟨rfl, rfl, rfl, rfl, Netnode.setLink_hopAt _ _ _⟩
    · rw [if_neg writes, if_neg fun both => writes ⟨access, same.mp both⟩]
      exact before x y yInside

theorem addLink_overrun
    (matrix : Matrix)
    {entry : TopoLink × Nat}
    (outside : ¬WritesInside routers entry.1) :
    addLink routers matrix entry = .error .matrixOverrun := by
  obtain ⟨link, j⟩ := entry
  unfold WritesInside at outside
  rw [Classical.not_imp] at outside
  unfold addLink
  dsimp only
  rw [if_neg outside.1, if_neg outside.2]

/-- All links write inside the matrix and the last ones stay, or there is a fault. -/
theorem foldlM_addLink
    (entries : List (TopoLink × Nat)) :
    ((∀ entry ∈ entries, WritesInside routers entry.1) →
      ∃ matrix,
        entries.foldlM (addLink routers) (fun _ _ => noLink) = .ok matrix ∧
          ∀ x, ∀ y < routers.length,
            Describes routers (matrix x y) (lastWrite routers entries x y)) ∧
    ((¬∀ entry ∈ entries, WritesInside routers entry.1) →
      entries.foldlM (addLink routers) (fun _ _ => noLink) = .error .matrixOverrun) := by
  induction entries using List.reverseRecOn with
  | nil =>
      refine ⟨fun _ => ⟨_, rfl, fun _ _ _ => rfl⟩, fun outside => absurd ?_ outside⟩
      exact fun entry member => absurd member List.not_mem_nil
  | append_singleton entries entry inductionHypothesis =>
      obtain ⟨goesOn, stops⟩ := inductionHypothesis
      rw [List.foldlM_append]
      have allInside :
          (∀ other ∈ entries ++ [entry], WritesInside routers other.1) ↔
            (∀ other ∈ entries, WritesInside routers other.1) ∧
              WritesInside routers entry.1 := by
        rw [List.forall_mem_append, List.forall_mem_singleton]
      rw [allInside]
      by_cases earlier : ∀ other ∈ entries, WritesInside routers other.1
      · obtain ⟨matrix, reached, described⟩ := goesOn earlier
        rw [reached]
        change
          (_ → ∃ next, [entry].foldlM (addLink routers) matrix = .ok next ∧ _) ∧
            (_ → [entry].foldlM (addLink routers) matrix = _)
        rw [List.foldlM_cons]
        constructor
        · rintro ⟨-, inside⟩
          obtain ⟨next, step, describedNext⟩ := addLink_ok inside described
          rw [step]
          exact ⟨next, rfl, describedNext⟩
        · intro outside
          rw [addLink_overrun matrix fun inside => outside ⟨earlier, inside⟩]
          rfl
      · rw [stops earlier]
        exact ⟨fun all => absurd all.1 earlier, fun _ => rfl⟩

/-! ## The links of an area -/

/-- A row of an area, as a row of the table. -/
theorem mem_getLinkStates
    {table : List TopoLink}
    {areaid : UInt32}
    {link : TopoLink} :
    link ∈ getLinkStates table areaid ↔ link ∈ table ∧ link.areaid = areaid := by
  unfold getLinkStates
  rw [List.mem_filter, decide_eq_true_iff]

theorem mem_getRouters
    {table : List TopoLink}
    {areaid rid : UInt32} :
    rid ∈ getRouters table areaid ↔ ∃ link ∈ getLinkStates table areaid, link.rid = rid := by
  unfold getRouters
  rw [List.mem_insertionSort, List.mem_dedup, List.mem_map]

/-- The query answers with distinct routers. -/
theorem nodup_getRouters
    (table : List TopoLink)
    (areaid : UInt32) :
    (getRouters table areaid).Nodup :=
  (List.perm_insertionSort _ _).nodup_iff.mpr (List.nodup_dedup _)

/-- A backbone link from router `x` of the area to router `y`. -/
def Joins (routers : List UInt32) (x y : Nat) (link : TopoLink) : Prop :=
  ¬IsAccess link ∧ routers[x]? = some link.rid ∧ routers[y]? = some link.nrid

/-- The matrix has an entry for a pair of routers exactly where there is a link. -/
def MatrixRight (routers : List UInt32) (lslist : List TopoLink) : Prop :=
  ∃ matrix,
    initMatrix routers lslist = .ok matrix ∧
      ∀ x < routers.length,
        ∀ y < routers.length,
          (matrix x y = noLink ↔ ¬∃ link ∈ lslist, Joins routers x y link) ∧
            ((∃ link ∈ lslist, Joins routers x y link) →
              ∃ (j : Nat) (link : TopoLink),
                lslist[j]? = some link ∧
                  Joins routers x y link ∧
                  (∀ other ∈ lslist, Joins routers x y other → link.metric ≤ other.metric) ∧
                  (matrix x y).metric = link.metric ∧
                  (matrix x y).linkIndex = j)

/-- No backbone link further down the list writes where link `j` does. -/
def IsLastWrite (routers : List UInt32) (lslist : List TopoLink) (j : Nat) : Prop :=
  ∃ link,
    lslist[j]? = some link ∧
      ¬IsAccess link ∧
      ∀ later other,
        j < later →
        lslist[later]? = some other →
        ¬IsAccess other →
        position routers other ≠ position routers link

/--
No link writes in front of the matrix, and the last one to write an entry has a
neighbour that is known and no better link beside it.
-/
structure LastIsLeast (routers : List UInt32) (lslist : List TopoLink) : Prop where
  inside :
    ∀ link ∈ lslist, ¬IsAccess link → 0 ≤ position routers link
  known :
    ∀ (j : Nat) link,
      lslist[j]? = some link →
      IsLastWrite routers lslist j →
      link.nrid ∈ routers
  least :
    ∀ (j : Nat) link,
      lslist[j]? = some link →
      IsLastWrite routers lslist j →
      ∀ other ∈ lslist,
        ¬IsAccess other →
        other.rid = link.rid →
        other.nrid = link.nrid →
        link.metric ≤ other.metric

section Area

variable {lslist : List TopoLink}

theorem lastWrite_zipIdx
    {x y j : Nat}
    {link : TopoLink} :
    lastWrite routers lslist.zipIdx x y = some (link, j) ↔
      lslist[j]? = some link ∧
        Writes routers x y link ∧
        ∀ later other,
          j < later → lslist[later]? = some other → ¬Writes routers x y other := by
  induction lslist using List.reverseRecOn with
  | nil =>
      exact iff_of_false nofun fun listed => nomatch listed.1
  | append_singleton lslist last inductionHypothesis =>
      have zipped : (lslist ++ [last]).zipIdx = lslist.zipIdx ++ [(last, lslist.length)] := by
        rw [List.zipIdx_append, Nat.zero_add]
        rfl
      rw [zipped, lastWrite_append]
      by_cases writes : Writes routers x y last
      · rw [if_pos writes]
        constructor
        · rintro ⟨⟩
          refine ⟨List.getElem?_concat_length, writes, fun later other after listed => ?_⟩
          have inside := (List.getElem?_eq_some_iff.mp listed).1
          rw [List.length_append] at inside
          exact absurd inside (Nat.not_lt.mpr after)
        · rintro ⟨listed, -, noLater⟩
          have inside := (List.getElem?_eq_some_iff.mp listed).1
          rw [List.length_append] at inside
          rcases Nat.lt_succ_iff_lt_or_eq.mp inside with earlier | same
          · exact absurd writes (noLater _ last earlier List.getElem?_concat_length)
          · rw [same, List.getElem?_concat_length] at listed
            rw [Option.some.inj listed, same]
      · rw [if_neg writes, inductionHypothesis]
        constructor
        · rintro ⟨listed, isWrite, noLater⟩
          have inside := (List.getElem?_eq_some_iff.mp listed).1
          refine ⟨(List.getElem?_append_left inside).trans listed, isWrite, ?_⟩
          intro later other after listedOther
          rcases Nat.lt_or_ge later lslist.length with earlier | behind
          · rw [List.getElem?_append_left earlier] at listedOther
            exact noLater later other after listedOther
          · rw [List.getElem?_append_right behind] at listedOther
            have isLast := List.mem_of_getElem? listedOther
            rw [List.mem_singleton] at isLast
            exact isLast ▸ writes
        · rintro ⟨listed, isWrite, noLater⟩
          have earlier : j < lslist.length := by
            by_contra behind
            rw [List.getElem?_append_right (Nat.le_of_not_lt behind)] at listed
            have isLast := List.mem_of_getElem? listed
            rw [List.mem_singleton] at isLast
            exact writes (isLast ▸ isWrite)
          rw [List.getElem?_append_left earlier] at listed
          refine ⟨listed, isWrite, fun later other after listedOther => ?_⟩
          have inside := (List.getElem?_eq_some_iff.mp listedOther).1
          exact noLater later other after
            ((List.getElem?_append_left inside).trans listedOther)

/-- Where the routers were found, a link between them writes their entry. -/
theorem Joins.writes
    (nodup : routers.Nodup)
    {x y : Nat}
    {link : TopoLink}
    (joins : Joins routers x y link) :
    Writes routers x y link := by
  obtain ⟨backbone, source, target⟩ := joins
  refine ⟨backbone, ?_⟩
  rw [position, (getIndexByRid_eq_iff nodup).mpr source,
    (getIndexByRid_eq_iff nodup).mpr target]

/-- A link to a known neighbour that writes an entry joins its routers. -/
theorem Writes.joins
    {x y : Nat}
    {link : TopoLink}
    (writes : Writes routers x y link)
    (yInside : y < routers.length)
    (source : link.rid ∈ routers)
    (target : link.nrid ∈ routers) :
    Joins routers x y link := by
  refine ⟨writes.1, ?_⟩
  have place := writes.2
  rcases getIndexByRid_cases routers link.rid with
    ⟨row, rowFound, rowIs⟩ | ⟨-, unknown⟩
  · rcases getIndexByRid_cases routers link.nrid with
      ⟨column, columnFound, columnIs⟩ | ⟨-, unknown⟩
    · have columnInside := (List.getElem?_eq_some_iff.mp columnIs).1
      rw [position, rowFound, columnFound] at place
      have nonnegative : (0 : Int) ≤ row * routers.length + column := by
        exact_mod_cast Nat.zero_le (row * routers.length + column)
      obtain ⟨sameRow, sameColumn⟩ :=
        (place_iff nonnegative columnInside).mpr rfl
      obtain ⟨isRow, isColumn⟩ := (place_iff nonnegative yInside).mpr place
      rw [isRow, ← sameRow, isColumn, ← sameColumn]
      exact ⟨rowIs, columnIs⟩
    · exact absurd target unknown
  · exact absurd source unknown

/-- No link of a known router writes behind the matrix. -/
theorem position_lt
    {link : TopoLink}
    (source : link.rid ∈ routers) :
    position routers link < routers.length * routers.length := by
  unfold position
  rcases getIndexByRid_cases routers link.rid with
    ⟨row, rowFound, rowIs⟩ | ⟨-, unknown⟩
  · have rowInside := (List.getElem?_eq_some_iff.mp rowIs).1
    have columnInside : getIndexByRid routers link.nrid < routers.length := by
      rcases getIndexByRid_cases routers link.nrid with
        ⟨column, columnFound, columnIs⟩ | ⟨missing, -⟩
      · have inside := (List.getElem?_eq_some_iff.mp columnIs).1
        omega
      · omega
    have rowEnds : ((row + 1 : Nat) : Int) * routers.length ≤ routers.length * routers.length :=
      Int.mul_le_mul_of_nonneg_right (by omega) (by omega)
    rw [Int.natCast_succ, Int.add_mul, Int.one_mul] at rowEnds
    rw [rowFound]
    omega
  · exact absurd source unknown

theorem isLastWrite_iff
    {j : Nat}
    {link : TopoLink}
    (listed : lslist[j]? = some link)
    {x y : Nat}
    (writes : Writes routers x y link) :
    IsLastWrite routers lslist j ↔
      lastWrite routers lslist.zipIdx x y = some (link, j) := by
  rw [lastWrite_zipIdx]
  constructor
  · rintro ⟨same, listedSame, -, noLater⟩
    rw [listed] at listedSame
    cases listedSame
    refine ⟨listed, writes, fun later other after listedOther isWrite => ?_⟩
    exact noLater later other after listedOther isWrite.1 (isWrite.2.trans writes.2.symm)
  · rintro ⟨-, -, noLater⟩
    refine ⟨link, listed, writes.1, fun later other after listedOther backbone same => ?_⟩
    exact noLater later other after listedOther ⟨backbone, same.trans writes.2⟩

/-- If the last links are the least, the matrix is right. -/
theorem LastIsLeast.matrixRight
    (nodup : routers.Nodup)
    (sources : ∀ link ∈ lslist, link.rid ∈ routers)
    (last : LastIsLeast routers lslist) :
    MatrixRight routers lslist := by
  have inside : ∀ entry ∈ lslist.zipIdx, WritesInside routers entry.1 := by
    intro entry member backbone
    have listed := List.fst_mem_of_mem_zipIdx member
    exact ⟨last.inside entry.1 listed backbone, position_lt (sources entry.1 listed)⟩
  obtain ⟨matrix, made, described⟩ := (foldlM_addLink lslist.zipIdx).1 inside
  refine ⟨matrix, made, fun x _ y yInside => ?_⟩
  have entry := described x y yInside
  cases found : lastWrite routers lslist.zipIdx x y with
  | none =>
      rw [found] at entry
      have noJoins : ¬∃ link ∈ lslist, Joins routers x y link := by
        rintro ⟨link, member, joins⟩
        obtain ⟨j, listed⟩ := List.getElem?_of_mem member
        unfold lastWrite at found
        rw [List.getLast?_eq_none_iff, List.filter_eq_nil_iff] at found
        exact found (link, j) (List.mk_mem_zipIdx_iff_getElem?.mpr listed)
          (decide_eq_true (joins.writes nodup))
      exact ⟨iff_of_true entry noJoins, fun joined => absurd joined noJoins⟩
  | some written =>
      obtain ⟨link, j⟩ := written
      rw [found] at entry
      obtain ⟨listed, writes, -⟩ := lastWrite_zipIdx.mp found
      have isLast := (isLastWrite_iff listed writes).mpr found
      have member := List.mem_of_getElem? listed
      have joins : Joins routers x y link :=
        writes.joins yInside (sources link member) (last.known j link listed isLast)
      have written : matrix x y ≠ noLink := by
        intro same
        have link := entry.1
        rw [same] at link
        cases link
      refine ⟨iff_of_false written fun none => none ⟨link, member, joins⟩, fun _ => ?_⟩
      refine ⟨j, link, listed, joins, fun other memberOther joinsOther => ?_, entry.2.2.1,
        entry.2.1⟩
      refine last.least j link listed isLast other memberOther joinsOther.1 ?_ ?_
      · exact Option.some.inj (joinsOther.2.1.symm.trans joins.2.1)
      · exact Option.some.inj (joinsOther.2.2.symm.trans joins.2.2)

end Area

end Pma.Lidb
