import Mathlib.Data.List.Nodup
import Pma.RouterList

namespace Pma.RouterList

/-!
# What the neighbour list holds

`process_neighbor_list` reads the addresses of an element `PMA` into two variables
that it declares outside of its loops, and hands both of them to
`insert_router_list`, which writes only one of them to a router that is known.
The list is compared here with what the elements say: for each device the
addresses of the last element that carries them.
-/

/-! ## What the elements say -/

namespace PmaChild

/-- The router id that a child gives. -/
def rid : PmaChild → Option UInt32
  | .routerId (.addr value) => some value
  | _ => none

/-- The control address that a child gives. -/
def ipAddr : PmaChild → Option UInt32
  | .agentControlIp (.addr value) => some value
  | _ => none

/-- A child that `inet_pton` can read. -/
def HasText : PmaChild → Prop
  | .routerId text => text ≠ .null
  | .agentControlIp text => text ≠ .null
  | .other => True

instance (child : PmaChild) : Decidable child.HasText :=
  match child with
  | .routerId text => inferInstanceAs (Decidable (text ≠ .null))
  | .agentControlIp text => inferInstanceAs (Decidable (text ≠ .null))
  | .other => .isTrue trivial

end PmaChild

namespace PmaElement

/-- The router id that an element carries, the last one if it carries several. -/
def rid (pma : PmaElement) : Option UInt32 :=
  (pma.children.filterMap PmaChild.rid).getLast?

/-- The control address that an element carries. -/
def ipAddr (pma : PmaElement) : Option UInt32 :=
  (pma.children.filterMap PmaChild.ipAddr).getLast?

end PmaElement

/-- What the last element of a device that carries something carries. -/
def latest (carried : PmaElement → Option UInt32) (seen : List PmaElement) (id : UInt32) :
    Option UInt32 :=
  ((seen.filter (·.id = some id)).filterMap carried).getLast?

/-- The list has one entry for each device seen, with the latest addresses of this device. -/
structure Right (routers : List Router) (seen : List PmaElement) : Prop where
  nodup : (routers.map Router.devid).Nodup
  devices : ∀ id, id ∈ routers.map Router.devid ↔ ∃ pma ∈ seen, pma.id = some id
  addresses :
    ∀ router ∈ routers,
      latest PmaElement.rid seen router.devid = some router.rid ∧
        latest PmaElement.ipAddr seen router.devid = some router.ipAddr

/--
An element has an id and texts, and carries a control address; it carries the
router id if it is the first of its device, and no other one later.
-/
structure Complete (seen : List PmaElement) (pma : PmaElement) : Prop where
  id : pma.id ≠ none
  texts : ∀ child ∈ pma.children, child.HasText
  ipAddr : pma.ipAddr ≠ none
  rid :
    ∀ id, pma.id = some id →
      match latest PmaElement.rid seen id with
      | none => pma.rid ≠ none
      | some known => pma.rid = none ∨ pma.rid = some known

/-- Each of some elements is complete behind those before it. -/
def AllComplete (seen : List PmaElement) : List PmaElement → Prop
  | [] => True
  | pma :: rest => Complete seen pma ∧ AllComplete (seen ++ [pma]) rest

/-- A document: its elements, if the text is XML, and what the stack held. -/
abbrev Document := Option (List PmaElement) × Addrs

/-- The elements of some documents, in order. -/
def allElements (documents : List Document) : List PmaElement :=
  documents.flatMap fun document => document.1.getD []

/-- BM gets one document after the other. -/
def processDocuments (state : State) (documents : List Document) : Except Fault State :=
  documents.foldlM (fun state document => processNeighborList state document.1 document.2) state

/-! ## Reading an element -/

/-- A text that is there is read, or leaves the variable alone. -/
theorem readChild_ok
    (addrs : Addrs)
    {child : PmaChild}
    (text : child.HasText) :
    readChild addrs child =
      .ok ⟨child.rid.getD addrs.routerAddr, child.ipAddr.getD addrs.ctlAddr⟩ := by
  cases child with
  | other =>
      rfl
  | routerId addr =>
      cases addr with
      | null =>
          exact absurd rfl text
      | malformed =>
          rfl
      | addr value =>
          rfl
  | agentControlIp addr =>
      cases addr with
      | null =>
          exact absurd rfl text
      | malformed =>
          rfl
      | addr value =>
          rfl

/-- The last value that is written, or what was there before. -/
theorem getLast?_filterMap_cons
    {Item Value : Type*}
    (write : Item → Option Value)
    (item : Item)
    (rest : List Item)
    (before : Value) :
    ((rest.filterMap write).getLast?).getD ((write item).getD before) =
      (((item :: rest).filterMap write).getLast?).getD before := by
  cases wrote : write item with
  | none =>
      simp [wrote]
  | some value =>
      simp [wrote, List.getLast?_cons]

/-- The two variables after the children of an element. -/
theorem foldlM_readChild
    (addrs : Addrs)
    {children : List PmaChild}
    (texts : ∀ child ∈ children, child.HasText) :
    children.foldlM readChild addrs =
      .ok ⟨(children.filterMap PmaChild.rid).getLast?.getD addrs.routerAddr,
        (children.filterMap PmaChild.ipAddr).getLast?.getD addrs.ctlAddr⟩ := by
  induction children generalizing addrs with
  | nil =>
      rfl
  | cons child rest inductionHypothesis =>
      rw [List.foldlM_cons, readChild_ok addrs (texts child List.mem_cons_self)]
      have later := inductionHypothesis
        ⟨child.rid.getD addrs.routerAddr, child.ipAddr.getD addrs.ctlAddr⟩
        fun later member => texts later (List.mem_cons_of_mem _ member)
      simp only [getLast?_filterMap_cons] at later
      exact later

/-! ## Inserting a router -/

/-- What is latest changes for the device of the next element, if it carries something. -/
theorem latest_snoc
    (carried : PmaElement → Option UInt32)
    (seen : List PmaElement)
    (pma : PmaElement)
    (id : UInt32) :
    latest carried (seen ++ [pma]) id =
      if pma.id = some id then
        (carried pma).or (latest carried seen id)
      else
        latest carried seen id := by
  unfold latest
  by_cases same : pma.id = some id
  · cases carries : carried pma with
    | none =>
        simp [List.filter_append, same, carries]
    | some value =>
        simp [List.filter_append, same, carries]
  · simp [List.filter_append, same]

theorem latest_eq_none
    {carried : PmaElement → Option UInt32}
    {seen : List PmaElement}
    {id : UInt32}
    (unseen : ∀ pma ∈ seen, pma.id ≠ some id) :
    latest carried seen id = none := by
  have empty : seen.filter (·.id = some id) = [] := by
    simpa using unseen
  simp [latest, empty]

section

variable {routers : List Router} {seen : List PmaElement} {pma : PmaElement}
  {id : UInt32}

/-- The first router of a device is the only one. -/
theorem updateAddr_eq_map
    {ctlAddr : UInt32}
    (nodup : (routers.map Router.devid).Nodup) :
    updateAddr id ctlAddr routers =
      routers.map fun router =>
        if router.devid = id then { router with ipAddr := ctlAddr } else router := by
  rw [updateAddr_eq_updateFirst]
  exact FirstMatch.updateFirst_eq_map id nodup

theorem findRouterById_eq_none :
    findRouterById routers id = none ↔ id ∉ routers.map Router.devid := by
  simp [findRouterById]

/-- The ids after an insertion. -/
theorem devid_insertRouterList
    (router : Router) :
    (insertRouterList routers router).map Router.devid =
      if router.devid ∈ routers.map Router.devid then
        routers.map Router.devid
      else
        router.devid :: routers.map Router.devid := by
  unfold insertRouterList
  cases found : findRouterById routers router.devid with
  | none =>
      rw [if_neg (findRouterById_eq_none.mp found)]
      rfl
  | some known =>
      have listed : router.devid ∈ routers.map Router.devid := by
        by_contra unlisted
        rw [findRouterById_eq_none.mpr unlisted] at found
        cases found
      rw [if_pos listed]
      exact devid_updateAddr router.ipAddr

/-- An inserted router has an entry, and no other one loses its own. -/
theorem mem_devid_foldl_insertRouterList
    {pushed : List Router} :
    id ∈ (pushed.foldl insertRouterList routers).map Router.devid ↔
      id ∈ routers.map Router.devid ∨ id ∈ pushed.map Router.devid := by
  induction pushed generalizing routers with
  | nil =>
      simp
  | cons router rest inductionHypothesis =>
      rw [List.foldl_cons, inductionHypothesis, devid_insertRouterList, List.map_cons,
        List.mem_cons]
      split
      · next listed =>
          constructor
          · rintro (old | later)
            · exact .inl old
            · exact .inr (.inr later)
          · rintro (old | rfl | later)
            · exact .inl old
            · exact .inl listed
            · exact .inr later
      · rw [List.mem_cons, or_comm (a := id = router.devid), or_assoc]

/-- The step lemma: a complete element keeps the list right, whatever the variables held. -/
theorem Right.insert
    (right : Right routers seen)
    (complete : Complete seen pma)
    (isId : pma.id = some id)
    (addrs : Addrs) :
    Right
      (insertRouterList routers
        ⟨id, pma.rid.getD addrs.routerAddr, pma.ipAddr.getD addrs.ctlAddr⟩)
      (seen ++ [pma]) := by
  obtain ⟨ipAddr, isIp⟩ := Option.ne_none_iff_exists'.mp complete.ipAddr
  have rid := complete.rid id isId
  have ids := @devid_insertRouterList routers
    ⟨id, pma.rid.getD addrs.routerAddr, pma.ipAddr.getD addrs.ctlAddr⟩
  have member_snoc
      (other : UInt32) :
      (∃ element ∈ seen ++ [pma], element.id = some other) ↔
        other ∈ routers.map Router.devid ∨ other = id := by
    rw [right.devices]
    simp [or_and_right, exists_or, isId, eq_comm]
  have untouched
      {router : Router}
      (listed : router ∈ routers)
      (differs : router.devid ≠ id) :
      latest PmaElement.rid (seen ++ [pma]) router.devid = some router.rid ∧
        latest PmaElement.ipAddr (seen ++ [pma]) router.devid = some router.ipAddr := by
    have other : pma.id ≠ some router.devid := by
      rw [isId]
      simpa using differs.symm
    rw [latest_snoc, latest_snoc, if_neg other, if_neg other]
    exact right.addresses router listed
  cases found : findRouterById routers id with
  | none =>
      have unlisted := findRouterById_eq_none.mp found
      have unseen : latest PmaElement.rid seen id = none := by
        apply latest_eq_none
        intro earlier member same
        exact unlisted ((right.devices id).mpr ⟨earlier, member, same⟩)
      rw [unseen] at rid
      obtain ⟨given, isRid⟩ := Option.ne_none_iff_exists'.mp rid
      rw [if_neg unlisted] at ids
      refine ⟨?_, ?_, ?_⟩
      · rw [ids]
        exact List.nodup_cons.mpr ⟨unlisted, right.nodup⟩
      · intro other
        rw [ids, member_snoc]
        simp [or_comm]
      · intro router member
        simp only [insertRouterList, found] at member
        rcases List.mem_cons.mp member with rfl | old
        · simp [latest_snoc, isId, isRid, isIp]
        · apply untouched old
          rintro same
          exact unlisted (List.mem_map.mpr ⟨router, old, same⟩)
  | some known =>
      have isKnown : known ∈ routers := List.mem_of_find?_eq_some found
      have sameId : known.devid = id := by simpa using List.find?_some found
      have listed : id ∈ routers.map Router.devid := List.mem_map.mpr ⟨known, isKnown, sameId⟩
      rw [if_pos listed] at ids
      have before := (right.addresses known isKnown).1
      rw [sameId] at before
      rw [before] at rid
      refine ⟨?_, ?_, ?_⟩
      · rw [ids]
        exact right.nodup
      · intro other
        rw [ids, member_snoc]
        constructor
        · exact .inl
        · rintro (old | rfl)
          · exact old
          · exact listed
      · intro router member
        simp only [insertRouterList, found] at member
        rw [updateAddr_eq_map right.nodup] at member
        obtain ⟨old, oldListed, rfl⟩ := List.mem_map.mp member
        by_cases same : old.devid = id
        · have isOld : old = known :=
            List.inj_on_of_nodup_map right.nodup oldListed isKnown (same.trans sameId.symm)
          subst isOld
          simp only [same, if_true, latest_snoc, isId, isIp, before]
          rcases rid with absent | again
          · simp [absent]
          · simp [again]
        · rw [if_neg same]
          exact untouched oldListed same

end

/-! ## Documents -/

theorem allComplete_append
    {seen first second : List PmaElement} :
    AllComplete seen (first ++ second) ↔
      AllComplete seen first ∧ AllComplete (seen ++ first) second := by
  induction first generalizing seen with
  | nil =>
      simp [AllComplete]
  | cons pma rest inductionHypothesis =>
      simp [AllComplete, inductionHypothesis, and_assoc]

/-- The loop over the elements of a document. -/
theorem readPmas_right
    {routers : List Router}
    {seen pmas : List PmaElement}
    (right : Right routers seen)
    (complete : AllComplete seen pmas)
    (addrs : Addrs) :
    ∃ pushed, readPmas addrs pmas = .ok pushed ∧
      Right (pushed.foldl insertRouterList routers) (seen ++ pmas) := by
  induction pmas generalizing routers seen addrs with
  | nil =>
      exact ⟨[], rfl, by simpa using right⟩
  | cons pma rest inductionHypothesis =>
      obtain ⟨first, later⟩ := complete
      obtain ⟨id, isId⟩ := Option.ne_none_iff_exists'.mp first.id
      have read := foldlM_readChild addrs first.texts
      have inserted := right.insert first isId addrs
      obtain ⟨pushed, readRest, rightRest⟩ :=
        inductionHypothesis inserted later
          ⟨pma.rid.getD addrs.routerAddr, pma.ipAddr.getD addrs.ctlAddr⟩
      refine ⟨⟨id, pma.rid.getD addrs.routerAddr, pma.ipAddr.getD addrs.ctlAddr⟩ :: pushed,
        ?_, ?_⟩
      · rw [readPmas, isId]
        exact Loops.bind_eq_ok.mpr ⟨_, read, Loops.bind_eq_ok.mpr ⟨_, readRest, rfl⟩⟩
      · simpa using rightRest

/-- The step lemma: a document whose elements are complete keeps the list right. -/
theorem processNeighborList_right
    {state : State}
    {seen : List PmaElement}
    (right : Right state.routers seen)
    (xml : Option (List PmaElement))
    (stack : Addrs)
    (complete : AllComplete seen (xml.getD [])) :
    ∃ after, processNeighborList state xml stack = .ok after ∧
      Right after.routers (seen ++ xml.getD []) := by
  cases xml with
  | none =>
      exact ⟨_, rfl, by simpa [State.routers] using right⟩
  | some pmas =>
      obtain ⟨pushed, read, inserted⟩ := readPmas_right right complete stack
      exact ⟨_, processNeighborList_some.mpr ⟨pushed, read, rfl⟩, inserted⟩

theorem right_nil : Right [] [] where
  nodup := List.nodup_nil
  devices := by simp
  addresses := by simp

/-- The run lemma: documents one after the other. -/
theorem processDocuments_right
    {state : State}
    {seen : List PmaElement}
    (right : Right state.routers seen)
    {documents : List Document}
    (complete : AllComplete seen (allElements documents)) :
    ∃ after, processDocuments state documents = .ok after ∧
      Right after.routers (seen ++ allElements documents) := by
  induction documents generalizing state seen with
  | nil =>
      exact ⟨state, rfl, by simpa [allElements] using right⟩
  | cons document rest inductionHypothesis =>
      obtain ⟨first, later⟩ := allComplete_append.mp complete
      obtain ⟨middle, processed, rightMiddle⟩ :=
        processNeighborList_right right document.1 document.2 first
      obtain ⟨after, processedRest, rightAfter⟩ := inductionHypothesis rightMiddle later
      refine ⟨after, ?_, ?_⟩
      · unfold processDocuments at processedRest ⊢
        rw [List.foldlM_cons, processed]
        exact processedRest
      · rw [List.append_assoc] at rightAfter
        exact rightAfter

/--
In a sequence of documents each of whose elements is complete behind those before
it, no document stops BM, and the list has one entry for each device seen, with
the addresses of the last element of this device that carries them.
-/
theorem neighborList_latest
    (state : State)
    (empty : state.routers = [])
    (documents : List Document)
    (complete : AllComplete [] (allElements documents)) :
    ∃ after, processDocuments state documents = .ok after ∧
      Right after.routers (allElements documents) := by
  apply processDocuments_right _ complete
  rw [empty]
  exact right_nil

/-- BM before it has sent or received anything. -/
def startState : State :=
  init (fun _ => []) (fun _ => []) []

/-- Two devices, and a new control address for the first one in a second document. -/
def moved : List Document :=
  [(some [⟨some 1, [.routerId (.addr 10), .agentControlIp (.addr 20)]⟩,
      ⟨some 2, [.agentControlIp (.addr 21), .other, .routerId (.addr 11)]⟩], ⟨0, 0⟩),
    (some [⟨some 1, [.agentControlIp (.addr 22)]⟩], ⟨7, 7⟩)]

example : ∃ after, processDocuments startState moved = .ok after ∧
    after.routers = [⟨2, 11, 21⟩, ⟨1, 10, 22⟩] :=
  ⟨_, rfl, rfl⟩

theorem neighborList_latest_moved :
    ∃ after, processDocuments startState moved = .ok after ∧
      Right after.routers (allElements moved) := by
  apply neighborList_latest startState rfl moved
  refine ⟨⟨by decide, by decide, by decide, ?_⟩, ⟨by decide, by decide, by decide, ?_⟩,
    ⟨by decide, by decide, by decide, ?_⟩, trivial⟩
  · rintro id ⟨⟩
    change some (10 : UInt32) ≠ none
    simp
  · rintro id ⟨⟩
    change some (11 : UInt32) ≠ none
    simp
  · rintro id ⟨⟩
    exact .inl rfl

/--
Two devices, the second one without a control address, and then a new router id
for the first one: the second device has the control address of the first one,
and the first one keeps its old router id.
-/
def renamed : List Document :=
  [(some [⟨some 1, [.routerId (.addr 10), .agentControlIp (.addr 20)]⟩,
      ⟨some 2, [.routerId (.addr 30)]⟩], ⟨0, 0⟩),
    (some [⟨some 1, [.routerId (.addr 11), .agentControlIp (.addr 21)]⟩], ⟨0, 0⟩)]

theorem renamed_wrong :
    ∃ after, processDocuments startState renamed = .ok after ∧
      after.routers = [⟨2, 30, 20⟩, ⟨1, 10, 21⟩] ∧
        ¬Right after.routers (allElements renamed) := by
  refine ⟨_, rfl, rfl, ?_⟩
  intro right
  have second := (right.addresses ⟨2, 30, 20⟩ (by decide)).2
  revert second
  decide

end Pma.RouterList
