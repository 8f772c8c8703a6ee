import Pma.Icm

namespace Pma

/-!
# An update of a missing link

`lsdb_link_state_find` writes the pointer that its caller passes only when it
finds the key.  `cr_lsdb_link_state_update` passes a local variable that nothing
has written, sends its packet inside of the test that the key was found, and
copies the link state behind it.  What the copy does for a missing key depends on
what the variable holds by chance.
-/

/-- What a `struct link_state *` on the stack holds. -/
inductive ResultPointer where
  /-- The address of a node of the database. -/
  | node (entry : Nat)
  /-- What was on the stack. -/
  | stray
  deriving Repr, DecidableEq

/--
What a copy to the place of a stray pointer makes of the database: it is as it was
if the place is no part of it.  Nothing where no memory can be written.
-/
abbrev StrayCopy := CrLsdbLinkState → LsdbData → Option LsdbData

/-- A call of `cr_lsdb_link_state_update` that has returned. -/
structure UpdateReturn where
  r : Int32
  packets : List (LsdbAction × LsdbMsg)
  db : LsdbData

namespace LsdbUpdate

/-- `NO_ERR`. -/
def noErr : Int32 := 0

/-- `NOT_FOUND_ERR`. -/
def notFoundErr : Int32 := -2

/-- `lsdb_router_find`, with the variable for the node. -/
def lsdbRouterFind (rtId : UInt32) (db : LsdbData) : Int32 × Option RouterNode :=
  match db.routers.find? fun entry => entry.id = rtId with
  | some entry => (noErr, some entry)
  | none => (notFoundErr, none)

/-- `lsdb_link_state_find`, with the variable for the link state. -/
def lsdbLinkStateFind (key : LinkStateKey) (result : ResultPointer) (db : LsdbData) :
    Int32 × ResultPointer :=
  match lsdbRouterFind key.rtId db with
  | (_, some node) =>
      match node.linksState.find? fun entry =>
          (db.heap entry).key.ifId = key.ifId ∧ (db.heap entry).key.nRtId = key.nRtId ∧
            (db.heap entry).key.nIfId = key.nIfId with
      | some entry => (noErr, .node entry)
      | none => (notFoundErr, result)
  | (r, none) => (r, result)

/-- `memcpy(&(result->data), link, ..)`. -/
def memcpy (stray : StrayCopy) (result : ResultPointer) (link : CrLsdbLinkState)
    (db : LsdbData) : Except Fault LsdbData :=
  match result with
  | .node entry => .ok (db.writeLinkState entry link)
  | .stray =>
      match stray link db with
      | some data => .ok data
      | none => .error .wildPointer

/-- `cr_lsdb_link_state_update`, in an area with this id. -/
def crLsdbLinkStateUpdate (stray : StrayCopy) (area : UInt32) (link : CrLsdbLinkState)
    (db : LsdbData) : Except Fault UpdateReturn := do
  assertAt .lsdbLinkStateUpdateZero (link.key.rtId ≠ 0)
  let (r, result) := lsdbLinkStateFind link.key .stray db
  let packets := if r = noErr then [(.updateLsa, lsdbMsgCreate area link)] else []
  let data ← memcpy stray result link db
  return ⟨r, packets, data⟩

/-- The stray pointer is the address of a node of the database. -/
def strayNode (entry : Nat) : StrayCopy :=
  fun link db => some (db.writeLinkState entry link)

/-! ## The search -/

section

variable {key : LinkStateKey} {result : ResultPointer} {db : LsdbData}

/-- The search with its variable, by the search for an address. -/
theorem lsdbLinkStateFind_eq :
    lsdbLinkStateFind key result db =
      match db.lsdbLinkStateFind key with
      | some entry => (noErr, .node entry)
      | none => (notFoundErr, result) := by
  unfold lsdbLinkStateFind lsdbRouterFind LsdbData.lsdbLinkStateFind LsdbData.lsdbRouterFind
  cases db.routers.find? fun entry => entry.id = key.rtId with
  | none =>
      rfl
  | some node =>
      rfl

end

section

variable {stray : StrayCopy} {area : UInt32} {link : CrLsdbLinkState} {db : Lsdb}

/-- A call whose key is in the database is the update that the daemon's runs are made of. -/
theorem crLsdbLinkStateUpdate_present
    {updated : Lsdb}
    (returned : db.crLsdbLinkStateUpdate link = .ok updated) :
    crLsdbLinkStateUpdate stray area link db.data =
      .ok ⟨noErr, [(.updateLsa, lsdbMsgCreate area link)], updated.data⟩ := by
  unfold Lsdb.crLsdbLinkStateUpdate at returned
  split at returned
  · next startNonzero =>
      split at returned
      · next entry found =>
          cases returned
          simp [crLsdbLinkStateUpdate, assertAt, startNonzero, lsdbLinkStateFind_eq, found, memcpy]
          rfl
      · cases returned
  · cases returned

/-- Without its key, a call does what the copy through the stray pointer does. -/
theorem crLsdbLinkStateUpdate_absent
    (startNonzero : link.key.rtId ≠ 0)
    (absent : db.crLsdbLinkStateFind link.key = none) :
    crLsdbLinkStateUpdate stray area link db.data =
      match stray link db.data with
      | some data => .ok ⟨notFoundErr, [], data⟩
      | none => .error .wildPointer := by
  have entryAbsent : db.data.lsdbLinkStateFind link.key = none := by
    simpa [Lsdb.crLsdbLinkStateFind, startNonzero] using absent
  simp [crLsdbLinkStateUpdate, assertAt, startNonzero, lsdbLinkStateFind_eq, entryAbsent, memcpy]
  cases stray link db.data with
  | none =>
      rfl
  | some data =>
      rfl

/-- No node holds a link whose key is missing, so a copy to a node shows. -/
theorem writeLinkState_ne
    (absent : db.crLsdbLinkStateFind link.key = none)
    {entry : Nat}
    (allocated : entry < db.data.brk) :
    db.data.writeLinkState entry link ≠ db.data := by
  intro same
  have held : db.data.heap entry = link := by
    have kept := congrArg (fun data => data.heap entry) same
    simpa [LsdbData.writeLinkState] using kept.symm
  have found := Lsdb.crLsdbLinkStateFind_eq_some.mpr ⟨entry, allocated, held, rfl⟩
  rw [absent] at found
  cases found

/--
An update of a missing link returns `NOT_FOUND_ERR`, sends nothing and leaves the
database as it is if and only if its assertion holds and the stray pointer is the
address of writable memory that is no part of the database.
-/
theorem crLsdbLinkStateUpdate_unchanged_iff
    (db : Lsdb)
    (link : CrLsdbLinkState)
    (absent : db.crLsdbLinkStateFind link.key = none)
    (stray : StrayCopy)
    (area : UInt32) :
    crLsdbLinkStateUpdate stray area link db.data = .ok ⟨notFoundErr, [], db.data⟩ ↔
      link.key.rtId ≠ 0 ∧ stray link db.data = some db.data := by
  by_cases startNonzero : link.key.rtId ≠ 0
  · rw [crLsdbLinkStateUpdate_absent startNonzero absent]
    cases stray link db.data with
    | none =>
        simp
    | some data =>
        simp [startNonzero]
  · have aborts :
        crLsdbLinkStateUpdate stray area link db.data =
          .error (.assertFailed .lsdbLinkStateUpdateZero) := by
      simp only [crLsdbLinkStateUpdate, assertAt, startNonzero, decide_false]
      rfl
    rw [aborts]
    simp [startNonzero]

end

/-- A link from router 1 to router `n_rt_id`. -/
def linkTo (nRtId : UInt32) : CrLsdbLinkState where
  key := ⟨1, nRtId, nRtId, 1⟩
  addr := 0
  metric := 10
  state := 3
  seq := 1
  age := ⟨0, 0⟩

/-- A database with one link. -/
def oneLink : LsdbData :=
  LsdbData.empty.lsdbLinkStateAdd (linkTo 2)

theorem oneLink_wellFormed : oneLink.WellFormed :=
  LsdbData.lsdbLinkStateAdd_wellFormed LsdbData.empty_wellFormed (by decide) rfl

/-- A second link of the router, which is not in the database, takes the place of the first. -/
theorem crLsdbLinkStateUpdate_overwrites :
    (⟨oneLink, oneLink_wellFormed⟩ : Lsdb).crLsdbLinkStateFind (linkTo 3).key = none ∧
      crLsdbLinkStateUpdate (strayNode 0) 1 (linkTo 3) oneLink ≠
        .ok ⟨notFoundErr, [], oneLink⟩ ∧
      ∃ data, crLsdbLinkStateUpdate (strayNode 0) 1 (linkTo 3) oneLink =
          .ok ⟨notFoundErr, [], data⟩ ∧
        data.lsdbLinkStateFind (linkTo 2).key = none ∧
        data.lsdbLinkStateFind (linkTo 3).key = some 0 := by
  have absent :
      (⟨oneLink, oneLink_wellFormed⟩ : Lsdb).crLsdbLinkStateFind (linkTo 3).key = none := rfl
  have run :
      crLsdbLinkStateUpdate (strayNode 0) 1 (linkTo 3) oneLink =
        .ok ⟨notFoundErr, [], oneLink.writeLinkState 0 (linkTo 3)⟩ := rfl
  have differs : oneLink.writeLinkState 0 (linkTo 3) ≠ oneLink :=
    writeLinkState_ne absent (by decide)
  refine ⟨absent, ?_, _, run, rfl, rfl⟩
  rw [run]
  intro same
  injection same with same
  injection same with _ _ same
  exact differs same

/-- The stray pointer of a call may point outside of the database. -/
theorem crLsdbLinkStateUpdate_unchanged_outside :
    crLsdbLinkStateUpdate (fun _ data => some data) 1 (linkTo 3) oneLink =
      .ok ⟨notFoundErr, [], oneLink⟩ :=
  (crLsdbLinkStateUpdate_unchanged_iff ⟨oneLink, oneLink_wellFormed⟩ (linkTo 3) rfl
    (fun _ data => some data) 1).mpr ⟨by decide, rfl⟩

end LsdbUpdate

end Pma
