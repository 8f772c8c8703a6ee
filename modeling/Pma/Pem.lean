import Pma.Fah
import Pma.PolicyMsg

namespace Pma.Pem

open Bytes StructLayout

/-!
# Interface identifiers as indices

PEM keeps the index of each interface in `ifaceList`, which it fills from the
table of interfaces of the router and reads for every policy message.  DBM keeps
a time for each interface in `dead_timer`.  Both arrays have 100 elements, and an
interface identifier is the index into them.
-/

/-- `MAX_INTERFACE`. -/
def maxInterface : Nat := 100

/-- `TIMEPART`. -/
def timepart : Nat := 1000000

/-- An access outside of `ifaceList`. -/
inductive PemFault where
  | ifaceListOverrun
  deriving Repr, DecidableEq

/-- The array `ifaceList`. -/
abbrev IfaceList := Vector Int32 maxInterface

/-- The element of `ifaceList` that an index reaches. -/
def ifaceListPlace (index : Int32) : Option (Fin maxInterface) :=
  if inside : 0 ≤ index.toInt ∧ index.toInt < maxInterface then
    some ⟨index.toInt.toNat, by omega⟩
  else
    none

/-- The numbers of one entry of the interface table: `ifdex` and `ifDescrDex`. -/
structure IfEntry where
  ifdex : Int32
  ifDescrDex : Int32
  deriving Repr, DecidableEq

/-- One pass of the loop of `init_interface_list`. -/
def initInterface (ifaceList : IfaceList) (entry : IfEntry) : Except PemFault IfaceList :=
  if entry.ifdex ≥ 0 then
    match ifaceListPlace entry.ifdex with
    | some place => .ok (ifaceList.set place entry.ifDescrDex place.isLt)
    | none => .error .ifaceListOverrun
  else
    .ok ifaceList

/-- `init_interface_list`; `ifList` is what the router reports. -/
def initInterfaceList (ifList : List IfEntry) : Except PemFault IfaceList :=
  ifList.foldlM initInterface (.replicate maxInterface (-1))

/-- What `policy_handle` sets at the router. -/
structure IntervalSet where
  interfaceId : String
  hello : String
  dead : String
  deriving Repr, DecidableEq

/-- An interval in seconds, which is kept in a `short`. -/
def seconds (interval : UInt64) : Int16 :=
  let short := Int16.ofNat (interval.toNat / timepart)
  if short = 0 then 1 else short

/-- `policy_handle` for a packet with this length in its header. -/
def policyHandle
    (ifaceList : IfaceList)
    (pktLen : UInt16)
    (mem : Nat → UInt8) : Except PemFault (Option IntervalSet) :=
  if pktLen = 0 then
    .ok none
  else if readStruct mem 0 policyMsgHeader = [3, 0] then
    let msg := readPolicyMsg mem
    if msg.ifId ≤ 0 then
      .ok none
    else
      match ifaceListPlace msg.ifId with
      | none => .error .ifaceListOverrun
      | some place =>
          let interface := ifaceList.get place
          if interface = -1 then
            .ok none
          else
            .ok (some
              { interfaceId := toString interface.toInt
                hello := toString (seconds msg.helloInterval).toInt
                dead := toString (seconds msg.deadInterval).toInt ++ "\n" })
  else
    .ok none

/-! ## The accesses -/

/-- A number of 32 bits is an index into an array of 100 elements. -/
def IsIndex (number : UInt32) : Prop :=
  0 ≤ number.toInt32.toInt ∧ number.toInt32.toInt < 100

/-- No access for an interface is outside of the arrays. -/
structure StaysInside (ifid : UInt32) : Prop where
  fahSetDefaultTimer :
    ∀ fah link,
      link.ifid = ifid →
      FahState.fahSetDefaultTimer fah link ≠ .error .deadTimerOverrun
  recomputeDeadTimer :
    ∀ deadTimer deadValue timenow,
      Pma.recomputeDeadTimer deadTimer ifid.toInt32 deadValue timenow ≠
        .error .deadTimerOverrun
  initInterface :
    ∀ ifaceList entry,
      entry.ifdex = ifid.toInt32 →
      Pem.initInterface ifaceList entry ≠ .error .ifaceListOverrun
  policyHandle :
    ∀ ifaceList pktLen mem,
      (readPolicyMsg mem).ifId = ifid.toInt32 →
      Pem.policyHandle ifaceList pktLen mem ≠ .error .ifaceListOverrun

section

variable {ifid : Int32}

theorem ifaceListPlace_eq_none :
    ifaceListPlace ifid = none ↔ ifid.toInt < 0 ∨ 100 ≤ ifid.toInt := by
  unfold ifaceListPlace maxInterface
  split
  · next inside =>
      exact iff_of_false (fun none => nomatch none) (by omega)
  · next outside =>
      exact iff_of_true rfl (by omega)

theorem ifaceListPlace_inside
    {place : Fin maxInterface}
    (isPlace : ifaceListPlace ifid = some place) :
    0 ≤ ifid.toInt ∧ ifid.toInt < 100 := by
  by_contra outside
  rw [ifaceListPlace_eq_none.mpr (by omega)] at isPlace
  cases isPlace

/-- `fah_set_default_timer` makes no check of the identifier. -/
theorem fahSetDefaultTimer_error
    {fah : FahState}
    {link : DbmLink} :
    fah.fahSetDefaultTimer link = .error .deadTimerOverrun ↔
      (fah.areas.bind (FahArea.getAreaByAreaid · link.areaid)).isSome = true ∧
        ¬IsIndex link.ifid := by
  unfold FahState.fahSetDefaultTimer IsIndex
  cases fah.areas.bind (FahArea.getAreaByAreaid · link.areaid) with
  | none =>
      exact iff_of_false (fun fails => nomatch fails) fun ⟨known, _⟩ => nomatch known
  | some az =>
      dsimp only
      cases isPlace : deadTimerPlace link.ifid.toInt32 with
      | none =>
          have outside := deadTimerPlace_eq_none.mp isPlace
          exact iff_of_true rfl ⟨rfl, by omega⟩
      | some found =>
          have inside := deadTimerPlace_inside isPlace
          exact iff_of_false (fun fails => nomatch fails) fun ⟨_, outside⟩ => outside inside

/-- `recompute_dead_timer` makes one that is off by one, and not for negative numbers. -/
theorem recomputeDeadTimer_error_iff
    {deadTimer : DeadTimer}
    {deadValue : UInt32}
    {timenow : Timeval} :
    recomputeDeadTimer deadTimer ifid deadValue timenow = .error .deadTimerOverrun ↔
      ifid.toInt < 0 ∨ ifid.toInt = 100 := by
  have ends : ifid.toInt < 0 ∨ ifid.toInt = 100 ↔ ¬TimerEnds ifid := by
    unfold TimerEnds
    omega
  rw [ends]
  refine ⟨fun fails inside => ?_, recomputeDeadTimer_error⟩
  obtain ⟨value, after, ended⟩ := recomputeDeadTimer_ok inside
  rw [ended] at fails
  cases fails

/-- `init_interface_list` checks for negative numbers only. -/
theorem initInterface_error
    {ifaceList : IfaceList}
    {entry : IfEntry} :
    initInterface ifaceList entry = .error .ifaceListOverrun ↔ 100 ≤ entry.ifdex.toInt := by
  have natural : entry.ifdex ≥ 0 ↔ 0 ≤ entry.ifdex.toInt := Int32.le_iff_toInt_le
  unfold initInterface
  split
  · next low =>
      have low := natural.mp low
      cases isPlace : ifaceListPlace entry.ifdex with
      | none =>
          have outside := ifaceListPlace_eq_none.mp isPlace
          exact iff_of_true rfl (by omega)
      | some found =>
          have inside := ifaceListPlace_inside isPlace
          exact iff_of_false (fun fails => nomatch fails) (by omega)
  · next negative =>
      exact iff_of_false (fun fails => nomatch fails) (by have := mt natural.mpr negative; omega)

/-- So one large number in the table of interfaces is enough. -/
theorem initInterfaceList_error
    {ifList : List IfEntry} :
    initInterfaceList ifList = .error .ifaceListOverrun ↔
      ∃ entry ∈ ifList, 100 ≤ entry.ifdex.toInt := by
  unfold initInterfaceList
  generalize Vector.replicate maxInterface (-1 : Int32) = ifaceList
  induction ifList generalizing ifaceList with
  | nil =>
      exact iff_of_false (fun fails => nomatch fails)
        fun ⟨_, member, _⟩ => absurd member List.not_mem_nil
  | cons entry rest inductionHypothesis =>
      have here : initInterface ifaceList entry = .error .ifaceListOverrun ↔ _ :=
        initInterface_error
      rw [List.foldlM_cons, List.exists_mem_cons_iff, ← here]
      cases first : initInterface ifaceList entry with
      | error fault =>
          exact iff_of_true rfl (.inl rfl)
      | ok next =>
          refine (inductionHypothesis next).trans ⟨.inr, ?_⟩
          rintro (fails | later)
          · cases fails
          · exact later

/-- `policy_handle` does not check for large numbers, either. -/
theorem policyHandle_error
    {ifaceList : IfaceList}
    {pktLen : UInt16}
    {mem : Nat → UInt8} :
    policyHandle ifaceList pktLen mem = .error .ifaceListOverrun ↔
      pktLen ≠ 0 ∧ readStruct mem 0 policyMsgHeader = [3, 0] ∧
        100 ≤ (readPolicyMsg mem).ifId.toInt := by
  have natural : (readPolicyMsg mem).ifId ≤ 0 ↔ (readPolicyMsg mem).ifId.toInt ≤ 0 :=
    Int32.le_iff_toInt_le
  unfold policyHandle
  by_cases empty : pktLen = 0
  · rw [if_pos empty]
    exact iff_of_false (fun fails => nomatch fails) fun ⟨full, _⟩ => full empty
  rw [if_neg empty]
  by_cases header : readStruct mem 0 policyMsgHeader = [3, 0]
  swap
  · rw [if_neg header]
    exact iff_of_false (fun fails => nomatch fails) fun ⟨_, right, _⟩ => header right
  rw [if_pos header]
  dsimp only
  by_cases low : (readPolicyMsg mem).ifId ≤ 0
  · rw [if_pos low]
    have low := natural.mp low
    exact iff_of_false (fun fails => nomatch fails) fun ⟨_, _, large⟩ => by omega
  · rw [if_neg low]
    have positive := mt natural.mpr low
    cases isPlace : ifaceListPlace (readPolicyMsg mem).ifId with
    | none =>
        have outside := ifaceListPlace_eq_none.mp isPlace
        exact iff_of_true rfl ⟨empty, header, by omega⟩
    | some found =>
        have inside := ifaceListPlace_inside isPlace
        refine iff_of_false (fun fails => ?_) fun ⟨_, _, large⟩ => by omega
        dsimp only at fails
        split at fails
        · cases fails
        · cases fails

end

/-- All accesses are inside for the identifiers that are indices, and for no others. -/
theorem staysInside_iff
    (ifid : UInt32) :
    StaysInside ifid ↔ IsIndex ifid := by
  constructor
  · intro inside
    have dead := inside.recomputeDeadTimer (.replicate _ ⟨0, 0⟩) 0 ⟨0, 0⟩
    have iface := inside.initInterface (.replicate _ 0) ⟨ifid.toInt32, 0⟩ rfl
    rw [Ne, recomputeDeadTimer_error_iff] at dead
    rw [Ne, initInterface_error] at iface
    dsimp only at iface
    exact ⟨by omega, by omega⟩
  · rintro ⟨low, high⟩
    constructor
    · rintro fah link rfl fails
      exact (fahSetDefaultTimer_error.mp fails).2 ⟨low, high⟩
    · intro deadTimer deadValue timenow fails
      have outside := recomputeDeadTimer_error_iff.mp fails
      omega
    · intro ifaceList entry same fails
      have outside := initInterface_error.mp fails
      rw [same] at outside
      omega
    · intro ifaceList pktLen mem same fails
      obtain ⟨-, -, outside⟩ := policyHandle_error.mp fails
      rw [same] at outside
      omega

/-- The first identifier that is too large. -/
theorem hundred_not_staysInside :
    ¬StaysInside 100 := by
  intro inside
  exact inside.recomputeDeadTimer (.replicate _ ⟨0, 0⟩) 0 ⟨0, 0⟩ rfl

end Pma.Pem
