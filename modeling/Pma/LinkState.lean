import Mathlib.Algebra.Group.Int.Defs
import Mathlib.Algebra.Group.Nat.Defs
import Mathlib.Data.List.Basic

namespace Pma

/-!
# Link state records

The records of `lsdb/lsdb.h` and `lsd/lsd_utils.c`: the four-part key of a
directed link, the advertisement that travels between routers, and the entry a
link state database keeps, with the clock reading at which it was stored.
Fields no modelled function reads (`shadow`, `next`) are left out.
-/

/-- `struct link_state_key`. -/
structure LinkStateKey where
  rtId : UInt32
  ifId : UInt32
  nRtId : UInt32
  nIfId : UInt32
  deriving Repr, DecidableEq

/-- `struct timeval`. -/
structure Timeval where
  tvSec : Int
  tvUsec : Int
  deriving Repr, DecidableEq

/-- `struct link_state_adv`. -/
structure LinkStateAdv where
  key : LinkStateKey
  addr : UInt32
  metric : UInt32
  state : UInt8
  seq : UInt32
  deriving Repr, DecidableEq

/-- `struct cr_lsdb_link_state`. -/
structure CrLsdbLinkState where
  key : LinkStateKey
  addr : UInt32
  metric : UInt32
  state : UInt8
  seq : UInt32
  age : Timeval
  deriving Repr, DecidableEq

/-- A zero-filled advertisement, as `memset` leaves it in a packet buffer. -/
def zeroAdv : LinkStateAdv where
  key := ⟨0, 0, 0, 0⟩
  addr := 0
  metric := 0
  state := 0
  seq := 0

/-- `lsdb_to_lsa_info`. -/
def lsdbToLsaInfo (lsdb : CrLsdbLinkState) : LinkStateAdv where
  key := lsdb.key
  addr := lsdb.addr
  metric := lsdb.metric
  state := lsdb.state
  seq := lsdb.seq

/-- `lsa_to_lsdb_info`; `age` is the reading of `gettimeofday` it stores. -/
def lsaToLsdbInfo (lsa : LinkStateAdv) (age : Timeval) : CrLsdbLinkState where
  key := lsa.key
  addr := lsa.addr
  metric := lsa.metric
  state := lsa.state
  seq := lsa.seq
  age := age

@[simp] theorem lsdbToLsaInfo_key
    (lsdb : CrLsdbLinkState) :
    (lsdbToLsaInfo lsdb).key = lsdb.key := rfl

@[simp] theorem lsdbToLsaInfo_seq
    (lsdb : CrLsdbLinkState) :
    (lsdbToLsaInfo lsdb).seq = lsdb.seq := rfl

@[simp] theorem lsdbToLsaInfo_state
    (lsdb : CrLsdbLinkState) :
    (lsdbToLsaInfo lsdb).state = lsdb.state := rfl

@[simp] theorem lsaToLsdbInfo_key
    (lsa : LinkStateAdv)
    (age : Timeval) :
    (lsaToLsdbInfo lsa age).key = lsa.key := rfl

@[simp] theorem lsaToLsdbInfo_seq
    (lsa : LinkStateAdv)
    (age : Timeval) :
    (lsaToLsdbInfo lsa age).seq = lsa.seq := rfl

/-- Storing an advertisement and reading it back gives the advertisement. -/
@[simp] theorem lsdbToLsaInfo_lsaToLsdbInfo
    (lsa : LinkStateAdv)
    (age : Timeval) :
    lsdbToLsaInfo (lsaToLsdbInfo lsa age) = lsa := rfl

/-- `LSDB_LINK_FRESH_TIME`, in microseconds. -/
def lsdbLinkFreshTime : Int := 10000000

/--
`is_out_of_date`, with `val` the reading of `gettimeofday`.  The difference is
an `unsigned long`, so a clock that stepped backwards gives a huge age.
-/
def isOutOfDate (val : Timeval) (old : CrLsdbLinkState) : Bool :=
  let time :=
    ((val.tvSec - old.age.tvSec) * 1000000 +
      (val.tvUsec - old.age.tvUsec)) % 2 ^ 64
  decide (lsdbLinkFreshTime * 15 / 10 < time)

/-- An entry compared at the reading it was stored with is fresh. -/
theorem isOutOfDate_self
    {val : Timeval}
    {old : CrLsdbLinkState}
    (sameReading : old.age = val) :
    isOutOfDate val old = false := by
  subst sameReading
  simp [isOutOfDate, lsdbLinkFreshTime]

end Pma
