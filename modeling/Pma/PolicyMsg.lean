import Pma.StructLayout

namespace Pma

open Bytes StructLayout

/-!
# The policy message

`send_policy` of DBM and `policy_handle` of PEM each have a `struct policyMsg` of
their own.  The one has intervals of 32 bits, the other of type `unsigned long`.
The packet is modelled by what comes behind its header; BM relays it as it is.
-/

/-- The fields of `struct policyMsgHeader`: `pepversion` and `operation`. -/
def policyMsgHeader : List Nat := [1, 1]

/-- The fields of `struct policyMsg` in `server/dbm.h`. -/
def dbmPolicyMsg : List Nat := [4, 4, 4, 4]

/-- The fields of `struct policyMsg` in `server/pem.h`. -/
def pemPolicyMsg : List Nat := [4, 8, 8, 8]

example : layout pemPolicyMsg = [(0, 4), (8, 8), (16, 8), (24, 8)] := by decide

/-- The length of what `send_policy` sends. -/
def policyLength : Nat := sizeof dbmPolicyMsg + sizeof policyMsgHeader

/-- `send_policy`, in memory that `malloc` gives. -/
def sendPolicy
    (mem : Nat → UInt8)
    (ifid : Int32)
    (helloTimer deadTimer : UInt32) : List UInt8 :=
  let headed := writeStruct mem 0 policyMsgHeader [3, 0]
  let filled :=
    writeStruct headed (sizeof policyMsgHeader) dbmPolicyMsg
      [ifid.toUInt32.toNat, helloTimer.toNat, deadTimer.toNat, deadTimer.toNat]
  window filled 0 policyLength

/-- `struct policyMsg` as `policy_handle` reads it. -/
structure PemPolicyMsg where
  ifId : Int32
  helloInterval : UInt64
  deadInterval : UInt64
  restransmitInterval : UInt64
  deriving Repr, DecidableEq

/-- The message behind the header of a packet. -/
def readPolicyMsg (mem : Nat → UInt8) : PemPolicyMsg :=
  match readStruct mem (sizeof policyMsgHeader) pemPolicyMsg with
  | [ifId, helloInterval, deadInterval, restransmitInterval] =>
      ⟨(UInt32.ofNat ifId).toInt32, .ofNat helloInterval, .ofNat deadInterval,
        .ofNat restransmitInterval⟩
  | _ => ⟨0, 0, 0, 0⟩

/-- The memory of PEM with a packet in it. -/
def inMemory (behind : Nat → UInt8) (packet : List UInt8) : Nat → UInt8 :=
  overwrite behind 0 packet

/-- A message is read as it was sent, and inside of the packet. -/
structure CodecRight
    (mem behind : Nat → UInt8)
    (ifid : Int32)
    (helloTimer deadTimer : UInt32) : Prop where
  ifId : (readPolicyMsg (inMemory behind (sendPolicy mem ifid helloTimer deadTimer))).ifId = ifid
  helloInterval :
    (readPolicyMsg
      (inMemory behind (sendPolicy mem ifid helloTimer deadTimer))).helloInterval.toNat =
        helloTimer.toNat
  deadInterval :
    (readPolicyMsg
      (inMemory behind (sendPolicy mem ifid helloTimer deadTimer))).deadInterval.toNat =
        deadTimer.toNat
  restransmitInterval :
    (readPolicyMsg
      (inMemory behind (sendPolicy mem ifid helloTimer deadTimer))).restransmitInterval.toNat =
        deadTimer.toNat
  inside :
    ReadsBelow (sizeof policyMsgHeader) pemPolicyMsg
      (sendPolicy mem ifid helloTimer deadTimer).length

/-! ## What is sent and what is read -/

section

variable (mem behind : Nat → UInt8) (ifid : Int32) (helloTimer deadTimer : UInt32)

/-- The fields are sent without gaps. -/
theorem sendPolicy_eq :
    sendPolicy mem ifid helloTimer deadTimer =
      leBytes 1 3 ++ leBytes 1 0 ++
        (leBytes 4 ifid.toUInt32.toNat ++ leBytes 4 helloTimer.toNat ++
          (leBytes 4 deadTimer.toNat ++ leBytes 4 deadTimer.toNat)) := by
  let values := [ifid.toUInt32.toNat, helloTimer.toNat, deadTimer.toNat, deadTimer.toNat]
  let headerBytes := [3, 0].flatMap (leBytes 1)
  let fieldBytes := values.flatMap (leBytes 4)
  have header :
      writeStruct mem 0 policyMsgHeader [3, 0] = overwrite mem 0 headerBytes :=
    writeStruct_uniform (by decide) mem 0 [3, 0]
  have fields :
      writeStruct (overwrite mem 0 headerBytes) (0 + headerBytes.length) dbmPolicyMsg values =
        overwrite (overwrite mem 0 headerBytes) (0 + headerBytes.length) fieldBytes :=
    writeStruct_uniform (by decide) _ _ values
  have filled :
      writeStruct (writeStruct mem 0 policyMsgHeader [3, 0]) (sizeof policyMsgHeader)
          dbmPolicyMsg values =
        overwrite mem 0 (headerBytes ++ fieldBytes) := by
    rw [header, ← overwrite_append]
    exact fields
  have sent :
      sendPolicy mem ifid helloTimer deadTimer = headerBytes ++ fieldBytes := by
    have whole := window_overwrite mem 0 (headerBytes ++ fieldBytes)
    rw [← filled] at whole
    exact whole
  rw [sent]
  simp only [headerBytes, fieldBytes, values, List.flatMap_cons, List.flatMap_nil,
    List.append_nil, List.append_assoc]

theorem length_sendPolicy :
    (sendPolicy mem ifid helloTimer deadTimer).length = 18 :=
  length_window ..

/-- A part of the packet is read. -/
theorem window_received
    {offset length : Nat}
    (within : offset + length ≤ 18) :
    window (inMemory behind (sendPolicy mem ifid helloTimer deadTimer)) offset length =
      ((sendPolicy mem ifid helloTimer deadTimer).drop offset).take length := by
  have inside : offset + length ≤ (sendPolicy mem ifid helloTimer deadTimer).length := by
    rwa [length_sendPolicy]
  have read := window_overwrite_within inside behind 0
  rwa [Nat.zero_add] at read

/-- What is read behind the packet is not of it. -/
theorem window_received_behind
    {offset length : Nat}
    (outside : 18 ≤ offset) :
    window (inMemory behind (sendPolicy mem ifid helloTimer deadTimer)) offset length =
      window behind offset length := by
  refine window_overwrite_of_disjoint (.inr ?_)
  rw [length_sendPolicy]
  omega

/-- The message that PEM reads. -/
theorem readPolicyMsg_received :
    readPolicyMsg (inMemory behind (sendPolicy mem ifid helloTimer deadTimer)) =
      { ifId := ifid
        helloInterval := .ofNat (deadTimer.toNat + 2 ^ 32 * deadTimer.toNat)
        deadInterval := .ofNat (leValue (window behind 18 8))
        restransmitInterval := .ofNat (leValue (window behind 26 8)) } := by
  have first :
      leValue (window (inMemory behind (sendPolicy mem ifid helloTimer deadTimer)) 2 4) =
        ifid.toUInt32.toNat := by
    rw [window_received _ _ _ _ _ (by decide), sendPolicy_eq,
      List.drop_left' (by simp), List.append_assoc, List.take_left' (by simp)]
    exact leValue_leBytes ifid.toUInt32.toNat_lt
  have second :
      leValue (window (inMemory behind (sendPolicy mem ifid helloTimer deadTimer)) 10 8) =
        deadTimer.toNat + 2 ^ 32 * deadTimer.toNat := by
    have small : deadTimer.toNat < 256 ^ 4 := deadTimer.toNat_lt
    rw [window_received _ _ _ _ _ (by decide), sendPolicy_eq, ← List.append_assoc,
      List.drop_left' (by simp), List.take_of_length_le (by simp), leValue_append,
      length_leBytes, leValue_leBytes small]
    omega
  have third :
      window (inMemory behind (sendPolicy mem ifid helloTimer deadTimer)) 18 8 =
        window behind 18 8 :=
    window_received_behind _ _ _ _ _ (by decide)
  have fourth :
      window (inMemory behind (sendPolicy mem ifid helloTimer deadTimer)) 26 8 =
        window behind 26 8 :=
    window_received_behind _ _ _ _ _ (by decide)
  change
    PemPolicyMsg.mk
      (UInt32.ofNat (leValue (window (inMemory behind
        (sendPolicy mem ifid helloTimer deadTimer)) 2 4))).toInt32
      (.ofNat (leValue (window (inMemory behind
        (sendPolicy mem ifid helloTimer deadTimer)) 10 8)))
      (.ofNat (leValue (window (inMemory behind
        (sendPolicy mem ifid helloTimer deadTimer)) 18 8)))
      (.ofNat (leValue (window (inMemory behind
        (sendPolicy mem ifid helloTimer deadTimer)) 26 8))) = _
  rw [first, second, third, fourth, UInt32.ofNat_toNat, Int32.toInt32_toUInt32]

/-- PEM reads the dead timer twice where it expects the hello timer. -/
theorem helloInterval_received :
    (readPolicyMsg
        (inMemory behind (sendPolicy mem ifid helloTimer deadTimer))).helloInterval.toNat =
      deadTimer.toNat + 2 ^ 32 * deadTimer.toNat := by
  have small := deadTimer.toNat_lt
  rw [readPolicyMsg_received]
  exact UInt64.toNat_ofNat_of_lt' (by change _ < 2 ^ 64; omega)

end

/--
No message is read as it was sent: the last two intervals lie outside of the
packet, and the first is only right if both timers are 0.
-/
theorem codec_not_right
    (mem behind : Nat → UInt8)
    (ifid : Int32)
    (helloTimer deadTimer : UInt32) :
    ¬CodecRight mem behind ifid helloTimer deadTimer ∧
      ¬ReadsBelow (sizeof policyMsgHeader) pemPolicyMsg
        (sendPolicy mem ifid helloTimer deadTimer).length ∧
      ((readPolicyMsg
          (inMemory behind (sendPolicy mem ifid helloTimer deadTimer))).helloInterval.toNat =
          helloTimer.toNat →
        helloTimer = 0 ∧ deadTimer = 0) := by
  have outside :
      ¬ReadsBelow (sizeof policyMsgHeader) pemPolicyMsg
        (sendPolicy mem ifid helloTimer deadTimer).length := by
    rw [length_sendPolicy]
    decide
  refine ⟨fun right => outside right.inside, outside, fun same => ?_⟩
  rw [helloInterval_received] at same
  have small := helloTimer.toNat_lt
  exact ⟨UInt32.toNat_inj.mp (by change _ = 0; omega),
    UInt32.toNat_inj.mp (by change _ = 0; omega)⟩

/-- The default timers are not read as they were sent. -/
theorem defaultTimers_not_codecRight :
    ¬CodecRight (fun _ => 0) (fun _ => 0) 7 10000000 40000000 := by
  intro right
  have dead := right.deadInterval
  rw [readPolicyMsg_received] at dead
  exact absurd dead (by decide)

end Pma
