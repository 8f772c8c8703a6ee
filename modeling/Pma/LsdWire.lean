import Pma.LsdEffect

namespace Pma

open Transition

/-!
# What a daemon sent and accepted

The results about one link compare what one end handed to the socket with what
the other end passed to `accept_lsa_into_lsdb`.  Both are read off the trace:
`Icm.sentOn` and `Icm.acceptedFrom`.  Accepting advertisements sends nothing, so
a received packet is answered only where its handler says so.
-/

/-- The two ends of a link. -/
inductive Side where
  | left
  | right
  deriving Repr, DecidableEq

/-- The opposite end. -/
def Side.other : Side → Side
  | .left => .right
  | .right => .left

@[simp] theorem Side.other_other
    (side : Side) :
    side.other.other = side := by
  cases side <;> rfl

theorem Side.other_ne
    (side : Side) :
    side.other ≠ side := by
  cases side <;> simp [Side.other]

/-- A link has no third end. -/
theorem Side.eq_or_eq_other
    (side query : Side) :
    query = side ∨ query = side.other := by
  cases side <;> cases query <;> simp [Side.other]

namespace Icm

/-- The packet a recorded call sent through an interface. -/
def sentBy (eth : EthId) : Call → Option Body
  | .lsdSend other datagram => if other = eth then some datagram.body else none
  | _ => none

/-- Everything that was ever sent through an interface, oldest first. -/
def sentOn (icm : Icm) (eth : EthId) : List Body :=
  icm.trace.filterMap (sentBy eth)

/-- The advertisement a recorded call accepted from an interface. -/
def acceptedBy (eth : EthId) : Call → Option LinkStateAdv
  | .acceptLsaIntoLsdb other lsa => if other = eth then some lsa else none
  | _ => none

/-- Everything that was ever accepted from an interface, oldest first. -/
def acceptedFrom (icm : Icm) (eth : EthId) : List LinkStateAdv :=
  icm.trace.filterMap (acceptedBy eth)

/-- `after` passed `lsas` to `accept_lsa_into_lsdb` and sent nothing. -/
structure Received
    (before after : Icm)
    (eth : EthId)
    (lsas : List LinkStateAdv) : Prop extends Floods before after where
  accepted : after.acceptedFrom eth = before.acceptedFrom eth ++ lsas
  sent : after.sentOn = before.sentOn

namespace Received

theorem refl
    (icm : Icm)
    (eth : EthId) :
    Received icm icm eth [] :=
  { Floods.refl icm with
    accepted := (List.append_nil _).symm
    sent := rfl }

theorem trans
    {first second third : Icm}
    {eth : EthId}
    {earlierLsas laterLsas : List LinkStateAdv}
    (earlier : Received first second eth earlierLsas)
    (later : Received second third eth laterLsas) :
    Received first third eth (earlierLsas ++ laterLsas) :=
  { earlier.toFloods.trans later.toFloods with
    accepted := by
      rw [later.accepted, earlier.accepted, List.append_assoc]
    sent := later.sent.trans earlier.sent }

/-- `accept_lsa_into_lsdb`. -/
theorem acceptLsaIntoLsdb
    {icm after : Icm}
    {eth : EthId}
    {lsa : LinkStateAdv}
    (returned : icm.acceptLsaIntoLsdb eth lsa = .ok after) :
    Received icm after eth [lsa] := by
  have effect := acceptLsaIntoLsdb_effect returned
  refine
    { effect.toFloods with
      accepted := ?_
      sent := ?_ }
  · unfold acceptedFrom
    rw [effect.trace, List.filterMap_append]
    congr 1
    unfold acceptedCalls
    cases icm.reaction eth lsa <;>
      simp only [List.filterMap_cons, acceptedBy, if_true, List.filterMap_nil,
        filterMap_queuedCalls (acceptedBy eth) fun _ _ => rfl]
  · funext other
    unfold sentOn
    rw [effect.trace, List.filterMap_append]
    unfold acceptedCalls
    cases icm.reaction eth lsa <;>
      simp only [List.filterMap_cons, sentBy, List.filterMap_nil,
        List.append_nil, filterMap_queuedCalls (sentBy other) fun _ _ => rfl]

/-- The records of a packet, read out of the receive buffer. -/
theorem acceptRecords
    {icm after : Icm}
    {eth : EthId}
    {lsas : List LinkStateAdv}
    {count : Nat}
    (returned : icm.acceptRecords eth lsas count = .ok after) :
    Received icm after eth
      ((List.range count).map fun index => lsas.getD index zeroAdv) := by
  unfold Icm.acceptRecords at returned
  generalize List.range count = indices at returned ⊢
  have looped := run_of_foldlM returned
  clear returned
  induction looped with
  | nil state =>
      exact refl state eth
  | cons first rest inductionHypothesis =>
      obtain ⟨lsa, read, accepted⟩ := bind_eq_ok.mp first
      unfold recordAt at read
      split at read
      · cases read
        exact (acceptLsaIntoLsdb accepted).trans inductionHypothesis
      · cases read

end Received

/-- A packet that says how many records it has is accepted whole. -/
theorem range_map_getD
    {lsas : List LinkStateAdv}
    {count : Nat}
    (counted : count = lsas.length) :
    ((List.range count).map fun index => lsas.getD index zeroAdv) = lsas := by
  apply List.ext_getElem
  · simp [counted]
  · intro index inside bound
    simp [bound]

/-- What `lsd_send` of a buffer adds to what was sent through an interface. -/
theorem mem_sentOn_of_sentCalls
    {icm : Icm}
    {eth other : EthId}
    {buffer : Option Body}
    {body : Body}
    (member : body ∈ (icm.sentCalls eth buffer).filterMap (sentBy other)) :
    buffer = some body := by
  unfold sentCalls at member
  dsimp only at member
  split at member
  · cases member
  · split at member
    · cases member
    · cases member
    · simp only [List.filterMap_cons, sentBy, List.filterMap_nil] at member
      split at member
      · cases member
      · next isBody =>
          split at isBody
          · cases isBody
            rw [List.mem_singleton] at member
            rw [member]
            rfl
          · cases isBody

/-- Sending records nothing else. -/
theorem filterMap_sentCalls
    {α : Type}
    (observe : Call → Option α)
    (unseen : ∀ eth datagram, observe (.lsdSend eth datagram) = none)
    (icm : Icm)
    (eth : EthId)
    (buffer : Option Body) :
    (icm.sentCalls eth buffer).filterMap observe = [] := by
  unfold sentCalls
  dsimp only
  split
  · rfl
  · split <;> simp [unseen]

end Icm

end Pma
