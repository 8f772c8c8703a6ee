import Pma.LsdExchangeLink

namespace Pma

open Transition

/-!
# The snapshot reaches the neighbour

A sender that ended its session has had every packet of the session answered,
so its neighbour accepted the whole copy of the database, as long as the
answers it took belong to the session.  `exchange_terminate` resets the packet
number, and an acknowledgement of an earlier session is then taken for one of
the new session.
-/

namespace ExchangePair

open Icm

/-- What the neighbour of a side accepted since the side opened its session. -/
def passed (eth : Side → EthId) (pair : ExchangePair) (side : Side) :
    List LinkStateAdv :=
  ((pair.daemon side.other).acceptedFrom (eth side.other)).drop (pair.mark side)

/-- A packet carries the link state of a snapshot that its number names. -/
def Carries (snapshot : List CrLsdbLinkState) (packet : Exchange) : Prop :=
  packet.type = .linksState ∧
    ∃ link,
      snapshot[packet.seq.toNat]? = some link ∧
        packet.lsas = [lsdbToLsaInfo link] ∧
        packet.length.toNat = 1

/-- A packet of a side belongs to one of its sessions, and carries its snapshot. -/
def DataSound (pair : ExchangePair) (side : Side) (message : Nat × Exchange) :
    Prop :=
  message.2.type ≠ .ack →
    message.1 ≤ pair.session side ∧
      (message.1 = pair.session side →
        Carries (pair.snapshot side) message.2)

/-- An acknowledgement for a side answers a link state its neighbour accepted. -/
def AckSound
    (eth : Side → EthId)
    (pair : ExchangePair)
    (side : Side)
    (message : Nat × Exchange) : Prop :=
  message.2.type = .ack →
    message.1 ≤ pair.session side ∧
      (message.1 = pair.session side →
        ∀ link, (pair.snapshot side)[message.2.seq.toNat]? = some link →
          lsdbToLsaInfo link ∈ pair.passed eth side)

/-- A waiting sender: what it sent, what it still has to send, what was answered. -/
structure Underway
    (snapshot : List CrLsdbLinkState)
    (passed : List LinkStateAdv)
    (exchange : ExchangeMaster) : Prop where
  inside : exchange.pkgNo.toNat < snapshot.length
  rest : exchange.linksState = snapshot.drop (exchange.pkgNo.toNat + 1)
  buffer : ∀ packet, exchange.sendbuf = some packet → Carries snapshot packet
  answered :
    ∀ index < exchange.pkgNo.toNat, ∀ link, snapshot[index]? = some link →
      lsdbToLsaInfo link ∈ passed

/-- The invariant of one direction of the exchange. -/
structure Delivering
    (eth : Side → EthId)
    (pair : ExchangePair)
    (side : Side) : Prop where
  marked :
    pair.mark side ≤
      ((pair.daemon side.other).acceptedFrom (eth side.other)).length
  short : (pair.snapshot side).length ≤ 2 ^ 32
  data : ∀ message ∈ pair.wire side, pair.DataSound side message
  acks : ∀ message ∈ pair.wire side.other, pair.AckSound eth side message
  idle :
    (pair.view eth side).sendState = .terminated →
      (pair.view eth side).pkgNo = 0
  underway :
    (pair.view eth side).sendState = .waiting →
      Underway (pair.snapshot side) (pair.passed eth side) (pair.view eth side)
  ended :
    (pair.view eth side).sendState = .ended →
      ∀ link ∈ pair.snapshot side,
        lsdbToLsaInfo link ∈ pair.passed eth side

/-- The part of an exchange master its own session is about. -/
structure SameSender (before after : ExchangeMaster) : Prop where
  sendState : after.sendState = before.sendState
  linksState : after.linksState = before.linksState
  pkgNo : after.pkgNo = before.pkgNo
  sendbuf : after.sendbuf = before.sendbuf

theorem SameSender.refl
    (exchange : ExchangeMaster) :
    SameSender exchange exchange :=
  ⟨rfl, rfl, rfl, rfl⟩

/-- A waiting sender goes on waiting while its neighbour accepts more. -/
theorem Underway.mono
    {snapshot : List CrLsdbLinkState}
    {earlier later : List LinkStateAdv}
    {before after : ExchangeMaster}
    (underway : Underway snapshot earlier before)
    (same : SameSender before after)
    (more : ∀ lsa ∈ earlier, lsa ∈ later) :
    Underway snapshot later after where
  inside := by
    rw [same.pkgNo]
    exact underway.inside
  rest := by
    rw [same.linksState, same.pkgNo]
    exact underway.rest
  buffer := by
    rw [same.sendbuf]
    exact underway.buffer
  answered := by
    rw [same.pkgNo]
    intro index before link found
    exact more _ (underway.answered index before link found)

section Direction

variable {eth : Side → EthId} {before after : ExchangePair} {side : Side}

/-- What was accepted stays accepted. -/
theorem mem_passed
    {lsa : LinkStateAdv}
    {more : List LinkStateAdv}
    (marked :
      before.mark side ≤
        ((before.daemon side.other).acceptedFrom (eth side.other)).length)
    (mark : after.mark side = before.mark side)
    (accepted :
      (after.daemon side.other).acceptedFrom (eth side.other) =
        (before.daemon side.other).acceptedFrom (eth side.other) ++ more)
    (old : lsa ∈ before.passed eth side ∨ lsa ∈ more) :
    lsa ∈ after.passed eth side := by
  unfold passed at old ⊢
  rw [mark, accepted, List.drop_append_of_le_length marked, List.mem_append]
  exact old

/--
A step that leaves the session of a side as it is keeps the invariant of its
direction, when every new packet in flight is sound.
-/
theorem Delivering.mono
    {more : List LinkStateAdv}
    (delivering : before.Delivering eth side)
    (sender : SameSender (before.view eth side) (after.view eth side))
    (session : after.session side = before.session side)
    (snapshot : after.snapshot side = before.snapshot side)
    (mark : after.mark side = before.mark side)
    (accepted :
      (after.daemon side.other).acceptedFrom (eth side.other) =
        (before.daemon side.other).acceptedFrom (eth side.other) ++ more)
    (data :
      ∀ message ∈ after.wire side,
        message ∈ before.wire side ∨ after.DataSound side message)
    (acks :
      ∀ message ∈ after.wire side.other,
        message ∈ before.wire side.other ∨ after.AckSound eth side message) :
    after.Delivering eth side := by
  have grown :
      ∀ lsa ∈ before.passed eth side, lsa ∈ after.passed eth side :=
    fun lsa old => mem_passed delivering.marked mark accepted (.inl old)
  refine
    { marked := ?_
      short := ?_
      data := ?_
      acks := ?_
      idle := ?_
      underway := ?_
      ended := ?_ }
  · have marked := delivering.marked
    rw [mark, accepted, List.length_append]
    omega
  · rw [snapshot]
    exact delivering.short
  · intro message flies
    rcases data message flies with old | sound
    · intro isData
      rw [session, snapshot]
      exact delivering.data message old isData
    · exact sound
  · intro message flies
    rcases acks message flies with old | sound
    · intro isAck
      obtain ⟨bounded, current⟩ := delivering.acks message old isAck
      rw [session, snapshot]
      exact ⟨bounded, fun same link found => grown _ (current same link found)⟩
    · exact sound
  · rw [sender.sendState, sender.pkgNo]
    exact delivering.idle
  · rw [sender.sendState, snapshot]
    intro waiting
    exact (delivering.underway waiting).mono sender grown
  · rw [sender.sendState, snapshot]
    intro ended link member
    exact grown _ (delivering.ended ended link member)

end Direction

/-- The packet `exchange_send` builds carries the head of what is left. -/
theorem carries_exchangeBatch
    {snapshot : List CrLsdbLinkState}
    {exchange : ExchangeMaster}
    (inside : exchange.pkgNo.toNat < snapshot.length)
    (links : exchange.linksState = snapshot.drop exchange.pkgNo.toNat) :
    Carries snapshot (exchangeBatch exchange) := by
  have head :
      exchange.linksState.take linkLsaCtPerPak =
        [snapshot[exchange.pkgNo.toNat]] := by
    rw [links, List.drop_eq_getElem_cons inside]
    rfl
  unfold exchangeBatch Carries
  dsimp only
  rw [head]
  refine ⟨by simp, _, List.getElem?_eq_getElem inside, rfl, rfl⟩

section Moves

variable {eth : Side → EthId}
  {pair : ExchangePair}
  {side : Side}
  {icm : Icm}
  {sent : List Exchange}
  {accepted : List LinkStateAdv}
  {tag : Exchange → Nat}

/-- A side that moves on keeps the invariant of its own direction. -/
theorem Delivering.ownMoved
    (delivering : pair.Delivering eth side)
    (exchanges : Exchanges (eth side) (pair.daemon side) icm sent accepted)
    (data : ∀ packet ∈ sent, pair.DataSound side (tag packet, packet))
    (idle :
      (icm.exchangeView (eth side)).sendState = .terminated →
        (icm.exchangeView (eth side)).pkgNo = 0)
    (underway :
      (icm.exchangeView (eth side)).sendState = .waiting →
        Underway (pair.snapshot side) (pair.passed eth side)
          (icm.exchangeView (eth side)))
    (ended :
      (icm.exchangeView (eth side)).sendState = .ended →
        ∀ link ∈ pair.snapshot side,
          lsdbToLsaInfo link ∈ pair.passed eth side) :
    (pair.moved eth side icm tag).Delivering eth side := by
  have sameView :
      (pair.moved eth side icm tag).view eth side =
        icm.exchangeView (eth side) := by
    unfold view
    rw [moved_daemon_self]
  have samePassed :
      (pair.moved eth side icm tag).passed eth side =
        pair.passed eth side := by
    unfold passed
    rw [moved_daemon_other]
    rfl
  refine
    { marked := ?_
      short := delivering.short
      data := ?_
      acks := ?_
      idle := ?_
      underway := ?_
      ended := ?_ }
  · rw [moved_daemon_other]
    exact delivering.marked
  · intro message flies
    rcases mem_moved_wire exchanges flies with old | ⟨-, packet, member, rfl⟩
    · exact delivering.data message old
    · exact data packet member
  · intro message flies isAck
    rw [moved_wire_other] at flies
    rw [samePassed]
    exact delivering.acks message flies isAck
  · rw [sameView]
    exact idle
  · rw [sameView, samePassed]
    exact underway
  · rw [sameView, samePassed]
    exact ended

/-- A side that moves on without touching its session. -/
theorem Delivering.ownKept
    (delivering : pair.Delivering eth side)
    (exchanges : Exchanges (eth side) (pair.daemon side) icm sent accepted)
    (data : ∀ packet ∈ sent, pair.DataSound side (tag packet, packet))
    (same : SameSender (pair.view eth side) (icm.exchangeView (eth side))) :
    (pair.moved eth side icm tag).Delivering eth side := by
  refine delivering.ownMoved exchanges data ?_ ?_ ?_
  · rw [same.sendState, same.pkgNo]
    exact delivering.idle
  · rw [same.sendState]
    intro waiting
    exact (delivering.underway waiting).mono same fun _ => id
  · rw [same.sendState]
    exact delivering.ended

/-- The neighbour of a side moves on. -/
theorem Delivering.otherMoved
    (delivering : pair.Delivering eth side)
    (exchanges :
      Exchanges (eth side.other) (pair.daemon side.other) icm sent accepted)
    (acks :
      ∀ packet ∈ sent, packet.type = .ack →
        tag packet ≤ pair.session side ∧
          (tag packet = pair.session side →
            ∀ link, (pair.snapshot side)[packet.seq.toNat]? = some link →
              lsdbToLsaInfo link ∈ accepted)) :
    (pair.moved eth side.other icm tag).Delivering eth side := by
  have accepts :
      ((pair.moved eth side.other icm tag).daemon side.other).acceptedFrom
          (eth side.other) =
        (pair.daemon side.other).acceptedFrom (eth side.other) ++ accepted := by
    rw [moved_daemon_self]
    exact exchanges.accepted
  have sameDaemon :
      (pair.moved eth side.other icm tag).daemon side = pair.daemon side :=
    moved_daemon_of_ne side.other_ne.symm tag
  have sameView :
      (pair.moved eth side.other icm tag).view eth side =
        pair.view eth side := by
    unfold view
    rw [sameDaemon]
  refine delivering.mono (sameView ▸ SameSender.refl _) rfl rfl rfl accepts ?_ ?_
  · intro message flies
    rcases mem_moved_wire exchanges flies with old | ⟨isOther, -⟩
    · exact .inl old
    · exact absurd isOther.symm side.other_ne
  · intro message flies
    rcases mem_moved_wire exchanges flies with old | ⟨-, packet, member, rfl⟩
    · exact .inl old
    · right
      intro isAck
      obtain ⟨bounded, current⟩ := acks packet member isAck
      refine ⟨bounded, fun same link found => ?_⟩
      exact mem_passed delivering.marked rfl accepts
        (.inr (current same link found))

/-- A lost packet. -/
theorem Delivering.taken
    (delivering : pair.Delivering eth side)
    (query : Side)
    (message : Nat × Exchange) :
    (pair.taken query message).Delivering eth side :=
  delivering.mono (SameSender.refl _) rfl rfl rfl (List.append_nil _).symm
    (fun _ flies => .inl (mem_taken_wire flies))
    (fun _ flies => .inl (mem_taken_wire flies))

/-- A side without a session opens one. -/
theorem Delivering.opened
    (delivering : pair.Delivering eth side)
    (terminated : (pair.view eth side).sendState = .terminated)
    (short :
      ((pair.daemon side).lsdbOf (eth side)).crLsdbGetLinksState.length ≤
        2 ^ 32) :
    (pair.opened eth side).Delivering eth side := by
  have session :
      (pair.opened eth side).session side = pair.session side + 1 :=
    Function.update_self ..
  refine
    { marked := ?_
      short := ?_
      data := ?_
      acks := ?_
      idle := delivering.idle
      underway := ?_
      ended := ?_ }
  · exact le_of_eq (Function.update_self ..)
  · change (Function.update pair.snapshot side _ side).length ≤ _
    rw [Function.update_self]
    exact short
  · -- The packets on the wire belong to earlier sessions.
    intro message flies isData
    have earlier := (delivering.data message flies isData).1
    rw [session]
    exact ⟨by omega, fun same => by omega⟩
  · intro message flies isAck
    have earlier := (delivering.acks message flies isAck).1
    rw [session]
    exact ⟨by omega, fun same => by omega⟩
  · intro waiting
    change (pair.view eth side).sendState = .waiting at waiting
    rw [terminated] at waiting
    cases waiting
  · intro ended
    change (pair.view eth side).sendState = .ended at ended
    rw [terminated] at ended
    cases ended

/-- The neighbour opens a session. -/
theorem Delivering.otherOpened
    (delivering : pair.Delivering eth side) :
    (pair.opened eth side.other).Delivering eth side :=
  delivering.mono (SameSender.refl _)
    (Function.update_of_ne side.other_ne.symm _ _)
    (Function.update_of_ne side.other_ne.symm _ _)
    (Function.update_of_ne side.other_ne.symm _ _)
    (List.append_nil _).symm (fun _ flies => .inl flies)
    (fun _ flies => .inl flies)

end Moves

/-! ## The steps -/

/--
An acknowledgement that a waiting sender takes belongs to its session, and no
snapshot is so long that its packet numbers wrap around.
-/
def Current (eth : Side → EthId) (pair : ExchangePair) : Op → Prop
  | .start side =>
      ((pair.daemon side).lsdbOf (eth side)).crLsdbGetLinksState.length ≤ 2 ^ 32
  | .deliver side message =>
      message.2.type = .ack →
        (pair.view eth side).sendState = .waiting →
        message.2.seq = (pair.view eth side).pkgNo →
        message.1 = pair.session side
  | _ => True

section Steps

variable {eth : Side → EthId}
  {pair : ExchangePair}
  {side : Side}
  {icm : Icm}

/-- `exchange_send_start` of a side, in its own direction. -/
theorem Delivering.start
    (delivering : pair.Delivering eth side)
    (short :
      ((pair.daemon side).lsdbOf (eth side)).crLsdbGetLinksState.length ≤
        2 ^ 32)
    (filled :
      ((pair.daemon side).lsdbOf (eth side)).crLsdbGetLinksState ≠ [])
    (returned : (pair.daemon side).exchangeSendStart (eth side) = .ok icm) :
    ((pair.opened eth side).moved eth side icm
      fun _ => pair.session side + 1).Delivering eth side := by
  obtain ⟨exchange, handle, found, terminated, written, exchanges⟩ :=
    exchangeSendStart_spec returned
  have isView : pair.view eth side = exchange := exchangeView_of_some found
  have first : exchange.pkgNo = 0 := by
    have idle := delivering.idle
    rw [isView] at idle
    exact idle terminated
  have opened := delivering.opened (isView ▸ terminated) short
  have session :
      (pair.opened eth side).session side = pair.session side + 1 :=
    Function.update_self ..
  have snapshot :
      (pair.opened eth side).snapshot side =
        ((pair.daemon side).lsdbOf (eth side)).crLsdbGetLinksState :=
    Function.update_self ..
  have inside :
      ((pair.daemon side).exchangeOpened (eth side) exchange).pkgNo.toNat <
        ((pair.opened eth side).snapshot side).length := by
    rw [snapshot]
    change exchange.pkgNo.toNat < _
    rw [first]
    exact List.length_pos_of_ne_nil filled
  have links :
      ((pair.daemon side).exchangeOpened (eth side) exchange).linksState =
        ((pair.opened eth side).snapshot side).drop
          ((pair.daemon side).exchangeOpened (eth side) exchange).pkgNo.toNat := by
    rw [snapshot]
    change _ = List.drop exchange.pkgNo.toNat _
    rw [first]
    rfl
  have carries := carries_exchangeBatch inside links
  refine opened.ownMoved exchanges ?_ ?_ ?_ ?_
  · intro packet member _
    rw [List.mem_singleton] at member
    subst member
    exact ⟨session.ge, fun _ => carries⟩
  · rw [exchangeView_of_some written]
    simp [exchangeSent]
  · rw [exchangeView_of_some written]
    intro _
    refine
      { inside := inside
        rest := ?_
        buffer := ?_
        answered := ?_ }
    · change List.drop linkLsaCtPerPak _ = _
      rw [links, List.drop_drop]
      rfl
    · rintro packet ⟨⟩
      exact carries
    · intro index before
      change index < exchange.pkgNo.toNat at before
      rw [first] at before
      exact absurd before (Nat.not_lt_zero _)
  · rw [exchangeView_of_some written]
    simp [exchangeSent]

/-- `exchange_terminate` of a side, in its own direction. -/
theorem Delivering.terminate
    {tag : Exchange → Nat}
    (delivering : pair.Delivering eth side)
    (returned : (pair.daemon side).exchangeTerminate (eth side) = .ok icm) :
    (pair.moved eth side icm tag).Delivering eth side := by
  obtain ⟨exchange, found, written, exchanges⟩ := exchangeTerminate_spec returned
  refine delivering.ownMoved exchanges (by simp) ?_ ?_ ?_
  · rw [exchangeView_of_some written]
    simp
  · rw [exchangeView_of_some written]
    simp
  · rw [exchangeView_of_some written]
    simp

/-- `ack_time_excceed` of a side, in its own direction. -/
theorem Delivering.timeout
    {id : ThreadId}
    (delivering : pair.Delivering eth side)
    (returned :
      ((pair.daemon side).fetch id).ackTimeExcceed (eth side) = .ok icm) :
    (pair.moved eth side icm fun _ => pair.session side).Delivering
      eth side := by
  obtain ⟨exchange, handle, found, waiting, written, exchanges⟩ :=
    ackTimeExcceed_spec returned
  have isView : pair.view eth side = exchange := exchangeView_of_some found
  have underway := delivering.underway (isView ▸ waiting)
  rw [isView] at underway
  refine delivering.ownKept exchanges ?_ ?_
  · intro packet member _
    have isBuffer : exchange.sendbuf = some packet := by
      simpa using member
    exact ⟨le_rfl, fun _ => underway.buffer packet isBuffer⟩
  · rw [isView, exchangeView_of_some written]
    exact ⟨rfl, rfl, rfl, rfl⟩

/-- The acknowledgement of the current packet, in the direction of its sender. -/
theorem Underway.acknowledged
    {snapshot : List CrLsdbLinkState}
    {passed : List LinkStateAdv}
    {exchange : ExchangeMaster}
    (underway : Underway snapshot passed exchange)
    (answered :
      ∀ link, snapshot[exchange.pkgNo.toNat]? = some link →
        lsdbToLsaInfo link ∈ passed) :
    ∀ index ≤ exchange.pkgNo.toNat, ∀ link, snapshot[index]? = some link →
      lsdbToLsaInfo link ∈ passed := by
  intro index upTo link found
  rcases Nat.lt_or_eq_of_le upTo with before | same
  · exact underway.answered index before link found
  · subst same
    exact answered link found

/-- The next packet of a session. -/
theorem Underway.next
    {snapshot : List CrLsdbLinkState}
    {passed : List LinkStateAdv}
    {exchange : ExchangeMaster}
    (underway : Underway snapshot passed exchange)
    (short : snapshot.length ≤ 2 ^ 32)
    (more : exchange.linksState ≠ [])
    (answered :
      ∀ link, snapshot[exchange.pkgNo.toNat]? = some link →
        lsdbToLsaInfo link ∈ passed)
    (handle : ThreadId) :
    Carries snapshot (exchangeBatch (exchangeNext exchange)) ∧
      Underway snapshot passed
        (exchangeSent (exchangeNext exchange) handle) := by
  have longer : exchange.pkgNo.toNat + 1 < snapshot.length := by
    have remaining := more
    rw [underway.rest] at remaining
    exact Nat.lt_of_not_le fun finished =>
      remaining (List.drop_eq_nil_of_le finished)
  have number :
      (exchangeNext exchange).pkgNo.toNat = exchange.pkgNo.toNat + 1 := by
    change (exchange.pkgNo + 1).toNat = _
    rw [UInt32.toNat_add]
    exact Nat.mod_eq_of_lt (Nat.lt_of_lt_of_le longer short)
  have inside :
      (exchangeNext exchange).pkgNo.toNat < snapshot.length := by
    rw [number]
    exact longer
  have links :
      (exchangeNext exchange).linksState =
        snapshot.drop (exchangeNext exchange).pkgNo.toNat := by
    rw [number]
    exact underway.rest
  have carries := carries_exchangeBatch inside links
  refine ⟨carries,
    { inside := inside
      rest := ?_
      buffer := ?_
      answered := ?_ }⟩
  · change List.drop linkLsaCtPerPak _ = _
    rw [links, List.drop_drop]
    rfl
  · rintro packet ⟨⟩
    exact carries
  · intro index before
    change index < (exchangeNext exchange).pkgNo.toNat at before
    rw [number] at before
    exact underway.acknowledged answered index (Nat.le_of_lt_succ before)

/-- A side receives a packet, in its own direction. -/
theorem Delivering.receive
    {message : Nat × Exchange}
    (delivering : pair.Delivering eth side)
    (current : Current eth pair (.deliver side message))
    (flies : message ∈ pair.wire side.other)
    (returned :
      (pair.daemon side).exchangePktReceived (eth side) message.2 = .ok icm) :
    ((pair.taken side.other message).moved eth side icm fun packet =>
      if packet.type = .ack then message.1
      else pair.session side).Delivering eth side := by
  have left := delivering.taken side.other message
  obtain ⟨exchange, found, received⟩ := reception returned
  have isView : pair.view eth side = exchange := exchangeView_of_some found
  have sameView : (pair.taken side.other message).view eth side = exchange :=
    isView
  have answered :
      message.2.type = .ack →
      exchange.sendState = .waiting →
      message.2.seq = exchange.pkgNo →
      ∀ link, (pair.snapshot side)[exchange.pkgNo.toNat]? = some link →
        lsdbToLsaInfo link ∈ pair.passed eth side := by
    intro isAck waiting isCurrent
    rw [← isCurrent]
    rw [← isView] at waiting isCurrent
    exact (delivering.acks message flies isAck).2
      (current isAck waiting isCurrent)
  cases received with
  | ackIgnored isAck ignored same =>
      subst same
      refine left.ownKept (Exchanges.silent rfl rfl) (by simp) ?_
      exact SameSender.refl _
  | ackNext isAck waiting isCurrent more handle written exchanges =>
      have underway := delivering.underway (isView ▸ waiting)
      rw [isView] at underway
      obtain ⟨carries, next⟩ :=
        underway.next delivering.short more
          (answered isAck waiting isCurrent) handle
      refine left.ownMoved exchanges ?_ ?_ ?_ ?_
      · intro packet member isData
        rw [List.mem_singleton] at member
        subst member
        dsimp only at isData ⊢
        rw [if_neg isData]
        exact ⟨le_rfl, fun _ => carries⟩
      · rw [exchangeView_of_some written]
        simp [exchangeSent]
      · rw [exchangeView_of_some written]
        exact fun _ => next
      · rw [exchangeView_of_some written]
        simp [exchangeSent]
  | ackLast isAck waiting isCurrent last written exchanges =>
      have underway := delivering.underway (isView ▸ waiting)
      rw [isView] at underway
      refine left.ownMoved exchanges (by simp) ?_ ?_ ?_
      · rw [exchangeView_of_some written]
        simp
      · rw [exchangeView_of_some written]
        simp
      · intro _ link member
        obtain ⟨index, inside, isLink⟩ := List.mem_iff_getElem.mp member
        have length : (pair.snapshot side).length ≤ exchange.pkgNo.toNat + 1 := by
          have rest := underway.rest
          rw [last] at rest
          exact List.drop_eq_nil_iff.mp rest.symm
        change index < (pair.snapshot side).length at inside
        exact underway.acknowledged (answered isAck waiting isCurrent) index
          (by omega) link (List.getElem?_eq_some_iff.mpr ⟨inside, isLink⟩)
  | linkAccepted isLink listening written exchanges =>
      refine left.ownKept exchanges ?_ ?_
      · intro packet member isData
        rw [List.mem_singleton] at member
        subst member
        exact absurd rfl isData
      · rw [sameView, exchangeView_of_some written]
        exact ⟨rfl, rfl, rfl, rfl⟩
  | dataIgnored notAck deaf written exchanges =>
      refine left.ownKept exchanges (by simp) ?_
      rw [sameView, exchangeView_of_some written]
      exact ⟨rfl, rfl, rfl, rfl⟩

/-- `exchange_send_start` of the neighbour. -/
theorem Delivering.otherStart
    (delivering : pair.Delivering eth side)
    (returned :
      (pair.daemon side.other).exchangeSendStart (eth side.other) = .ok icm) :
    ((pair.opened eth side.other).moved eth side.other icm
      fun _ => pair.session side.other + 1).Delivering eth side := by
  obtain ⟨exchange, handle, -, -, -, exchanges⟩ :=
    exchangeSendStart_spec returned
  refine delivering.otherOpened.otherMoved exchanges ?_
  intro packet member isAck
  rw [List.mem_singleton] at member
  subst member
  exact absurd isAck (exchangeBatch_ne_ack _)

/-- `exchange_terminate` of the neighbour. -/
theorem Delivering.otherTerminate
    {tag : Exchange → Nat}
    (delivering : pair.Delivering eth side)
    (returned :
      (pair.daemon side.other).exchangeTerminate (eth side.other) = .ok icm) :
    (pair.moved eth side.other icm tag).Delivering eth side := by
  obtain ⟨exchange, -, -, exchanges⟩ := exchangeTerminate_spec returned
  exact delivering.otherMoved exchanges (by simp)

/-- `ack_time_excceed` of the neighbour, which has a link state in its buffer. -/
theorem Delivering.otherTimeout
    {id : ThreadId}
    {tag : Exchange → Nat}
    (delivering : pair.Delivering eth side)
    (reverse : pair.Delivering eth side.other)
    (returned :
      ((pair.daemon side.other).fetch id).ackTimeExcceed (eth side.other) =
        .ok icm) :
    (pair.moved eth side.other icm tag).Delivering eth side := by
  obtain ⟨exchange, handle, found, waiting, -, exchanges⟩ :=
    ackTimeExcceed_spec returned
  have isView : pair.view eth side.other = exchange :=
    exchangeView_of_some found
  have underway := reverse.underway (isView ▸ waiting)
  rw [isView] at underway
  refine delivering.otherMoved exchanges ?_
  intro packet member isAck
  have isBuffer : exchange.sendbuf = some packet := by
    simpa using member
  rw [(underway.buffer packet isBuffer).1] at isAck
  cases isAck

/-- A packet that carries a link state of a snapshot has it accepted. -/
theorem Carries.accepted
    {snapshot : List CrLsdbLinkState}
    {packet : Exchange}
    {link : CrLsdbLinkState}
    (carries : Carries snapshot packet)
    (found : snapshot[packet.seq.toNat]? = some link) :
    lsdbToLsaInfo link ∈
      (List.range packet.length.toNat).map
        fun index => packet.lsas.getD index zeroAdv := by
  obtain ⟨-, carried, isCarried, records, single⟩ := carries
  cases found.symm.trans isCarried
  rw [single, records]
  simp

/-- The neighbour receives a packet of a side. -/
theorem Delivering.otherReceive
    {message : Nat × Exchange}
    (delivering : pair.Delivering eth side)
    (flies : message ∈ pair.wire side)
    (returned :
      (pair.daemon side.other).exchangePktReceived (eth side.other) message.2 =
        .ok icm) :
    ((pair.taken side message).moved eth side.other icm fun packet =>
      if packet.type = .ack then message.1
      else pair.session side.other).Delivering eth side := by
  have left := delivering.taken side message
  obtain ⟨exchange, found, received⟩ := reception returned
  cases received with
  | ackIgnored isAck ignored same =>
      subst same
      exact left.otherMoved (Exchanges.silent rfl rfl) (by simp)
  | ackNext isAck waiting isCurrent more handle written exchanges =>
      refine left.otherMoved exchanges ?_
      intro packet member isAck
      rw [List.mem_singleton] at member
      subst member
      exact absurd isAck (exchangeBatch_ne_ack _)
  | ackLast isAck waiting isCurrent last written exchanges =>
      exact left.otherMoved exchanges (by simp)
  | linkAccepted isLink listening written exchanges =>
      -- The answer belongs to the session of the packet, and has its number.
      obtain ⟨bounded, carried⟩ :=
        delivering.data message flies (by simp [isLink])
      refine left.otherMoved exchanges ?_
      intro packet member isAck
      rw [List.mem_singleton] at member
      subst member
      rw [if_pos isAck]
      exact ⟨bounded, fun same link found => (carried same).accepted found⟩
  | dataIgnored notAck deaf written exchanges =>
      exact left.otherMoved exchanges (by simp)

/-- A duplicated packet. -/
theorem Delivering.duplicate
    {query : Side}
    {message : Nat × Exchange}
    (delivering : pair.Delivering eth side)
    (flies : message ∈ pair.wire query) :
    ({ pair with
        wire :=
          Function.update pair.wire query (pair.wire query ++ [message]) } :
      ExchangePair).Delivering eth side := by
  have old :
      ∀ actor other,
        other ∈
            Function.update pair.wire query (pair.wire query ++ [message])
              actor →
          other ∈ pair.wire actor := by
    intro actor other flown
    by_cases same : actor = query
    · subst same
      rw [Function.update_self, List.mem_append, List.mem_singleton] at flown
      rcases flown with flown | rfl
      · exact flown
      · exact flies
    · rwa [Function.update_of_ne same] at flown
  exact delivering.mono (SameSender.refl _) rfl rfl rfl
    (List.append_nil _).symm (fun other flown => .inl (old side other flown))
    (fun other flown => .inl (old side.other other flown))

/-- A side does something that is no exchange. -/
theorem Delivering.background
    {query : Side}
    (delivering : pair.Delivering eth side)
    (background : Background (eth query) (pair.daemon query) icm) :
    ({ pair with daemon := Function.update pair.daemon query icm } :
      ExchangePair).Delivering eth side := by
  have sameView :
      ({ pair with daemon := Function.update pair.daemon query icm } :
        ExchangePair).view eth side = pair.view eth side := by
    unfold view exchangeView
    dsimp only
    by_cases same : side = query
    · subst same
      rw [Function.update_self, background.exchange]
    · rw [Function.update_of_ne same]
  have accepted :
      ∃ more,
        (Function.update pair.daemon query icm side.other).acceptedFrom
            (eth side.other) =
          (pair.daemon side.other).acceptedFrom (eth side.other) ++ more := by
    by_cases same : side.other = query
    · subst same
      rw [Function.update_self]
      exact background.accepted
    · rw [Function.update_of_ne same]
      exact ⟨[], (List.append_nil _).symm⟩
  obtain ⟨more, accepted⟩ := accepted
  exact delivering.mono (sameView ▸ SameSender.refl _) rfl rfl rfl accepted
    (fun _ flies => .inl flies) (fun _ flies => .inl flies)

/-- No step that takes current acknowledgements breaks the invariant. -/
theorem Delivering.step
    {before after : ExchangePair}
    {op : Op}
    (delivering : ∀ side, before.Delivering eth side)
    (step : guarded (Current eth) (Step eth) before op after) :
    ∀ side, after.Delivering eth side := by
  obtain ⟨current, step⟩ := step
  intro side
  cases op with
  | start actor =>
      obtain ⟨filled, icm, returned, rfl⟩ := step
      rcases side.eq_or_eq_other actor with rfl | rfl
      · exact (delivering actor).start current filled returned
      · exact (delivering side).otherStart returned
  | terminate actor =>
      obtain ⟨icm, returned, rfl⟩ := step
      rcases side.eq_or_eq_other actor with rfl | rfl
      · exact (delivering actor).terminate returned
      · exact (delivering side).otherTerminate returned
  | timeout actor id =>
      obtain ⟨-, icm, returned, rfl⟩ := step
      rcases side.eq_or_eq_other actor with rfl | rfl
      · exact (delivering actor).timeout returned
      · exact (delivering side).otherTimeout (delivering side.other) returned
  | deliver actor message =>
      obtain ⟨flies, icm, returned, rfl⟩ := step
      rcases side.eq_or_eq_other actor with rfl | rfl
      · exact (delivering actor).receive current flies returned
      · rw [Side.other_other] at flies ⊢
        exact (delivering side).otherReceive flies returned
  | lose actor message =>
      obtain ⟨-, rfl⟩ := step
      exact (delivering side).taken actor message
  | duplicate actor message =>
      obtain ⟨flies, rfl⟩ := step
      exact (delivering side).duplicate flies
  | background actor icm =>
      obtain ⟨background, rfl⟩ := step
      exact (delivering side).background background

/-- Two fresh exchange masters have nothing to deliver. -/
theorem Fresh.delivering
    {pair : ExchangePair}
    (fresh : pair.Fresh eth)
    (side : Side) :
    pair.Delivering eth side := by
  have isView : pair.view eth side = newExchangeMaster :=
    exchangeView_of_some (fresh.allocated side)
  refine
    { marked := ?_
      short := ?_
      data := ?_
      acks := ?_
      idle := ?_
      underway := ?_
      ended := ?_ }
  · rw [fresh.mark]
    exact Nat.zero_le _
  · rw [fresh.snapshot]
    exact Nat.zero_le _
  · intro message flies
    rw [fresh.wire] at flies
    cases flies
  · intro message flies
    rw [fresh.wire] at flies
    cases flies
  · rw [isView]
    intro _
    rfl
  · rw [isView]
    intro waiting
    cases waiting
  · rw [isView]
    intro ended
    cases ended

end Steps

/--
Database exchange.  When every acknowledgement a waiting sender takes answers a
packet of its own session, a sender that ended its session has had the whole
snapshot of the session accepted since the session was opened.
-/
theorem snapshot_delivered
    {eth : Side → EthId}
    {initial final : ExchangePair}
    {ops : List Op}
    (fresh : initial.Fresh eth)
    (run : Run (guarded (Current eth) (Step eth)) initial ops final)
    {side : Side}
    (ended : (final.view eth side).sendState = .ended) :
    ∀ link ∈ final.snapshot side,
      lsdbToLsaInfo link ∈ final.passed eth side := by
  have delivering : ∀ side, final.Delivering eth side :=
    run.invariant (fun pair => ∀ side, pair.Delivering eth side)
      Delivering.step fresh.delivering
  exact (delivering side).ended ended

/-- A session of one packet. -/
theorem snapshot_delivered_once :
    ∃ final,
      Run (guarded (Current fun _ => 0) (Step fun _ => 0)) quietPair
        [ .start .left,
          .deliver .right (1, thirdPacket),
          .deliver .left (1, exchangeAck thirdPacket) ] final ∧
      (final.view (fun _ => 0) .left).sendState = .ended ∧
      (final.snapshot .left).map lsdbToLsaInfo = [thirdAdv] ∧
      thirdAdv ∈ final.passed (fun _ => 0) .left := by
  have runs :
      ∃ final,
        Run (guarded (Current fun _ => 0) (Step fun _ => 0)) quietPair
          [ .start .left,
            .deliver .right (1, thirdPacket),
            .deliver .left (1, exchangeAck thirdPacket) ] final ∧
          (final.view (fun _ => 0) .left).sendState = .ended ∧
          (final.snapshot .left).map lsdbToLsaInfo = [thirdAdv] := by
    refine ⟨_,
      .cons ⟨?_, ?_, _, rfl, rfl⟩
        (.cons ⟨?_, ?_, _, rfl, rfl⟩
          (.cons ⟨?_, ?_, _, rfl, rfl⟩ (.nil _))), rfl, rfl⟩
    · change 1 ≤ 2 ^ 32
      decide
    · exact List.cons_ne_nil _ _
    · intro isAck
      cases isAck
    · exact List.mem_singleton.mpr rfl
    · exact fun _ _ _ => rfl
    · exact List.mem_singleton.mpr rfl
  obtain ⟨final, run, ended, snapshot⟩ := runs
  refine ⟨final, run, ended, snapshot, ?_⟩
  have delivered := snapshot_delivered quietPair_fresh run ended
  have member : thirdAdv ∈ (final.snapshot .left).map lsdbToLsaInfo := by
    rw [snapshot]
    exact List.mem_singleton.mpr rfl
  obtain ⟨link, inside, isThird⟩ := List.mem_map.mp member
  rw [← isThird]
  exact delivered link inside

/--
The acknowledgement of the first session arrives in the second one, which has
the same packet numbers, and ends it before its packet was delivered.
-/
theorem stale_ack_ends_session :
    quietPair.Fresh (fun _ => 0) ∧
      ∃ final,
        Run (Step fun _ => 0) quietPair
          [ .start .left,
            .deliver .right (1, thirdPacket),
            .terminate .left,
            .start .left,
            .deliver .left (1, exchangeAck thirdPacket) ] final ∧
        (final.view (fun _ => 0) .left).sendState = .ended ∧
        final.passed (fun _ => 0) .left = [] ∧
        ¬ ∀ link ∈ final.snapshot .left,
          lsdbToLsaInfo link ∈ final.passed (fun _ => 0) .left := by
  refine ⟨quietPair_fresh, _,
    .cons ⟨?_, _, rfl, rfl⟩
      (.cons ⟨?_, _, rfl, rfl⟩
        (.cons ⟨_, rfl, rfl⟩
          (.cons ⟨?_, _, rfl, rfl⟩
            (.cons ⟨?_, _, rfl, rfl⟩ (.nil _))))), rfl, rfl, ?_⟩
  · exact List.cons_ne_nil _ _
  · exact List.mem_singleton.mpr rfl
  · exact List.cons_ne_nil _ _
  · exact List.mem_singleton.mpr rfl
  · intro delivered
    exact absurd (delivered _ List.mem_cons_self) List.not_mem_nil

end ExchangePair

end Pma
