import Pma.LsdAdjacency
import Pma.LsdWire

namespace Pma

open Transition

/-!
# Answers between two routers

Two routers on one link answer an advertisement with what they store: a router
that takes the key for its own answers every other sequence number, any other
router answers older ones.  The rules do not fit together.  When the originator
stores less than its neighbour, each answers the answer of the other, and the
exchange never ends.
-/

/--
Two adjacent routers, the interface each has on their link, and the
advertisements on their way to one of them.
-/
structure LinkPair where
  router : Side → Icm
  eth : Side → EthId
  inFlight : List (Side × LinkStateAdv)

namespace LinkPair

open Icm

/-- The entry a router of the pair stores for a key. -/
def entry (pair : LinkPair) (side : Side) (key : LinkStateKey) :
    Option CrLsdbLinkState :=
  (pair.router side).stored ((pair.router side).zoneOf (pair.eth side)) key

/-- How many advertisements the two routers queued for each other. -/
def floodBacks (pair : LinkPair) : Nat :=
  ((pair.router .left).queuedOn (pair.eth .left)).length +
    ((pair.router .right).queuedOn (pair.eth .right)).length

/-- What a step of a router put on the queue of its interface on the link. -/
def newlyQueued (before after : Icm) (eth : EthId) : List LinkStateAdv :=
  (after.queuedOn eth).drop (before.queuedOn eth).length

/-- The pair after a router took an advertisement out of flight and accepted it. -/
def delivered
    (pair : LinkPair) (side : Side) (lsa : LinkStateAdv) (after : Icm) :
    LinkPair where
  router := Function.update pair.router side after
  eth := pair.eth
  inFlight :=
    pair.inFlight.erase (side, lsa) ++
      (newlyQueued (pair.router side) after (pair.eth side)).map
        fun answer => (side.other, answer)

/--
The delivery of one advertisement in flight: the receiver runs
`accept_lsa_into_lsdb`, and what it queues for its neighbour is in flight then.
-/
def Deliver (pair : LinkPair) (label : Side × LinkStateAdv) (next : LinkPair) :
    Prop :=
  label ∈ pair.inFlight ∧
    ∃ after,
      (pair.router label.1).acceptLsaIntoLsdb (pair.eth label.1) label.2 =
          .ok after ∧
        next = pair.delivered label.1 label.2 after

/-- Both clocks stand still, and no entry of the key is out of date. -/
structure Frozen (pair : LinkPair) (key : LinkStateKey) : Prop where
  still :
    ∀ side reading,
      (pair.router side).clock reading = (pair.router side).clock 0
  fresh :
    ∀ side link, pair.entry side key = some link →
      isOutOfDate ((pair.router side).clock 0) link = false

/-- A router answers an advertisement of a key with the entry it stores. -/
structure Answers
    (pair : LinkPair)
    (side : Side)
    (key : LinkStateKey)
    (seq : UInt32)
    (link : CrLsdbLinkState) : Prop where
  stored : pair.entry side key = some link
  live : (pair.router side).live (pair.eth side) = true
  differs :
    if (pair.router side).isLocal (pair.eth side) key then
      link.seq ≠ seq
    else
      seq < link.seq

/--
The advertisement is answered, the answer is answered, and that answer is
answered in turn.
-/
def PingPong (pair : LinkPair) (side : Side) (lsa : LinkStateAdv) : Prop :=
  ∃ first second,
    pair.Answers side lsa.key lsa.seq first ∧
      pair.Answers side.other lsa.key first.seq second ∧
      pair.Answers side lsa.key second.seq first

/-- With a still clock, a router replies exactly to what it answers. -/
theorem reaction_eq_reply
    {pair : LinkPair}
    {side : Side}
    {lsa : LinkStateAdv}
    {link : CrLsdbLinkState}
    (frozen : pair.Frozen lsa.key)
    (live : (pair.router side).live (pair.eth side) = true) :
    (pair.router side).reaction (pair.eth side) lsa = .reply link ↔
      pair.Answers side lsa.key lsa.seq link := by
  rw [Icm.reaction_eq_reply]
  constructor
  · rintro ⟨found, differs⟩
    refine ⟨found, live, ?_⟩
    split at differs
    · next own =>
        rw [if_pos own]
        exact differs
    · next foreign =>
        rw [if_neg foreign]
        exact differs.2
  · rintro ⟨found, -, differs⟩
    refine ⟨found, ?_⟩
    split at differs
    · next own =>
        rw [if_pos own]
        exact differs
    · next foreign =>
        rw [if_neg foreign]
        refine ⟨?_, differs⟩
        have fresh := frozen.fresh side link found
        unfold nextReading
        rwa [frozen.still]

/-- Two pairs that answer alike: they differ at most in what is in flight. -/
structure Alike (first second : LinkPair) : Prop where
  eth : second.eth = first.eth
  stored : ∀ side, (second.router side).stored = (first.router side).stored
  live : ∀ side, (second.router side).live = (first.router side).live
  router : ∀ side, (second.router side).router = (first.router side).router
  clock : ∀ side, (second.router side).clock = (first.router side).clock

namespace Alike

variable {first second : LinkPair}

theorem entry
    (alike : Alike first second)
    (side : Side)
    (key : LinkStateKey) :
    second.entry side key = first.entry side key := by
  unfold LinkPair.entry zoneOf
  rw [alike.stored, alike.router, alike.eth]

/-- Alike pairs answer the same advertisements. -/
theorem answers
    {side : Side}
    {key : LinkStateKey}
    {seq : UInt32}
    {link : CrLsdbLinkState}
    (alike : Alike first second)
    (answers : first.Answers side key seq link) :
    second.Answers side key seq link where
  stored := (alike.entry side key).trans answers.stored
  live := by
    rw [alike.live, alike.eth]
    exact answers.live
  differs := by
    have differs := answers.differs
    unfold isLocal zoneOf at differs ⊢
    rwa [alike.router, alike.eth]

theorem symm
    (alike : Alike first second) :
    Alike second first where
  eth := alike.eth.symm
  stored := fun side => (alike.stored side).symm
  live := fun side => (alike.live side).symm
  router := fun side => (alike.router side).symm
  clock := fun side => (alike.clock side).symm

/-- The clocks of alike pairs stand still together. -/
theorem frozen
    {key : LinkStateKey}
    (alike : Alike first second)
    (frozen : first.Frozen key) :
    second.Frozen key where
  still := by
    intro side reading
    rw [alike.clock]
    exact frozen.still side reading
  fresh := by
    intro side link found
    rw [alike.clock]
    rw [alike.entry] at found
    exact frozen.fresh side link found

end Alike

/-- What an accepted advertisement puts on the queue of its own interface. -/
theorem acceptedOn_self
    (icm : Icm)
    (eth : EthId)
    (lsa : LinkStateAdv) :
    icm.acceptedOn eth lsa eth =
      match icm.reaction eth lsa with
      | .reply link => if icm.live eth then [lsdbToLsaInfo link] else []
      | _ => [] := by
  unfold acceptedOn
  cases icm.reaction eth lsa with
  | drop =>
      rfl
  | reply link =>
      simp
  | store =>
      simp [forwardEths_self]

section Delivery

variable {pair : LinkPair} {side : Side} {lsa : LinkStateAdv} {after : Icm}

/-- What the receiver of a delivery puts in flight. -/
theorem newlyQueued_eq
    (accepted :
      (pair.router side).acceptLsaIntoLsdb (pair.eth side) lsa = .ok after) :
    newlyQueued (pair.router side) after (pair.eth side) =
      (pair.router side).acceptedOn (pair.eth side) lsa (pair.eth side) := by
  unfold newlyQueued
  rw [acceptLsaIntoLsdb_queuedOn accepted, List.drop_left]

/-- Only the receiver of a delivery queues anything. -/
theorem floodBacks_delivered
    (accepted :
      (pair.router side).acceptLsaIntoLsdb (pair.eth side) lsa = .ok after) :
    (pair.delivered side lsa after).floodBacks =
      pair.floodBacks +
        ((pair.router side).acceptedOn (pair.eth side) lsa
          (pair.eth side)).length := by
  have queued := acceptLsaIntoLsdb_queuedOn accepted (pair.eth side)
  unfold floodBacks delivered
  cases side with
  | left =>
      simp only [Function.update_self, Function.update_of_ne, queued,
        List.length_append, ne_eq, reduceCtorEq, not_false_eq_true]
      omega
  | right =>
      simp only [Function.update_self, Function.update_of_ne, queued,
        List.length_append, ne_eq, reduceCtorEq, not_false_eq_true]
      omega

/-- A delivery that stores nothing leaves the pair alike. -/
theorem alike_delivered
    (accepted :
      (pair.router side).acceptLsaIntoLsdb (pair.eth side) lsa = .ok after)
    (keeps : (pair.router side).reaction (pair.eth side) lsa ≠ .store) :
    Alike pair (pair.delivered side lsa after) := by
  have effect := acceptLsaIntoLsdb_effect accepted
  rw [acceptedEntries_of_ne keeps] at effect
  have others :
      ∀ {α : Type} (observe : Icm → α),
        observe after = observe (pair.router side) →
        ∀ query,
          observe ((pair.delivered side lsa after).router query) =
            observe (pair.router query) := by
    intro α observe same query
    by_cases isSide : query = side
    · subst isSide
      simpa [delivered] using same
    · simp [delivered, isSide]
  exact
    { eth := rfl
      stored := others Icm.stored effect.stored
      live := others Icm.live effect.live
      router := others Icm.router effect.router
      clock := others Icm.clock effect.clock }

/-- The answer to the only advertisement in flight is the next one. -/
theorem delivered_answered
    {link : CrLsdbLinkState}
    (alone : pair.inFlight = [(side, lsa)])
    (frozen : pair.Frozen lsa.key)
    (accepted :
      (pair.router side).acceptLsaIntoLsdb (pair.eth side) lsa = .ok after)
    (answers : pair.Answers side lsa.key lsa.seq link) :
    Alike pair (pair.delivered side lsa after) ∧
      (pair.delivered side lsa after).inFlight =
        [(side.other, lsdbToLsaInfo link)] ∧
      (pair.delivered side lsa after).floodBacks = pair.floodBacks + 1 := by
  have replies := (reaction_eq_reply frozen answers.live).mpr answers
  have queued :
      (pair.router side).acceptedOn (pair.eth side) lsa (pair.eth side) =
        [lsdbToLsaInfo link] := by
    rw [acceptedOn_self, replies]
    simp [answers.live]
  refine ⟨alike_delivered accepted (by simp [replies]), ?_, ?_⟩
  · unfold delivered
    rw [alone, newlyQueued_eq accepted, queued]
    simp
  · rw [floodBacks_delivered accepted, queued]
    rfl

/-- The exchange ends with an advertisement that is not answered. -/
theorem delivered_unanswered
    (alone : pair.inFlight = [(side, lsa)])
    (frozen : pair.Frozen lsa.key)
    (accepted :
      (pair.router side).acceptLsaIntoLsdb (pair.eth side) lsa = .ok after)
    (silent : ∀ link, ¬ pair.Answers side lsa.key lsa.seq link) :
    (pair.delivered side lsa after).inFlight = [] ∧
      (pair.delivered side lsa after).floodBacks = pair.floodBacks := by
  have queued :
      (pair.router side).acceptedOn (pair.eth side) lsa (pair.eth side) =
        [] := by
    rw [acceptedOn_self]
    split
    · next link replies =>
        rw [if_neg]
        intro live
        exact silent link ((reaction_eq_reply frozen live).mp replies)
    · rfl
  constructor
  · unfold delivered
    rw [alone, newlyQueued_eq accepted, queued]
    simp
  · rw [floodBacks_delivered accepted, queued]
    rfl

end Delivery

/--
The delivery of the only advertisement in flight: it is answered and nothing is
stored, or the exchange ends.
-/
theorem Deliver.single
    {pair next : LinkPair}
    {side : Side}
    {lsa : LinkStateAdv}
    {label : Side × LinkStateAdv}
    (frozen : pair.Frozen lsa.key)
    (alone : pair.inFlight = [(side, lsa)])
    (step : Deliver pair label next) :
    (∃ link,
      pair.Answers side lsa.key lsa.seq link ∧
        Alike pair next ∧
        next.inFlight = [(side.other, lsdbToLsaInfo link)] ∧
        next.floodBacks = pair.floodBacks + 1) ∨
      ((∀ link, ¬ pair.Answers side lsa.key lsa.seq link) ∧
        next.inFlight = [] ∧ next.floodBacks = pair.floodBacks) := by
  obtain ⟨flying, after, accepted, rfl⟩ := step
  rw [alone, List.mem_singleton] at flying
  subst flying
  by_cases answered : ∃ link, pair.Answers side lsa.key lsa.seq link
  · obtain ⟨link, answers⟩ := answered
    exact .inl ⟨link, answers, delivered_answered alone frozen accepted answers⟩
  · have silent := not_exists.mp answered
    exact .inr ⟨silent, delivered_unanswered alone frozen accepted silent⟩

/-- Nothing can be delivered when nothing is in flight. -/
theorem run_of_empty
    {pair final : LinkPair}
    {labels : List (Side × LinkStateAdv)}
    (empty : pair.inFlight = [])
    (run : Run Deliver pair labels final) :
    final = pair := by
  cases run with
  | nil =>
      rfl
  | cons first rest =>
      have flying := first.1
      simp [empty] at flying

/-- The key of an entry, seen through its advertisement. -/
theorem Answers.key
    {pair : LinkPair}
    {side : Side}
    {key : LinkStateKey}
    {seq : UInt32}
    {link : CrLsdbLinkState}
    (answers : pair.Answers side key seq link) :
    (lsdbToLsaInfo link).key = key :=
  Lsdb.key_of_find answers.stored

/-- A router stores one entry for a key. -/
theorem Answers.unique
    {pair : LinkPair}
    {side : Side}
    {key : LinkStateKey}
    {firstSeq secondSeq : UInt32}
    {first second : CrLsdbLinkState}
    (earlier : pair.Answers side key firstSeq first)
    (later : pair.Answers side key secondSeq second) :
    first = second :=
  Option.some.inj (earlier.stored.symm.trans later.stored)

/-- One more answer than the exchange it starts. -/
theorem floodBacks_le_succ
    {pair final : LinkPair}
    {side : Side}
    {lsa : LinkStateAdv}
    {labels : List (Side × LinkStateAdv)}
    {bound : Nat}
    (frozen : pair.Frozen lsa.key)
    (alone : pair.inFlight = [(side, lsa)])
    (onward :
      ∀ link next labels final,
        pair.Answers side lsa.key lsa.seq link →
        Alike pair next →
        next.inFlight = [(side.other, lsdbToLsaInfo link)] →
        Run Deliver next labels final →
        final.floodBacks ≤ next.floodBacks + bound)
    (run : Run Deliver pair labels final) :
    final.floodBacks ≤ pair.floodBacks + (bound + 1) := by
  cases run with
  | nil =>
      omega
  | cons first rest =>
      rcases Deliver.single frozen alone first with
        ⟨link, answers, alike, answered, counted⟩ | ⟨-, empty, counted⟩
      · have later := onward link _ _ _ answers alike answered rest
        omega
      · rw [run_of_empty empty rest]
        omega

/-- An advertisement that is not answered ends the exchange. -/
theorem floodBacks_le_of_silent
    {pair final : LinkPair}
    {side : Side}
    {lsa : LinkStateAdv}
    {labels : List (Side × LinkStateAdv)}
    (frozen : pair.Frozen lsa.key)
    (alone : pair.inFlight = [(side, lsa)])
    (silent : ∀ link, ¬ pair.Answers side lsa.key lsa.seq link)
    (run : Run Deliver pair labels final) :
    final.floodBacks ≤ pair.floodBacks + 0 := by
  cases run with
  | nil =>
      omega
  | cons first rest =>
      rcases Deliver.single frozen alone first with
        ⟨link, answers, -⟩ | ⟨-, empty, counted⟩
      · exact absurd answers (silent link)
      · rw [run_of_empty empty rest]
        omega

/-- An exchange that is no ping-pong has at most two answers. -/
theorem floodBacks_le_of_not_pingPong
    {pair final : LinkPair}
    {side : Side}
    {lsa : LinkStateAdv}
    {labels : List (Side × LinkStateAdv)}
    (frozen : pair.Frozen lsa.key)
    (alone : pair.inFlight = [(side, lsa)])
    (ends : ¬ pair.PingPong side lsa)
    (run : Run Deliver pair labels final) :
    final.floodBacks ≤ pair.floodBacks + 2 := by
  refine floodBacks_le_succ frozen alone ?_ run
  intro link next labels final answers alike answered rest
  have nextFrozen := alike.frozen frozen
  rw [← answers.key] at nextFrozen
  refine floodBacks_le_succ nextFrozen answered ?_ rest
  intro back third labels final nextAnswers nextAlike nextAnswered rest
  have thirdFrozen := nextAlike.frozen nextFrozen
  rw [← nextAnswers.key] at thirdFrozen
  refine floodBacks_le_of_silent thirdFrozen nextAnswered ?_ rest
  intro again thirdAnswers
  have backAnswers := alike.symm.answers nextAnswers
  have againAnswers := alike.symm.answers (nextAlike.symm.answers thirdAnswers)
  rw [nextAnswers.key, answers.key, Side.other_other] at againAnswers
  rw [answers.key] at backAnswers
  have same := answers.unique againAnswers
  subst same
  exact ends ⟨link, back, answers, backAnswers, againAnswers⟩

/-- A ping-pong goes on with the roles exchanged. -/
theorem PingPong.step
    {pair : LinkPair}
    {side : Side}
    {lsa : LinkStateAdv}
    (frozen : pair.Frozen lsa.key)
    (alone : pair.inFlight = [(side, lsa)])
    (pingPong : pair.PingPong side lsa) :
    ∃ next answer,
      Deliver pair (side, lsa) next ∧
        answer.key = lsa.key ∧
        next.Frozen answer.key ∧
        next.inFlight = [(side.other, answer)] ∧
        next.PingPong side.other answer ∧
        next.floodBacks = pair.floodBacks + 1 := by
  obtain ⟨first, second, answers, backAnswers, againAnswers⟩ := pingPong
  obtain ⟨after, accepted⟩ :=
    acceptLsaIntoLsdb_returns (Lsdb.rtId_ne_zero_of_find answers.stored)
      (pair.router side) (pair.eth side)
  obtain ⟨alike, answered, counted⟩ :=
    delivered_answered alone frozen accepted answers
  have sameKey := answers.key
  refine ⟨_, lsdbToLsaInfo first,
    ⟨by simp [alone], after, accepted, rfl⟩, sameKey, ?_, answered, ?_, counted⟩
  · rw [sameKey]
    exact alike.frozen frozen
  · refine ⟨second, first, ?_, ?_, ?_⟩
    · rw [sameKey]
      exact alike.answers backAnswers
    · rw [sameKey, Side.other_other]
      exact alike.answers againAnswers
    · rw [sameKey]
      exact alike.answers backAnswers

/-- A ping-pong has as many answers as one waits for. -/
theorem PingPong.unbounded
    {pair : LinkPair}
    {side : Side}
    {lsa : LinkStateAdv}
    (frozen : pair.Frozen lsa.key)
    (alone : pair.inFlight = [(side, lsa)])
    (pingPong : pair.PingPong side lsa)
    (count : Nat) :
    ∃ labels final,
      Run Deliver pair labels final ∧
        final.floodBacks = pair.floodBacks + count := by
  induction count generalizing pair side lsa with
  | zero =>
      exact ⟨[], pair, .nil pair, rfl⟩
  | succ count inductionHypothesis =>
      obtain ⟨next, answer, delivered, -, nextFrozen, answered, goesOn, counted⟩ :=
        pingPong.step frozen alone
      obtain ⟨labels, final, run, total⟩ :=
        inductionHypothesis nextFrozen answered goesOn
      exact ⟨_, final, .cons delivered run, by omega⟩

/--
The answers to one advertisement between two adjacent routers are bounded, over
every order of deliveries, exactly when they are no ping-pong.
-/
theorem floodBacks_bounded_iff
    {pair : LinkPair}
    {side : Side}
    {lsa : LinkStateAdv}
    (frozen : pair.Frozen lsa.key)
    (alone : pair.inFlight = [(side, lsa)]) :
    (∃ bound, ∀ labels final,
      Run Deliver pair labels final → final.floodBacks ≤ bound) ↔
      ¬ pair.PingPong side lsa := by
  constructor
  · rintro ⟨bound, bounded⟩ pingPong
    obtain ⟨labels, final, run, total⟩ :=
      pingPong.unbounded frozen alone (bound + 1)
    have limited := bounded labels final run
    omega
  · intro ends
    exact ⟨_, fun labels final run =>
      floodBacks_le_of_not_pingPong frozen alone ends run⟩

/-! ## A restarted originator -/

/-- The link state router 1 originates for the link to router 2. -/
def linkAdv (seq : UInt32) : LinkStateAdv :=
  { zeroAdv with key := ⟨1, 7, 2, 7⟩, seq := seq }

/--
Router 1 came up again and stores its link state under number 1, while its
neighbour still has number 5; the neighbour's copy is on its way back.
-/
def restarted (seq : UInt32) : LinkPair where
  router
    | .left => upDaemon 1 1 2
    | .right =>
        ((upDaemon 2 2 1).acceptLsaIntoLsdb 0 (linkAdv 5)).toOption.getD
          (upDaemon 2 2 1)
  eth := fun _ => 0
  inFlight := [(.left, linkAdv seq)]

/-- The entries of `restarted`. -/
theorem restarted_entry
    (seq : UInt32) :
    (∃ link, (restarted seq).entry .left (linkAdv seq).key = some link ∧
        link.seq = 1 ∧ link.age = ⟨0, 0⟩) ∧
      ∃ link, (restarted seq).entry .right (linkAdv seq).key = some link ∧
        link.seq = 5 ∧ link.age = ⟨0, 0⟩ :=
  ⟨⟨_, rfl, rfl, rfl⟩, ⟨_, rfl, rfl, rfl⟩⟩

/-- Nothing ages in `restarted`. -/
theorem restarted_frozen
    (seq : UInt32) :
    (restarted seq).Frozen (linkAdv seq).key := by
  obtain ⟨⟨left, leftFound, -, leftAge⟩, right, rightFound, -, rightAge⟩ :=
    restarted_entry seq
  refine
    { still := ?_
      fresh := ?_ }
  · intro side reading
    cases side <;> rfl
  · intro side link found
    cases side with
    | left =>
        rw [leftFound] at found
        cases found
        exact isOutOfDate_self leftAge
    | right =>
        rw [rightFound] at found
        cases found
        exact isOutOfDate_self rightAge

/--
The copy of a restarted originator's link state at its neighbour is answered
for ever, although each router goes by the one id it has.
-/
theorem restarted_unbounded :
    (∀ side,
      (((restarted 5).router side).router.zone 0).rId =
        (((restarted 5).router side).router.zone 0).deviceId) ∧
      (restarted 5).Frozen (linkAdv 5).key ∧
      (restarted 5).inFlight = [(.left, linkAdv 5)] ∧
      ¬ ∃ bound, ∀ labels final,
        Run Deliver (restarted 5) labels final → final.floodBacks ≤ bound := by
  refine ⟨fun side => by cases side <;> rfl, restarted_frozen 5, rfl, ?_⟩
  rintro ⟨bound, bounded⟩
  obtain ⟨⟨left, leftFound, leftSeq, -⟩, right, rightFound, rightSeq, -⟩ :=
    restarted_entry 5
  have pingPong : (restarted 5).PingPong .left (linkAdv 5) := by
    refine ⟨left, right, ⟨leftFound, rfl, ?_⟩, ⟨rightFound, rfl, ?_⟩,
      ⟨leftFound, rfl, ?_⟩⟩
    · change left.seq ≠ 5
      simp [leftSeq]
    · change left.seq < right.seq
      rw [leftSeq, rightSeq]
      decide
    · change left.seq ≠ right.seq
      rw [leftSeq, rightSeq]
      decide
  obtain ⟨labels, final, run, total⟩ :=
    pingPong.unbounded (restarted_frozen 5) rfl (bound + 1)
  have limited := bounded labels final run
  omega

/-- An advertisement equal to what the originator stores is not answered. -/
theorem floodBacks_bounded_restarted :
    ∃ bound, ∀ labels final,
      Run Deliver (restarted 1) labels final → final.floodBacks ≤ bound := by
  refine (floodBacks_bounded_iff (restarted_frozen 1) rfl).mpr ?_
  rintro ⟨first, second, answers, -⟩
  obtain ⟨⟨left, leftFound, leftSeq, -⟩, -⟩ := restarted_entry 1
  have differs := answers.differs
  have stored := answers.stored
  rw [leftFound] at stored
  cases stored
  exact absurd leftSeq differs

end LinkPair

end Pma
