import Pma.Flooding
import Pma.LsdArea

namespace Pma

open Transition

/-!
# Flooding over an area

The routers of an area are a flooding network in the sense of `Pma.Flooding`,
with sequence numbers for levels, as long as no router but the originator takes
the key for its own.  One that does keeps its old entry, and the area does not
converge.
-/

namespace AreaNet

open Icm

variable {V : Type}

/-! ## The area as a flooding network -/

/-- The level of an entry: 0 for none, and one more than its number. -/
def rank : Option CrLsdbLinkState → Nat
  | none => 0
  | some link => link.seq.toNat + 1

/-- The graph of a wired area. -/
def Wired.topology {net : AreaNet V} (wired : net.Wired) :
    Flooding.Topology V (V × EthId) where
  ports v := (net.backbones v).map fun eth => (v, eth)
  owner := Prod.fst
  peer := net.peer
  owner_of_mem := by
    intro v port listed
    obtain ⟨eth, -, rfl⟩ := List.mem_map.mp listed
    rfl
  peer_mem := by
    intro v port listed
    obtain ⟨eth, member, rfl⟩ := List.mem_map.mp listed
    exact List.mem_map.mpr ⟨_, wired.peer_mem v eth member, rfl⟩
  peer_peer := by
    intro v port listed
    obtain ⟨eth, member, rfl⟩ := List.mem_map.mp listed
    exact wired.peer_peer v eth member

/-- An advertisement in flight, seen by its level. -/
def leveled (message : (V × EthId) × LinkStateAdv) : (V × EthId) × Nat :=
  (message.1, message.2.seq.toNat + 1)

/-- The links of the graph are those of the area. -/
theorem Wired.adjacent
    {net : AreaNet V}
    {v w : V}
    (wired : net.Wired)
    (link : net.Adjacent v w) :
    wired.topology.Adjacent v w := by
  obtain ⟨eth, listed, leads⟩ := link
  exact ⟨(v, eth), List.mem_map.mpr ⟨eth, listed, rfl⟩, leads⟩

/-- The levels of an area for one key, and those in flight. -/
def config (net : AreaNet V) (key : LinkStateKey) :
    Flooding.Config V (V × EthId) where
  level v := rank (net.entry v key)
  flying := net.inFlight.map leveled

/-- A delivery, seen by its level. -/
def Delivery.leveled (delivery : Delivery V) : Flooding.Delivery (V × EthId) where
  port := delivery.port
  level := delivery.lsa.seq.toNat + 1
  duplicate := delivery.duplicate

/--
The invariant of an area that floods what `origin` spread: nothing else is in
flight, the number of the advertisement stands for it alone, and the levels are
those of a sound flood.
-/
structure Flooded
    {start : AreaNet V}
    (wired : start.Wired)
    (origin : V)
    (lsa : LinkStateAdv)
    (net : AreaNet V) : Prop where
  keeps : Keeps start net
  frozen : net.Frozen lsa.key
  keys : ∀ message ∈ net.inFlight, message.2.key = lsa.key
  newest :
    ∀ v link, net.entry v lsa.key = some link →
      link.seq = lsa.seq → lsdbToLsaInfo link = lsa
  newestFlying :
    ∀ message ∈ net.inFlight, message.2.seq = lsa.seq → message.2 = lsa
  sound :
    Flooding.Sound wired.topology origin (lsa.seq.toNat + 1) (net.config lsa.key)

section Simulation

variable {start net next : AreaNet V}
  {wired : start.Wired}
  {origin : V}
  {lsa : LinkStateAdv}

/-- A level in flight, for an advertisement in flight. -/
theorem mem_config_flying
    {message : (V × EthId) × LinkStateAdv}
    (flies : message ∈ net.inFlight)
    (key : LinkStateKey) :
    leveled message ∈ (net.config key).flying :=
  List.mem_map.mpr ⟨message, flies, rfl⟩

/-- Advertisements are in flight towards interfaces of the area only. -/
theorem Flooded.listed
    {message : (V × EthId) × LinkStateAdv}
    (flooded : Flooded wired origin lsa net)
    (flies : message ∈ net.inFlight) :
    message.1.2 ∈ net.backbones message.1.1 := by
  have listed := flooded.sound.listed _ (mem_config_flying flies lsa.key)
  obtain ⟨eth, member, isPort⟩ := List.mem_map.mp listed
  rw [flooded.keeps.backbones]
  have sameEth : eth = message.1.2 := congrArg Prod.snd isPort
  exact sameEth ▸ member

/-- The interface an advertisement arrives on lies in the area. -/
theorem Flooded.home
    {message : (V × EthId) × LinkStateAdv}
    (flooded : Flooded wired origin lsa net)
    (flies : message ∈ net.inFlight) :
    (net.router message.1.1).zoneOf message.1.2 = net.zone message.1.1 :=
  (flooded.keeps.wired wired).home _ _ (flooded.listed flies)

variable (named : ∀ v, v ≠ origin → start.rId v ≠ lsa.key.rtId)

include named in
/-- Only the originator takes the key for its own, and it has the greatest number. -/
theorem Flooded.rank_of_local
    {message : (V × EthId) × LinkStateAdv}
    (flooded : Flooded wired origin lsa net)
    (flies : message ∈ net.inFlight)
    (own :
      (net.router message.1.1).isLocal message.1.2 lsa.key = true) :
    rank (net.entry message.1.1 lsa.key) = lsa.seq.toNat + 1 := by
  unfold isLocal at own
  rw [flooded.home flies, decide_eq_true_eq] at own
  have isOrigin : message.1.1 = origin := by
    by_contra other
    apply named _ other
    rw [← flooded.keeps.rId]
    exact own.symm
  rw [isOrigin]
  exact flooded.sound.seeded

include named in
/-- The reaction to an advertisement in flight, by the levels. -/
theorem Flooded.reaction_cases
    {message : (V × EthId) × LinkStateAdv}
    (flooded : Flooded wired origin lsa net)
    (flies : message ∈ net.inFlight) :
    (rank (net.entry message.1.1 lsa.key) < message.2.seq.toNat + 1 ∧
        (net.router message.1.1).reaction message.1.2 message.2 = .store) ∨
      (∃ link,
        net.entry message.1.1 lsa.key = some link ∧
          message.2.seq.toNat < link.seq.toNat ∧
          (net.router message.1.1).reaction message.1.2 message.2 =
            .reply link) ∨
      (rank (net.entry message.1.1 lsa.key) = message.2.seq.toNat + 1 ∧
        (net.router message.1.1).reaction message.1.2 message.2 = .drop) := by
  have ownTop := flooded.rank_of_local named flies
  have upper := flooded.sound.flying_le (mem_config_flying flies lsa.key)
  have home := flooded.home flies
  have sameKey := flooded.keys message flies
  cases found : net.entry message.1.1 lsa.key with
  | none =>
      rw [found] at ownTop
      have foreign :
          (net.router message.1.1).isLocal message.1.2 message.2.key = false := by
        rw [sameKey, Bool.eq_false_iff]
        intro own
        cases ownTop own
      refine .inl ⟨Nat.succ_pos _, reaction_eq_store.mpr ⟨foreign, ?_⟩⟩
      intro link held
      rw [home, sameKey] at held
      cases found.symm.trans held
  | some link =>
      rw [found] at ownTop
      have held :
          (net.router message.1.1).stored
            ((net.router message.1.1).zoneOf message.1.2) message.2.key =
              some link := by
        rw [home, sameKey]
        exact found
      have fresh :
          isOutOfDate (net.router message.1.1).nextReading link = false := by
        unfold nextReading
        rw [flooded.frozen.still]
        exact flooded.frozen.fresh _ link found
      have newest :
          (net.router message.1.1).isLocal message.1.2 message.2.key = true →
            message.2.seq ≤ link.seq := by
        intro own
        rw [sameKey] at own
        have isTop : link.seq.toNat + 1 = lsa.seq.toNat + 1 := ownTop own
        rw [UInt32.le_iff_toNat_le]
        dsimp only [leveled] at upper
        omega
      rw [reaction_of_fresh held fresh newest]
      unfold rank
      simp only [UInt32.lt_iff_toNat_lt, Option.some.injEq]
      rcases Nat.lt_trichotomy link.seq.toNat message.2.seq.toNat with
        less | same | greater
      · exact .inl ⟨by omega, if_pos less⟩
      · refine .inr (.inr ⟨by omega, ?_⟩)
        rw [if_neg (by omega), if_neg (by omega)]
      · refine .inr (.inl ⟨link, rfl, greater, ?_⟩)
        rw [if_neg (by omega), if_pos greater]

/-- Every interface of the area takes advertisements. -/
theorem Flooded.filter_live
    {v : V}
    {eths : List EthId}
    (flooded : Flooded wired origin lsa net)
    (listed : ∀ eth ∈ eths, eth ∈ net.backbones v) :
    eths.filter (net.router v).live = eths := by
  apply List.filter_eq_self.mpr
  intro eth member
  exact (flooded.keeps.wired wired).live v eth (listed eth member)

variable [DecidableEq V]
  {delivery : Delivery V}

include named in
/-- The levels a router answers with are those of the flooding network. -/
theorem Flooded.answer_leveled
    (flooded : Flooded wired origin lsa net)
    (flies : (delivery.port, delivery.lsa) ∈ net.inFlight) :
    (net.answer delivery).map leveled =
      wired.topology.sent delivery.port
        (rank (net.entry delivery.port.1 lsa.key))
        (delivery.lsa.seq.toNat + 1) := by
  have listed := flooded.listed flies
  have home := flooded.home flies
  unfold answer acceptedQueue Flooding.Topology.sent
  rcases flooded.reaction_cases named flies with
    ⟨less, reacts⟩ | ⟨link, found, greater, reacts⟩ | ⟨same, reacts⟩
  · dsimp only at less reacts home
    rw [if_pos less, reacts]
    dsimp only
    have forwarded :
        (net.router delivery.port.1).forwardEths delivery.port.2 =
          (start.backbones delivery.port.1).filter (· ≠ delivery.port.2) := by
      rw [← flooded.keeps.backbones]
      unfold forwardEths AreaNet.backbones
      rw [home]
    rw [flooded.filter_live, forwarded, flooded.keeps.peer]
    · simp only [Wired.topology, List.map_map, List.filter_map]
      congr 1
      apply List.filter_congr
      intro eth _
      simp [Prod.ext_iff]
    · intro eth member
      rw [forwarded] at member
      rw [flooded.keeps.backbones]
      exact List.mem_of_mem_filter member
  · dsimp only at found greater reacts listed
    have isRank : rank (net.entry delivery.port.1 lsa.key) =
        link.seq.toNat + 1 := by
      rw [found]
      rfl
    rw [if_neg (by omega), if_pos (by omega), reacts, isRank]
    dsimp only
    rw [flooded.filter_live (by simpa using listed), flooded.keeps.peer]
    rfl
  · dsimp only at same reacts
    rw [if_neg (by omega), if_neg (by omega), reacts]
    rfl

include named in
/-- A delivery in the area is one in the flooding network. -/
theorem Flooded.simulated
    (flooded : Flooded wired origin lsa net)
    (step : Deliver net delivery next) :
    Flooding.Step wired.topology (net.config lsa.key) delivery.leveled
      (next.config lsa.key) := by
  have flies := step.flies
  have sameKey := flooded.keys _ flies
  obtain ⟨earlier, later, shape, flying⟩ := step.inFlight
  refine ⟨earlier.map leveled, later.map leveled, ?_, ?_, ?_⟩
  · unfold config
    rw [shape, List.map_append, List.map_cons]
    rfl
  · funext v
    by_cases receiver : v = delivery.port.1
    · subst receiver
      change rank (next.entry _ _) =
        Function.update (net.config lsa.key).level delivery.port.1 _ _
      rw [Function.update_self]
      change _ = max (rank (net.entry delivery.port.1 lsa.key))
        (delivery.lsa.seq.toNat + 1)
      have stored := step.entry_receiver (flooded.home flies)
      dsimp only at sameKey
      rw [sameKey] at stored
      rcases flooded.reaction_cases named flies with
        ⟨less, reacts⟩ | ⟨link, found, greater, reacts⟩ | ⟨same, reacts⟩
      · rw [stored, if_pos reacts, max_eq_right less.le]
        rfl
      · rw [stored, if_neg (by simp [reacts])]
        dsimp only at found greater
        rw [found]
        exact (max_eq_left (by simp only [rank]; omega)).symm
      · rw [stored, if_neg (by simp [reacts])]
        exact (max_eq_left same.ge).symm
    · change rank (next.entry _ _) =
        Function.update (net.config lsa.key).level delivery.port.1 _ _
      rw [Function.update_of_ne receiver, step.entry_of_ne receiver]
      rfl
  · unfold config
    dsimp only
    rw [flying, List.map_append, flooded.answer_leveled named flies]
    unfold Delivery.leveled
    cases delivery.duplicate with
    | true =>
        rfl
    | false =>
        simp only [Bool.false_eq_true, if_false, List.map_append]
        rfl

include named in
/-- One delivery keeps the invariant. -/
theorem Flooded.step
    (flooded : Flooded wired origin lsa net)
    (step : Deliver net delivery next) :
    Flooded wired origin lsa next := by
  have flies := step.flies
  have home := flooded.home flies
  have sameKey : delivery.lsa.key = lsa.key := flooded.keys _ flies
  have kept := step.keeps
  have receiverEntry := step.entry_receiver home
  dsimp only at home
  rw [sameKey] at receiverEntry
  -- An entry after the delivery is an old one or the delivered advertisement.
  have entries :
      ∀ v link, next.entry v lsa.key = some link →
        net.entry v lsa.key = some link ∨
          link = lsaToLsdbInfo delivery.lsa ((net.router v).clock 0) := by
    intro v link found
    by_cases receiver : v = delivery.port.1
    · subst receiver
      rw [receiverEntry] at found
      split at found
      · cases found
        unfold Icm.now
        rw [flooded.frozen.still]
        exact .inr rfl
      · exact .inl found
    · rw [step.entry_of_ne receiver] at found
      exact .inl found
  refine
    { keeps := flooded.keeps.trans kept
      frozen := ?_
      keys := step.keys flooded.keys
      newest := ?_
      newestFlying := ?_
      sound := flooded.sound.step (flooded.simulated named step) }
  · constructor
    · intro v reading
      rw [kept.clock]
      exact flooded.frozen.still v reading
    · intro v link found
      rw [kept.clock]
      rcases entries v link found with old | rfl
      · exact flooded.frozen.fresh v link old
      · exact isOutOfDate_self rfl
  · intro v link found sameSeq
    rcases entries v link found with old | rfl
    · exact flooded.newest v link old sameSeq
    · exact flooded.newestFlying _ flies sameSeq
  · intro message messageFlies sameSeq
    rcases step.mem_inFlight messageFlies with stays | answers
    · exact flooded.newestFlying message stays sameSeq
    · rcases mem_answer answers with isLsa | ⟨link, found, isEntry⟩
      · rw [isLsa] at sameSeq ⊢
        exact flooded.newestFlying _ flies sameSeq
      · rw [isEntry] at sameSeq ⊢
        rw [home, sameKey] at found
        exact flooded.newest _ link found sameSeq

include named in
/-- Every run keeps the invariant, and is a run of the flooding network. -/
theorem Flooded.run
    {deliveries : List (Delivery V)}
    (flooded : Flooded wired origin lsa net)
    (run : Run Deliver net deliveries next) :
    Flooded wired origin lsa next ∧
      Run (Flooding.Step wired.topology) (net.config lsa.key)
        (deliveries.map Delivery.leveled) (next.config lsa.key) := by
  obtain ⟨config, simulated, finalFlooded, rfl⟩ :=
    Run.simulates
      (fun state config =>
        Flooded wired origin lsa state ∧ config = state.config lsa.key)
      Delivery.leveled
      (by
        rintro before label after config ⟨held, rfl⟩ step
        exact ⟨_, held.simulated named step, held.step named step, rfl⟩)
      run ⟨flooded, rfl⟩
  exact ⟨finalFlooded, simulated⟩

end Simulation

/-! ## The start of a flood -/

section Start

variable {start : AreaNet V} {origin : V} {lsa : LinkStateAdv}

/-- What was just spread is on its way to every neighbour of the originator. -/
theorem Spread.inFlight
    (wired : start.Wired)
    (spread : start.Spread origin lsa) :
    start.inFlight =
      (start.backbones origin).map
        fun eth => (start.peer (origin, eth), lsa) := by
  obtain ⟨before, spreads, flying⟩ := spread.spread
  have effect := Effect.floodLsaSpread before lsa (start.zone origin)
  rw [← spreads] at effect
  have live := wired.live origin
  unfold AreaNet.backbones at live ⊢
  rw [effect.router, effect.live] at live
  rw [flying, launched]
  rw [spreads, floodLsaSpread_queued, List.drop_left, ← spreads, effect.router,
    List.filter_eq_self.mpr live, List.map_map]
  rfl

/-- The originator starts the flood with the greatest number. -/
theorem Spread.flooded
    (wired : start.Wired)
    (frozen : start.Frozen lsa.key)
    (spread : start.Spread origin lsa) :
    Flooded wired origin lsa start := by
  obtain ⟨own, ownFound, isLsa⟩ := spread.held
  have flying := spread.inFlight wired
  have onlyLsa : ∀ message ∈ start.inFlight, message.2 = lsa := by
    intro message flies
    rw [flying] at flies
    obtain ⟨eth, -, rfl⟩ := List.mem_map.mp flies
    rfl
  have ownSeq : own.seq = lsa.seq := by
    rw [← isLsa, lsdbToLsaInfo_seq]
  have below :
      ∀ v, v ≠ origin → rank (start.entry v lsa.key) < lsa.seq.toNat + 1 := by
    intro v other
    cases found : start.entry v lsa.key with
    | none =>
        exact Nat.succ_pos _
    | some link =>
        have less := spread.older v other link found
        rw [UInt32.lt_iff_toNat_lt] at less
        exact Nat.succ_lt_succ less
  have seeded : rank (start.entry origin lsa.key) = lsa.seq.toNat + 1 := by
    rw [ownFound, ← ownSeq]
    rfl
  have isOrigin :
      ∀ v, rank (start.entry v lsa.key) = lsa.seq.toNat + 1 → v = origin := by
    intro v isTop
    by_contra other
    have less := below v other
    omega
  refine
    { keeps := Keeps.refl start
      frozen := frozen
      keys := fun message flies => by rw [onlyLsa message flies]
      newest := ?_
      newestFlying := fun message flies _ => onlyLsa message flies
      sound := ?_ }
  · intro v link found sameSeq
    have isTop : rank (start.entry v lsa.key) = lsa.seq.toNat + 1 := by
      rw [found, ← sameSeq]
      rfl
    rw [isOrigin v isTop, ownFound] at found
    cases found
    exact isLsa
  · refine
      { seeded := seeded
        bounded := ?_
        listed := ?_
        backed := ?_
        told := ?_ }
    · intro v
      by_cases same : v = origin
      · rw [same]
        exact seeded.le
      · exact (below v same).le
    · intro level member
      obtain ⟨message, flies, rfl⟩ := List.mem_map.mp member
      rw [flying] at flies
      obtain ⟨eth, listed, rfl⟩ := List.mem_map.mp flies
      exact wired.topology.peer_mem (List.mem_map.mpr ⟨eth, listed, rfl⟩)
    · intro level member
      obtain ⟨message, flies, rfl⟩ := List.mem_map.mp member
      rw [flying] at flies
      obtain ⟨eth, listed, rfl⟩ := List.mem_map.mp flies
      change lsa.seq.toNat + 1 ≤
        rank (start.entry (start.peer (start.peer (origin, eth))).1 lsa.key)
      rw [wired.peer_peer origin eth listed]
      exact seeded.ge
    · intro v isTop port listed
      rw [isOrigin v isTop] at listed
      obtain ⟨eth, member, rfl⟩ := List.mem_map.mp listed
      right
      refine List.mem_map.mpr ⟨(start.peer (origin, eth), lsa), ?_, rfl⟩
      rw [flying]
      exact List.mem_map.mpr ⟨eth, member, rfl⟩

end Start

/-! ## Forwarding -/

/--
What a router forwarded since the start: greater and greater numbers of one key,
none above the number it stores.
-/
structure ForwardsRise
    (start : AreaNet V)
    (key : LinkStateKey)
    (net : AreaNet V)
    (v : V)
    (recent : List LinkStateAdv) : Prop where
  forwards : (net.router v).forwards = (start.router v).forwards ++ recent
  keys : ∀ forwarded ∈ recent, forwarded.key = key
  rising : recent.Pairwise fun first second => first.seq < second.seq
  stored : ∀ forwarded ∈ recent, forwarded.seq.toNat + 1 ≤ rank (net.entry v key)

/-- No number of the key is forwarded twice. -/
theorem ForwardsRise.nodup
    {start net : AreaNet V}
    {v : V}
    {recent : List LinkStateAdv}
    {key : LinkStateKey}
    (rise : ForwardsRise start key net v recent) :
    (recent.map fun forwarded => (forwarded.key, forwarded.seq)).Nodup := by
  refine List.pairwise_map.mpr (rise.rising.imp ?_)
  intro first second less same
  have sameSeq : first.seq = second.seq := congrArg Prod.snd same
  rw [sameSeq] at less
  exact UInt32.lt_irrefl _ less

section Forwarding

variable [DecidableEq V]
  {start net next : AreaNet V}
  {wired : start.Wired}
  {origin : V}
  {lsa : LinkStateAdv}
  {delivery : Delivery V}

/-- A router forwards only what it stores, and it stores only greater numbers. -/
theorem ForwardsRise.step
    {v : V}
    {recent : List LinkStateAdv}
    (rise : ForwardsRise start lsa.key net v recent)
    (named : ∀ v, v ≠ origin → start.rId v ≠ lsa.key.rtId)
    (flooded : Flooded wired origin lsa net)
    (step : Deliver net delivery next) :
    ∃ longer, ForwardsRise start lsa.key next v longer := by
  have flies := step.flies
  have sameKey : delivery.lsa.key = lsa.key := flooded.keys _ flies
  have mono := (flooded.simulated named step).level_mono v
  change rank (net.entry v lsa.key) ≤ rank (next.entry v lsa.key) at mono
  have unchanged :
      (next.router v).forwards = (net.router v).forwards →
        ForwardsRise start lsa.key next v recent := by
    intro same
    exact
      { forwards := same.trans rise.forwards
        keys := rise.keys
        rising := rise.rising
        stored := fun forwarded member =>
          (rise.stored forwarded member).trans mono }
  by_cases receiver : v = delivery.port.1
  · subst receiver
    have levels := (flooded.simulated named step).level_owner
    change rank (next.entry delivery.port.1 lsa.key) =
      max (rank (net.entry delivery.port.1 lsa.key))
        (delivery.lsa.seq.toNat + 1) at levels
    have forwards :
        (next.router delivery.port.1).forwards =
          (net.router delivery.port.1).forwards ++
            if (net.router delivery.port.1).reaction delivery.port.2
                delivery.lsa = .store then [delivery.lsa] else [] := by
      obtain ⟨earlier, later, after, -, accepted, rfl⟩ := step
      unfold delivered
      dsimp only
      rw [Function.update_self]
      exact acceptLsaIntoLsdb_forwards accepted
    rcases flooded.reaction_cases named flies with
      ⟨less, reacts⟩ | ⟨link, -, -, reacts⟩ | ⟨-, reacts⟩
    · dsimp only at less reacts
      rw [if_pos reacts] at forwards
      refine ⟨recent ++ [delivery.lsa], ?_, ?_, ?_, ?_⟩
      · rw [forwards, rise.forwards, List.append_assoc]
      · simpa [or_imp, forall_and, sameKey] using rise.keys
      · refine List.pairwise_append.mpr
          ⟨rise.rising, List.pairwise_singleton _ _, ?_⟩
        intro first member second isLast
        rw [List.mem_singleton] at isLast
        have held := rise.stored first member
        rw [isLast, UInt32.lt_iff_toNat_lt]
        omega
      · intro forwarded member
        rcases List.mem_append.mp member with old | isLast
        · exact (rise.stored forwarded old).trans mono
        · rw [List.mem_singleton] at isLast
          rw [isLast, levels]
          exact le_max_right _ _
    · refine ⟨recent, unchanged ?_⟩
      rw [forwards, if_neg (by simp [reacts]), List.append_nil]
    · refine ⟨recent, unchanged ?_⟩
      rw [forwards, if_neg (by simp [reacts]), List.append_nil]
  · refine ⟨recent, unchanged ?_⟩
    obtain ⟨earlier, later, after, -, -, rfl⟩ := step
    unfold delivered
    dsimp only
    rw [Function.update_of_ne receiver]

include wired in
/-- What every router forwarded in a run, since its start. -/
theorem forwardsRise_of_run
    {deliveries : List (Delivery V)}
    (named : ∀ v, v ≠ origin → start.rId v ≠ lsa.key.rtId)
    (flooded : Flooded wired origin lsa start)
    (run : Run Deliver start deliveries net)
    (v : V) :
    ∃ recent, ForwardsRise start lsa.key net v recent := by
  have both := run.invariant
    (fun state =>
      Flooded wired origin lsa state ∧
        ∃ recent, ForwardsRise start lsa.key state v recent)
    (by
      rintro before label after ⟨held, recent, rise⟩ step
      exact ⟨held.step named step, rise.step named held step⟩)
    ⟨flooded, [],
      { forwards := (List.append_nil _).symm
        keys := by simp
        rising := .nil
        stored := by simp }⟩
  exact both.2

end Forwarding

/-! ## Counting -/

/-- How many deliveries take their advertisement out of flight. -/
def removals (deliveries : List (Delivery V)) : Nat :=
  deliveries.countP (! ·.duplicate)

section Counting

variable [DecidableEq V] [Fintype V]
  {start net next : AreaNet V}
  {delivery : Delivery V}
  {deliveries : List (Delivery V)}

/-- Only the receiver of a delivery queues anything. -/
theorem Deliver.enqueued
    (step : Deliver net delivery next) :
    next.enqueued = net.enqueued + (net.answer delivery).length := by
  obtain ⟨earlier, later, after, -, accepted, rfl⟩ := step
  unfold AreaNet.enqueued delivered answer
  rw [← Finset.add_sum_erase _ _ (Finset.mem_univ delivery.port.1),
    ← Finset.add_sum_erase _ (fun v => (net.router v).queued.length)
      (Finset.mem_univ delivery.port.1)]
  have others :
      ∀ v ∈ Finset.univ.erase delivery.port.1,
        (Function.update net.router delivery.port.1 after v).queued.length =
          (net.router v).queued.length := by
    intro v member
    rw [Function.update_of_ne (Finset.ne_of_mem_erase member)]
  rw [Finset.sum_congr rfl others]
  dsimp only
  rw [Function.update_self, acceptLsaIntoLsdb_queued accepted,
    List.length_append, List.length_map]
  omega

/-- What is queued is in flight until it is removed. -/
theorem Deliver.balance
    (step : Deliver net delivery next) :
    next.inFlight.length + (if delivery.duplicate then 0 else 1) + net.enqueued =
      net.inFlight.length + next.enqueued := by
  have queued := step.enqueued
  obtain ⟨earlier, later, shape, flying⟩ := step.inFlight
  rw [queued, flying, List.length_append]
  cases delivery.duplicate with
  | true =>
      simp only [if_true]
      omega
  | false =>
      rw [shape]
      simp only [Bool.false_eq_true, if_false, List.length_append,
        List.length_cons]
      omega

/-- The balance of a run. -/
theorem balance_of_run
    (run : Run Deliver net deliveries next) :
    next.inFlight.length + removals deliveries + net.enqueued =
      net.inFlight.length + next.enqueued := by
  induction run with
  | nil state =>
      rfl
  | cons first rest inductionHypothesis =>
      next start middle final delivery labels =>
        have head := first.balance
        unfold removals at inductionHypothesis ⊢
        rw [List.countP_cons]
        cases duplicate : delivery.duplicate with
        | true =>
            rw [duplicate] at head
            simp only [if_true, Bool.not_true, Bool.false_eq_true, if_false]
              at head ⊢
            omega
        | false =>
            rw [duplicate] at head
            simp only [if_true, Bool.not_false, Bool.false_eq_true, if_false]
              at head ⊢
            omega

/-- The queues of a flooding area are bounded by its potential. -/
theorem enqueued_le
    {origin : V}
    {lsa : LinkStateAdv}
    (wired : start.Wired)
    (named : ∀ v, v ≠ origin → start.rId v ≠ lsa.key.rtId)
    (flooded : Flooded wired origin lsa start)
    (run : Run Deliver start deliveries net) :
    net.enqueued ≤
      start.enqueued +
        (Flooding.potential wired.topology (lsa.seq.toNat + 1)
            (start.config lsa.key) +
          (lsa.seq.toNat + 1) * duplicates deliveries) := by
  have bound := Flooding.flying_add_removals_le (flooded.run named run).2
    flooded.sound
  have sameLength :
      (net.config lsa.key).flying.length = net.inFlight.length :=
    List.length_map _
  have sameRemovals :
      Flooding.removals (deliveries.map Delivery.leveled) =
        removals deliveries :=
    List.countP_map
  have sameDuplicates :
      Flooding.duplicates (deliveries.map Delivery.leveled) =
        duplicates deliveries :=
    List.countP_map
  rw [sameLength, sameRemovals, sameDuplicates] at bound
  have balance := balance_of_run run
  omega

/-- An area in which only the originator takes the key for its own converges. -/
theorem converges_of_named
    {origin : V}
    {lsa : LinkStateAdv}
    (wired : start.Wired)
    (frozen : start.Frozen lsa.key)
    (spread : start.Spread origin lsa)
    (named : ∀ v, v ≠ origin → start.rId v ≠ lsa.key.rtId) :
    start.Converges lsa := by
  have flooded := spread.flooded wired frozen
  refine
    { bounded := ?_
      once := ?_
      settled := ?_ }
  · intro limit
    refine ⟨start.enqueued +
      (Flooding.potential wired.topology (lsa.seq.toNat + 1)
          (start.config lsa.key) + (lsa.seq.toNat + 1) * limit), ?_⟩
    intro deliveries final run few
    have bound := enqueued_le wired named flooded run
    have scaled := Nat.mul_le_mul_left (lsa.seq.toNat + 1) few
    omega
  · intro deliveries final run v
    obtain ⟨recent, rise⟩ := forwardsRise_of_run named flooded run v
    exact ⟨recent, rise.forwards, rise.nodup⟩
  · intro deliveries final run quiet v
    have settled := (flooded.run named run).1
    have isTop := settled.sound.quiescent
      (by simp [config, quiet])
      (Relation.ReflTransGen.mono (fun _ _ => wired.adjacent) _ _
        (wired.connected origin v))
    change rank (final.entry v lsa.key) = lsa.seq.toNat + 1 at isTop
    cases found : final.entry v lsa.key with
    | none =>
        rw [found] at isTop
        cases isTop
    | some link =>
        rw [found] at isTop
        have sameSeq : link.seq = lsa.seq :=
          UInt32.toNat_inj.mp (Nat.succ_inj.mp isTop)
        exact ⟨link, rfl, settled.newest v link found sameSeq⟩

/-! ## A router that takes the key for its own -/

omit [Fintype V] in
/-- A router that takes the key for its own never changes its entry. -/
theorem Deliver.entry_of_own
    {v : V}
    {key : LinkStateKey}
    (step : Deliver net delivery next)
    (keys : ∀ message ∈ net.inFlight, message.2.key = key)
    (own : net.rId v = key.rtId) :
    next.entry v key = net.entry v key := by
  by_cases receiver : v = delivery.port.1
  · subst receiver
    have sameKey : delivery.lsa.key = key := keys _ step.flies
    obtain ⟨earlier, later, after, -, accepted, rfl⟩ := step
    unfold AreaNet.entry delivered
    dsimp only
    rw [Function.update_self, (acceptLsaIntoLsdb_effect accepted).stored]
    by_cases stores :
        (net.router delivery.port.1).reaction delivery.port.2 delivery.lsa =
          .store
    · rw [acceptedEntries_of_store stores]
      apply Entries.write_of_ne
      rintro ⟨home, -⟩
      have foreign := (reaction_eq_store.mp stores).1
      unfold isLocal at foreign
      unfold AreaNet.rId at own
      rw [sameKey, ← home, own] at foreign
      simp at foreign
    · rw [acceptedEntries_of_ne stores]
  · exact step.entry_of_ne receiver key

omit [Fintype V] in
/-- Whatever is in flight can be delivered. -/
theorem exists_deliver
    {key : LinkStateKey}
    (startNonzero : key.rtId ≠ 0)
    (keys : ∀ message ∈ net.inFlight, message.2.key = key)
    (busy : net.inFlight ≠ []) :
    ∃ delivery next, Deliver net delivery next ∧ delivery.duplicate = false := by
  obtain ⟨message, rest, shape⟩ := List.exists_cons_of_ne_nil busy
  have sameKey : message.2.key = key := keys message (by simp [shape])
  obtain ⟨after, accepted⟩ :=
    acceptLsaIntoLsdb_returns (sameKey ▸ startNonzero)
      (net.router message.1.1) message.1.2
  exact ⟨⟨message.1, message.2, false⟩, _,
    ⟨[], rest, after, shape, accepted, rfl⟩, rfl⟩

omit [Fintype V] in
/-- Delivering without duplicates goes on until nothing is in flight. -/
theorem exists_quiet_or_busy
    {key : LinkStateKey}
    (startNonzero : key.rtId ≠ 0)
    (keys : ∀ message ∈ net.inFlight, message.2.key = key)
    (count : Nat) :
    ∃ deliveries final,
      Run Deliver net deliveries final ∧
        duplicates deliveries = 0 ∧
        (final.inFlight = [] ∨ removals deliveries = count) := by
  induction count generalizing net with
  | zero =>
      exact ⟨[], net, .nil net, rfl, .inr rfl⟩
  | succ count inductionHypothesis =>
      by_cases quiet : net.inFlight = []
      · exact ⟨[], net, .nil net, rfl, .inl quiet⟩
      · obtain ⟨delivery, next, step, once⟩ :=
          exists_deliver startNonzero keys quiet
        obtain ⟨deliveries, final, run, none, ends⟩ :=
          inductionHypothesis (step.keys keys)
        refine ⟨delivery :: deliveries, final, .cons step run, ?_, ?_⟩
        · unfold duplicates at none ⊢
          rw [List.countP_cons, none]
          simp [once]
        · refine ends.imp_right fun counted => ?_
          unfold removals at counted ⊢
          rw [List.countP_cons, counted]
          simp [once]

/-- A router that takes the key of another for its own keeps the area apart. -/
theorem not_converges_of_own
    {origin other : V}
    {lsa : LinkStateAdv}
    (wired : start.Wired)
    (spread : start.Spread origin lsa)
    (different : other ≠ origin)
    (own : start.rId other = lsa.key.rtId) :
    ¬ start.Converges lsa := by
  intro converges
  obtain ⟨held, heldFound, -⟩ := spread.held
  have startNonzero := Lsdb.rtId_ne_zero_of_find heldFound
  have keys : ∀ message ∈ start.inFlight, message.2.key = lsa.key := by
    intro message flies
    rw [spread.inFlight wired] at flies
    obtain ⟨eth, -, rfl⟩ := List.mem_map.mp flies
    rfl
  obtain ⟨bound, bounded⟩ := converges.bounded 0
  obtain ⟨deliveries, final, run, none, ends⟩ :=
    exists_quiet_or_busy startNonzero keys (start.inFlight.length + bound + 1)
  have quiet : final.inFlight = [] := by
    rcases ends with quiet | counted
    · exact quiet
    · have limited := bounded deliveries final run none.le
      have balance := balance_of_run run
      omega
  have unchanged := run.invariant
    (fun state =>
      (∀ message ∈ state.inFlight, message.2.key = lsa.key) ∧
        state.rId other = lsa.key.rtId ∧
        state.entry other lsa.key = start.entry other lsa.key)
    (by
      rintro before label after ⟨beforeKeys, beforeOwn, same⟩ step
      exact ⟨step.keys beforeKeys, (step.keeps.rId other).trans beforeOwn,
        (step.entry_of_own beforeKeys beforeOwn).trans same⟩)
    ⟨keys, own, rfl⟩
  obtain ⟨link, found, isLsa⟩ := converges.settled deliveries final run quiet other
  rw [unchanged.2.2] at found
  have less := spread.older other different link found
  have sameSeq : link.seq = lsa.seq := congrArg LinkStateAdv.seq isLsa
  rw [sameSeq] at less
  exact UInt32.lt_irrefl _ less

/--
Flooding converges exactly when no router but the originator has the router id
the key starts with.
-/
theorem converges_iff
    {origin : V}
    {lsa : LinkStateAdv}
    (wired : start.Wired)
    (frozen : start.Frozen lsa.key)
    (spread : start.Spread origin lsa) :
    start.Converges lsa ↔
      ∀ v, v ≠ origin → start.rId v ≠ lsa.key.rtId := by
  constructor
  · intro converges v different own
    exact not_converges_of_own wired spread different own converges
  · exact converges_of_named wired frozen spread

end Counting

/-! ## Two routers -/

/-- The link state router 1 stores for the link to router 2. -/
def pairAdv : LinkStateAdv :=
  ((upDaemon 1 1 2).stored 0 ⟨1, 7, 2, 7⟩).elim zeroAdv lsdbToLsaInfo

/--
Router 1 has just spread its link state to its only neighbour.  The device id of
the neighbour is 2; its router id is 1 when it is misnamed, and 2 otherwise.
-/
def pairArea (misnamed : Bool) : AreaNet Bool where
  router
    | true => (upDaemon 1 1 2).floodLsaSpread pairAdv 0
    | false => upDaemon (bif misnamed then 1 else 2) 2 1
  zone := fun _ => 0
  peer := fun port => (!port.1, 0)
  inFlight := [((false, 0), pairAdv)]

/-- Each of the two routers has one interface. -/
theorem pairArea_backbones
    (misnamed v : Bool) :
    (pairArea misnamed).backbones v = [0] := by
  cases misnamed <;> cases v <;> rfl

theorem pairArea_wired
    (misnamed : Bool) :
    (pairArea misnamed).Wired := by
  have only :
      ∀ v, ∀ eth ∈ (pairArea misnamed).backbones v, eth = 0 := by
    intro v eth listed
    rw [pairArea_backbones] at listed
    exact List.mem_singleton.mp listed
  have across : ∀ v, (pairArea misnamed).Adjacent v (!v) := by
    intro v
    refine ⟨0, ?_, rfl⟩
    rw [pairArea_backbones]
    exact List.mem_singleton.mpr rfl
  refine
    { home := ?_
      peer_mem := ?_
      peer_peer := ?_
      live := ?_
      connected := ?_ }
  · intro v eth listed
    rw [only v eth listed]
    cases misnamed <;> cases v <;> rfl
  · intro v eth _
    rw [pairArea_backbones]
    exact List.mem_singleton.mpr rfl
  · intro v eth listed
    rw [only v eth listed]
    cases misnamed <;> cases v <;> rfl
  · intro v eth listed
    rw [only v eth listed]
    cases misnamed <;> cases v <;> rfl
  · intro v w
    by_cases same : v = w
    · rw [same]
    · have isOther : w = !v := by
        cases v <;> cases w <;> simp_all
      rw [isOther]
      exact .single (across v)

theorem pairArea_frozen
    (misnamed : Bool) :
    (pairArea misnamed).Frozen pairAdv.key := by
  refine
    { still := ?_
      fresh := ?_ }
  · intro v reading
    cases misnamed <;> cases v <;> rfl
  · intro v link found
    cases v with
    | true =>
        cases found
        rfl
    | false =>
        cases misnamed <;> cases found

theorem pairArea_spread
    (misnamed : Bool) :
    (pairArea misnamed).Spread true pairAdv := by
  refine
    { held := ⟨_, rfl, rfl⟩
      older := ?_
      spread := ⟨upDaemon 1 1 2, rfl, rfl⟩ }
  intro v different link found
  cases v with
  | true =>
      exact absurd rfl different
  | false =>
      cases misnamed <;> cases found

/--
The neighbour has the router id 1, and router 1 the device id 1: the neighbour
takes the key of router 1 for its own and never stores it.
-/
theorem pairArea_not_converges :
    (pairArea true).Wired ∧
      (pairArea true).Frozen pairAdv.key ∧
      (pairArea true).Spread true pairAdv ∧
      pairAdv.key.rtId =
        (((pairArea true).router true).router.zone 0).deviceId ∧
      (((pairArea true).router false).router.zone 0).deviceId = 2 ∧
      ¬ (pairArea true).Converges pairAdv :=
  ⟨pairArea_wired true, pairArea_frozen true, pairArea_spread true, rfl, rfl,
    not_converges_of_own (pairArea_wired true) (pairArea_spread true)
      Bool.false_ne_true rfl⟩

/-- With equal ids at the neighbour, the two routers converge. -/
theorem pairArea_converges :
    (pairArea false).Converges pairAdv := by
  refine (converges_iff (pairArea_wired false) (pairArea_frozen false)
    (pairArea_spread false)).mpr ?_
  intro v different
  cases v with
  | true =>
      exact absurd rfl different
  | false =>
      decide

end AreaNet

end Pma
