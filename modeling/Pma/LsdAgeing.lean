import Pma.LsdEffect

namespace Pma

open Transition

/-!
# Ageing of stored link states

An originator floods each of its keys again every 30 seconds with a greater
sequence number.  A receiver takes an entry for out of date 15 seconds after it
was stored, and whenever its clock was stepped back, and replaces an outdated
entry by whatever arrives next.  So an old advertisement can bring the stored
sequence number down between two refreshes.
-/

namespace Icm

/-- An advertisement and the interface it arrives on. -/
abbrev Arrival := EthId × LinkStateAdv

/-- The arrival of one advertisement. -/
def arrive (icm : Icm) (arrival : Arrival) : Except Fault Icm :=
  icm.acceptLsaIntoLsdb arrival.1 arrival.2

/-- What is stored for a key is still stored, under no smaller sequence number. -/
def Nondecreasing (zone : ZoneId) (key : LinkStateKey) (before after : Icm) :
    Prop :=
  ∀ link, before.stored zone key = some link →
    ∃ later, after.stored zone key = some later ∧ link.seq ≤ later.seq

/--
An advertisement of the key with a smaller sequence number than the stored one
arrives while the entry is not out of date, or is taken for a local one.
-/
def Timely (zone : ZoneId) (key : LinkStateKey) (icm : Icm) (arrival : Arrival) :
    Prop :=
  icm.zoneOf arrival.1 = zone →
  arrival.2.key = key →
  ∀ link, icm.stored zone key = some link →
    arrival.2.seq < link.seq →
    isOutOfDate icm.nextReading link = false ∨
      icm.isLocal arrival.1 key = true

theorem Nondecreasing.refl
    (zone : ZoneId)
    (key : LinkStateKey)
    (icm : Icm) :
    Nondecreasing zone key icm icm :=
  fun link found => ⟨link, found, UInt32.le_refl _⟩

theorem Nondecreasing.trans
    {zone : ZoneId}
    {key : LinkStateKey}
    {first second third : Icm}
    (earlier : Nondecreasing zone key first second)
    (later : Nondecreasing zone key second third) :
    Nondecreasing zone key first third := by
  intro link found
  obtain ⟨middle, middleFound, middleLe⟩ := earlier link found
  obtain ⟨last, lastFound, lastLe⟩ := later middle middleFound
  exact ⟨last, lastFound, UInt32.le_trans middleLe lastLe⟩

/-- A timely arrival does not bring the stored sequence number down. -/
theorem Timely.nondecreasing
    {zone : ZoneId}
    {key : LinkStateKey}
    {before after : Icm}
    {arrival : Arrival}
    (timely : Timely zone key before arrival)
    (arrived : before.arrive arrival = .ok after) :
    Nondecreasing zone key before after := by
  obtain ⟨eth, lsa⟩ := arrival
  have stored := (acceptLsaIntoLsdb_effect arrived).stored
  intro link found
  by_cases stores : before.reaction eth lsa = .store
  · rw [stored, acceptedEntries_of_store stores]
    obtain ⟨foreign, replaces⟩ := reaction_eq_store.mp stores
    by_cases same : zone = before.zoneOf eth ∧ key = lsa.key
    · obtain ⟨rfl, rfl⟩ := same
      refine ⟨_, Entries.write_self before.stored _ _, ?_⟩
      by_contra decreased
      have older : lsa.seq < link.seq := UInt32.not_le.mp decreased
      rcases replaces link found with outdated | newer
      · rcases timely rfl rfl link found older with fresh | own
        · simp [outdated] at fresh
        · simp [foreign] at own
      · exact UInt32.lt_asymm older newer
    · exact ⟨link, (Entries.write_of_ne _ same).trans found, UInt32.le_refl _⟩
  · rw [stored, acceptedEntries_of_ne stores]
    exact ⟨link, found, UInt32.le_refl _⟩

/-- An arrival that is not timely brings the stored sequence number down. -/
theorem decreases_of_not_timely
    {zone : ZoneId}
    {key : LinkStateKey}
    {before : Icm}
    {arrival : Arrival}
    (late : ¬ Timely zone key before arrival) :
    ∃ after,
      before.arrive arrival = .ok after ∧
        ¬ Nondecreasing zone key before after := by
  obtain ⟨eth, lsa⟩ := arrival
  unfold Timely at late
  dsimp only at late
  push Not at late
  obtain ⟨rfl, rfl, link, found, older, outdated, foreign⟩ := late
  obtain ⟨after, arrived⟩ :=
    acceptLsaIntoLsdb_returns (Lsdb.rtId_ne_zero_of_find found) before eth
  refine ⟨after, arrived, ?_⟩
  intro nondecreasing
  obtain ⟨later, laterFound, notLess⟩ := nondecreasing link found
  have effect := acceptLsaIntoLsdb_effect arrived
  have stores : before.reaction eth lsa = .store := by
    refine reaction_eq_store.mpr ⟨by simpa using foreign, ?_⟩
    intro other otherFound
    rw [found] at otherFound
    cases otherFound
    exact .inl (by simpa using outdated)
  have replaced := Entries.write_self before.stored (before.zoneOf eth)
    (lsaToLsdbInfo lsa before.now)
  rw [effect.stored, acceptedEntries_of_store stores] at laterFound
  cases replaced.symm.trans laterFound
  exact UInt32.not_le.mpr older notLess

/--
Along a run of arrivals the sequence number stored for a key never decreases,
between no two states of the run, exactly when every arrival of the run is
timely.
-/
theorem seq_nondecreasing_iff
    (initial : Icm)
    (arrivals : List Arrival)
    (zone : ZoneId)
    (key : LinkStateKey) :
    (∀ first second third before after,
        arrivals = first ++ (second ++ third) →
        Run (ofPartial arrive) initial first before →
        Run (ofPartial arrive) before second after →
        Nondecreasing zone key before after) ↔
      ∀ first arrival rest before,
        arrivals = first ++ arrival :: rest →
        Run (ofPartial arrive) initial first before →
        Timely zone key before arrival := by
  constructor
  · intro nondecreasing first arrival rest before shape run
    by_contra late
    obtain ⟨after, arrived, decreases⟩ := decreases_of_not_timely late
    exact decreases (nondecreasing first [arrival] rest before after shape run
      (.cons arrived (.nil after)))
  · intro timely first second
    induction second generalizing first with
    | nil =>
        intro third before after shape earlier later
        cases later
        exact .refl zone key before
    | cons arrival rest inductionHypothesis =>
        intro third before after shape earlier later
        cases later with
        | cons arrived remaining =>
            have head :=
              (timely first arrival (rest ++ third) before shape
                earlier).nondecreasing arrived
            refine head.trans (inductionHypothesis (first ++ [arrival]) third
              _ after ?_ (earlier.snoc arrived) remaining)
            simpa using shape

/-- An advertisement of a neighbour's key. -/
def refreshAdv (seq : UInt32) : LinkStateAdv :=
  { zeroAdv with key := ⟨2, 9, 1, 7⟩, seq := seq }

/-- Readings of a clock: the first at 0 s, two more at 20 s, the others at 30 s. -/
def refreshClock (reading : Nat) : Timeval :=
  if reading = 0 then ⟨0, 0⟩ else if reading ≤ 2 then ⟨20, 0⟩ else ⟨30, 0⟩

/--
The originator floods number 5 at 0 s and number 6 at 30 s, and both are
accepted; number 4 arrives late, 20 s after the first, and is stored as well.
-/
theorem stored_seq_decreases :
    ∃ initial first second third,
      Run (ofPartial step)
        (boot refreshClock (lsaToLsdbInfo zeroAdv ⟨0, 0⟩) (oneLinkTable 10 1 2))
        [.interfaces (oneLinkTable 10 1 2)] initial ∧
      initial.arrive (0, refreshAdv 5) = .ok first ∧
      first.arrive (0, refreshAdv 4) = .ok second ∧
      second.arrive (0, refreshAdv 6) = .ok third ∧
      (first.stored 0 (refreshAdv 5).key).map (·.seq) = some 5 ∧
      (second.stored 0 (refreshAdv 5).key).map (·.seq) = some 4 ∧
      (third.stored 0 (refreshAdv 5).key).map (·.seq) = some 6 :=
  ⟨_, _, _, _, .cons rfl (.nil _), rfl, rfl, rfl, rfl, rfl, rfl⟩

end Icm

end Pma
