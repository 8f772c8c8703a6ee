import Mathlib.Data.List.Basic

namespace Pma.StopAndWait

/-!
# Stop-and-wait with sessions

A sender accepts items, sends them in numbered batches and waits until a batch
is acknowledged before it sends the next; it may also give up what it has at
hand.  A receiver processes whatever batch reaches it, any number of times and
in any order, and acknowledges it.  Items are tickets: the `n`-th accepted item
is `n`.  `Ledger.Sound` is the invariant; its field `ordered` says that what was
not given up is processed in the order of acceptance.
-/

/-- The bookkeeping of one direction of a link. -/
structure Ledger where
  /-- How many items were accepted; the ticket of the next one. -/
  next : ℕ
  /-- Accepted and not sent yet. -/
  queue : List ℕ
  /-- The batches sent so far, in the order of their numbers. -/
  batches : List (List ℕ)
  /-- Whether the last batch still waits for its acknowledgement. -/
  awaiting : Bool
  /-- Given up before they were sent. -/
  discarded : List ℕ
  /-- Given up while their batch waited for its acknowledgement. -/
  abandoned : List ℕ
  /-- What the receiver processed, in its order. -/
  processed : List ℕ
  /-- The batches the receiver acknowledged. -/
  acked : List ℕ
  deriving Repr, DecidableEq

namespace Ledger

/-- Nothing happened yet. -/
def empty : Ledger where
  next := 0
  queue := []
  batches := []
  awaiting := false
  discarded := []
  abandoned := []
  processed := []
  acked := []

/-- The batch with a number. -/
def batch (ledger : Ledger) (number : ℕ) : List ℕ :=
  ledger.batches.getD number []

/-- The sender accepts an item. -/
def accept (ledger : Ledger) : Ledger :=
  { ledger with
    next := ledger.next + 1
    queue := ledger.queue ++ [ledger.next] }

/-- The sender sends the first `count` items of its queue. -/
def send (ledger : Ledger) (count : ℕ) : Ledger :=
  { ledger with
    queue := ledger.queue.drop count
    batches := ledger.batches ++ [ledger.queue.take count]
    awaiting := true }

/-- The receiver processes a batch and acknowledges it. -/
def deliver (ledger : Ledger) (number : ℕ) : Ledger :=
  { ledger with
    processed := ledger.processed ++ ledger.batch number
    acked := ledger.acked ++ [number] }

/-- The sender takes the acknowledgement of the last batch. -/
def acknowledge (ledger : Ledger) : Ledger :=
  { ledger with awaiting := false }

/-- The items of a batch that waits for its acknowledgement. -/
def outstanding (ledger : Ledger) : List ℕ :=
  if ledger.awaiting then ledger.batch (ledger.batches.length - 1) else []

/-- The sender gives up what it has at hand. -/
def giveUp (ledger : Ledger) : Ledger :=
  { ledger with
    queue := []
    awaiting := false
    discarded := ledger.discarded ++ ledger.queue
    abandoned := ledger.abandoned ++ ledger.outstanding }

/-- An item the sender gave up. -/
def Excused (ledger : Ledger) (item : ℕ) : Prop :=
  item ∈ ledger.discarded ∨ item ∈ ledger.abandoned

/--
The invariant: items are sent in the order of their tickets; an acknowledged
batch was processed; every batch but an outstanding one is acknowledged or given
up; and what is not given up is processed in the order of acceptance.
-/
structure Sound (ledger : Ledger) : Prop where
  ascending : (ledger.batches.flatten ++ ledger.queue).Pairwise (· < ·)
  issued : ∀ item ∈ ledger.batches.flatten ++ ledger.queue, item < ledger.next
  kept :
    ∀ item < ledger.next,
      item ∈ ledger.batches.flatten ++ ledger.queue ∨ ledger.Excused item
  answered :
    ∀ number ∈ ledger.acked,
      number < ledger.batches.length ∧
        ∀ item ∈ ledger.batch number, item ∈ ledger.processed
  settled :
    ∀ number < ledger.batches.length,
      (ledger.awaiting = true → number + 1 < ledger.batches.length) →
      number ∈ ledger.acked ∨
        ∀ item ∈ ledger.batch number, ledger.Excused item
  delivered : ∀ item ∈ ledger.processed, item ∈ ledger.batches.flatten
  ordered :
    ∀ first second, first < second →
      ¬ ledger.Excused first →
      second ∈ ledger.processed →
      first ∈ ledger.processed ∧
        ledger.processed.idxOf first < ledger.processed.idxOf second

theorem empty_sound :
    empty.Sound where
  ascending := .nil
  issued := by simp [empty]
  kept := by simp [empty]
  answered := by simp [empty]
  settled := by simp [empty]
  delivered := by simp [empty]
  ordered := by simp [empty]

/-- A batch is the list at its number. -/
theorem batch_eq
    {ledger : Ledger}
    {number : ℕ}
    (sent : number < ledger.batches.length) :
    ledger.batch number = ledger.batches[number] := by
  simp [batch, sent]

/-- What a batch holds was sent. -/
theorem mem_flatten_of_batch
    {ledger : Ledger}
    {number item : ℕ}
    (sent : number < ledger.batches.length)
    (member : item ∈ ledger.batch number) :
    item ∈ ledger.batches.flatten := by
  rw [batch_eq sent] at member
  exact List.mem_flatten.mpr ⟨_, List.getElem_mem sent, member⟩

/-- Earlier batches keep their numbers when another one is sent. -/
theorem batch_send
    {ledger : Ledger}
    {number : ℕ}
    (count : ℕ)
    (sent : number < ledger.batches.length) :
    (ledger.send count).batch number = ledger.batch number := by
  simp [batch, send, List.getElem?_append_left sent]

namespace Sound

variable {ledger : Ledger}

theorem accept
    (sound : ledger.Sound) :
    ledger.accept.Sound where
  ascending := by
    unfold Ledger.accept
    dsimp only
    rw [← List.append_assoc]
    refine List.pairwise_append.mpr
      ⟨sound.ascending, List.pairwise_singleton _ _, ?_⟩
    intro item member last isLast
    rw [List.mem_singleton] at isLast
    rw [isLast]
    exact sound.issued item member
  issued := by
    intro item member
    unfold Ledger.accept at member ⊢
    dsimp only at member ⊢
    rw [← List.append_assoc, List.mem_append, List.mem_singleton] at member
    rcases member with old | isNew
    · exact Nat.lt_succ_of_lt (sound.issued item old)
    · omega
  kept := by
    intro item issued
    unfold Ledger.accept at issued ⊢
    dsimp only at issued ⊢
    rw [← List.append_assoc, List.mem_append, List.mem_singleton]
    by_cases isNew : item = ledger.next
    · exact .inl (.inr isNew)
    · exact (sound.kept item (by omega)).imp_left .inl
  answered := sound.answered
  settled := sound.settled
  delivered := sound.delivered
  ordered := sound.ordered

theorem send
    (sound : ledger.Sound)
    (count : ℕ)
    (idle : ledger.awaiting = false) :
    (ledger.send count).Sound := by
  have sameItems :
      (ledger.send count).batches.flatten ++ (ledger.send count).queue =
        ledger.batches.flatten ++ ledger.queue := by
    unfold Ledger.send
    simp
  have length :
      (ledger.send count).batches.length = ledger.batches.length + 1 := by
    simp [Ledger.send]
  refine
    { ascending := ?_
      issued := ?_
      kept := ?_
      answered := ?_
      settled := ?_
      delivered := ?_
      ordered := sound.ordered }
  · rw [sameItems]
    exact sound.ascending
  · rw [sameItems]
    exact sound.issued
  · rw [sameItems]
    exact sound.kept
  · intro number acked
    obtain ⟨sent, processed⟩ := sound.answered number acked
    refine ⟨by omega, ?_⟩
    rw [batch_send count sent]
    exact processed
  · intro number sent earlier
    have before := earlier rfl
    rw [length] at before
    have old : number < ledger.batches.length := by omega
    rw [batch_send count old]
    exact sound.settled number old fun awaiting => by
      simp [idle] at awaiting
  · intro item member
    unfold Ledger.send
    simp [sound.delivered item member]

theorem acknowledge
    (sound : ledger.Sound)
    (answered : ledger.batches.length - 1 ∈ ledger.acked) :
    ledger.acknowledge.Sound := by
  refine { sound with settled := ?_ }
  intro number sent _
  change number < ledger.batches.length at sent
  by_cases last : number + 1 < ledger.batches.length
  · exact sound.settled number sent fun _ => last
  · have isLast : number = ledger.batches.length - 1 := by omega
    exact .inl (isLast ▸ answered)

theorem giveUp
    (sound : ledger.Sound) :
    ledger.giveUp.Sound := by
  have excused :
      ∀ {item}, ledger.Excused item → ledger.giveUp.Excused item :=
    fun held => held.imp (List.mem_append_left _) (List.mem_append_left _)
  refine
    { ascending := ?_
      issued := ?_
      kept := ?_
      answered := sound.answered
      settled := ?_
      delivered := sound.delivered
      ordered := ?_ }
  · have sent := (List.pairwise_append.mp sound.ascending).1
    simpa [Ledger.giveUp] using sent
  · intro item member
    have sent : item ∈ ledger.batches.flatten := by
      simpa [Ledger.giveUp] using member
    exact sound.issued item (List.mem_append_left _ sent)
  · intro item issued
    rcases sound.kept item issued with member | held
    · rcases List.mem_append.mp member with sent | queued
      · exact .inl (List.mem_append_left _ sent)
      · exact .inr (.inl (List.mem_append_right _ queued))
    · exact .inr (excused held)
  · intro number sent _
    change number < ledger.batches.length at sent
    by_cases last : ledger.awaiting = true ∧ number + 1 = ledger.batches.length
    · -- The outstanding batch is given up.
      right
      intro item member
      right
      apply List.mem_append_right
      unfold outstanding
      rw [if_pos last.1, ← last.2]
      exact member
    · have old := sound.settled number sent fun awaiting => by
        have different : number + 1 ≠ ledger.batches.length :=
          fun same => last ⟨awaiting, same⟩
        omega
      exact old.imp_right fun held item member => excused (held item member)
  · intro first second less notExcused processed
    exact sound.ordered first second less
      (fun held => notExcused (excused held)) processed

/-- In an ascending list the smaller item comes first. -/
theorem idxOf_lt_of_ascending
    {items : List ℕ}
    {first second : ℕ}
    (ascending : items.Pairwise (· < ·))
    (less : first < second)
    (member : first ∈ items)
    (later : second ∈ items) :
    items.idxOf first < items.idxOf second := by
  induction items with
  | nil =>
      cases member
  | cons head rest inductionHypothesis =>
      obtain ⟨headLess, restAscending⟩ := List.pairwise_cons.mp ascending
      by_cases isHead : first = head
      · subst isHead
        rw [List.idxOf_cons_self, List.idxOf_cons_ne _ (Nat.ne_of_lt less)]
        exact Nat.succ_pos _
      · have firstRest : first ∈ rest :=
          (List.mem_cons.mp member).resolve_left isHead
        have secondNotHead : second ≠ head := by
          intro same
          have headBefore := headLess first firstRest
          omega
        have secondRest : second ∈ rest :=
          (List.mem_cons.mp later).resolve_left secondNotHead
        rw [List.idxOf_cons_ne _ (Ne.symm isHead),
          List.idxOf_cons_ne _ (Ne.symm secondNotHead)]
        exact Nat.succ_lt_succ
          (inductionHypothesis restAscending firstRest secondRest)

/-- Everything before an item of a batch is processed or in the same batch. -/
theorem processed_or_batch
    (sound : ledger.Sound)
    {number first second : ℕ}
    (sent : number < ledger.batches.length)
    (less : first < second)
    (notExcused : ¬ ledger.Excused first)
    (member : second ∈ ledger.batch number) :
    first ∈ ledger.processed ∨ first ∈ ledger.batch number := by
  have secondSent := mem_flatten_of_batch sent member
  obtain ⟨sentAscending, -, queuedLater⟩ :=
    List.pairwise_append.mp sound.ascending
  have issued :=
    sound.issued second (List.mem_append_left _ secondSent)
  have place := (sound.kept first (by omega)).resolve_right notExcused
  rcases List.mem_append.mp place with firstSent | queued
  · obtain ⟨other, otherMember, firstMember⟩ := List.mem_flatten.mp firstSent
    obtain ⟨earlier, earlierSent, rfl⟩ := List.mem_iff_getElem.mp otherMember
    rw [← batch_eq earlierSent] at firstMember
    rcases Nat.lt_trichotomy earlier number with before | same | after
    · -- An earlier batch is settled, so it was acknowledged.
      left
      rcases sound.settled earlier earlierSent (fun _ => by omega) with
        acked | excused
      · exact (sound.answered earlier acked).2 first firstMember
      · exact absurd (excused first firstMember) notExcused
    · exact .inr (same ▸ firstMember)
    · rw [List.pairwise_flatten] at sentAscending
      rw [batch_eq earlierSent] at firstMember
      rw [batch_eq sent] at member
      have reversed :=
        List.pairwise_iff_getElem.mp sentAscending.2 number earlier sent
          earlierSent after second member first firstMember
      omega
  · have reversed := queuedLater second secondSent first queued
    omega

theorem deliver
    (sound : ledger.Sound)
    {number : ℕ}
    (sent : number < ledger.batches.length) :
    (ledger.deliver number).Sound := by
  refine
    { ascending := sound.ascending
      issued := sound.issued
      kept := sound.kept
      answered := ?_
      settled := ?_
      delivered := ?_
      ordered := ?_ }
  · intro other acked
    rcases List.mem_append.mp acked with old | isNew
    · obtain ⟨otherSent, processed⟩ := sound.answered other old
      exact ⟨otherSent, fun item member =>
        List.mem_append_left _ (processed item member)⟩
    · rw [List.mem_singleton] at isNew
      subst isNew
      exact ⟨sent, fun item member => List.mem_append_right _ member⟩
  · intro other otherSent earlier
    exact (sound.settled other otherSent earlier).imp_left
      (List.mem_append_left _)
  · intro item member
    rcases List.mem_append.mp member with old | isNew
    · exact sound.delivered item old
    · exact mem_flatten_of_batch sent isNew
  · intro first second less notExcused processed
    change second ∈ ledger.processed ++ ledger.batch number at processed
    change first ∈ ledger.processed ++ ledger.batch number ∧
      (ledger.processed ++ ledger.batch number).idxOf first <
        (ledger.processed ++ ledger.batch number).idxOf second
    by_cases old : second ∈ ledger.processed
    · obtain ⟨firstOld, before⟩ :=
        sound.ordered first second less notExcused old
      rw [List.idxOf_append_of_mem firstOld, List.idxOf_append_of_mem old]
      exact ⟨List.mem_append_left _ firstOld, before⟩
    · have member : second ∈ ledger.batch number :=
        (List.mem_append.mp processed).resolve_left old
      rw [List.idxOf_append_of_notMem old]
      by_cases firstOld : first ∈ ledger.processed
      · refine ⟨List.mem_append_left _ firstOld, ?_⟩
        rw [List.idxOf_append_of_mem firstOld]
        have inside := List.idxOf_lt_length_of_mem firstOld
        omega
      · have firstMember :=
          (sound.processed_or_batch sent less notExcused member).resolve_left
            firstOld
        have batchAscending : (ledger.batch number).Pairwise (· < ·) := by
          rw [batch_eq sent]
          have sentAscending := (List.pairwise_append.mp sound.ascending).1
          exact (List.pairwise_flatten.mp sentAscending).1 _
            (List.getElem_mem sent)
        refine ⟨List.mem_append_right _ firstMember, ?_⟩
        rw [List.idxOf_append_of_notMem firstOld]
        exact Nat.add_lt_add_left
          (idxOf_lt_of_ascending batchAscending less firstMember member) _

end Sound

end Ledger

end Pma.StopAndWait
