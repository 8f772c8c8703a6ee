import Mathlib.Data.List.Nodup
import Mathlib.Logic.Function.Basic

namespace Pma.LinkedQueue

/-!
# Queues of linked nodes

A queue in memory is a head pointer, the links of the nodes behind it, and a tail
pointer for adding at the end.  The tail pointer means something only while the
queue has a node; in an empty queue it points wherever it did.
-/

variable {Node : Type*}

/-- From a pointer the links lead through these nodes, which are in memory, to null. -/
def Chain (link : Node → Option Node) (null : Node) : Node → List Node → Prop
  | start, [] => start = null
  | start, node :: rest =>
      start = node ∧ node ≠ null ∧ ∃ behind, link node = some behind ∧ Chain link null behind rest

/-- The nodes behind the head, and the last of them at the tail, if there is one. -/
structure Queue (link : Node → Option Node) (null head tail : Node) (nodes : List Node) :
    Prop where
  chain : Chain link null head nodes
  last : ∀ node ∈ nodes.getLast?, tail = node

section

variable {link other : Node → Option Node} {null start : Node} {nodes more : List Node}

namespace Chain

theorem eq_null_iff
    (chain : Chain link null start nodes) :
    start = null ↔ nodes = [] := by
  cases nodes with
  | nil =>
      exact iff_of_true chain rfl
  | cons node rest =>
      obtain ⟨isNode, notNull, _⟩ := chain
      exact iff_of_false (isNode ▸ notNull) (List.cons_ne_nil node rest)

/-- The links lead through one list of nodes only. -/
theorem unique
    (first : Chain link null start nodes)
    (second : Chain link null start more) :
    nodes = more := by
  induction nodes generalizing start more with
  | nil =>
      exact (second.eq_null_iff.mp first).symm
  | cons node rest inductionHypothesis =>
      obtain ⟨isNode, notNull, behind, isBehind, later⟩ := first
      cases more with
      | nil =>
          exact absurd (isNode.symm.trans second) notNull
      | cons otherNode otherRest =>
          obtain ⟨isOther, _, otherBehind, isOtherBehind, otherLater⟩ := second
          cases isNode.symm.trans isOther
          cases isBehind.symm.trans isOtherBehind
          rw [inductionHypothesis later otherLater]

/-- The nodes are in memory. -/
theorem isSome_link
    (chain : Chain link null start nodes)
    {node : Node}
    (member : node ∈ nodes) :
    (link node).isSome := by
  induction nodes generalizing start with
  | nil =>
      cases member
  | cons first rest inductionHypothesis =>
      obtain ⟨_, _, behind, isBehind, later⟩ := chain
      rcases List.mem_cons.mp member with isFirst | inRest
      · rw [isFirst, isBehind]
        rfl
      · exact inductionHypothesis later inRest

/-- A node of the chain starts a chain of fewer nodes. -/
theorem of_mem
    (chain : Chain link null start nodes)
    {node : Node}
    (member : node ∈ nodes) :
    ∃ rest, Chain link null node (node :: rest) ∧ rest.length < nodes.length := by
  induction nodes generalizing start with
  | nil =>
      cases member
  | cons first rest inductionHypothesis =>
      obtain ⟨isFirst, notNull, behind, isBehind, later⟩ := chain
      rcases List.mem_cons.mp member with same | inRest
      · subst same
        exact ⟨rest, ⟨rfl, notNull, behind, isBehind, later⟩, Nat.lt_succ_self _⟩
      · obtain ⟨fewer, found, shorter⟩ := inductionHypothesis later inRest
        exact ⟨fewer, found, Nat.lt_succ_of_lt shorter⟩

/-- No node is passed twice on the way to null. -/
theorem nodup
    (chain : Chain link null start nodes) :
    nodes.Nodup := by
  induction nodes generalizing start with
  | nil =>
      exact List.nodup_nil
  | cons node rest inductionHypothesis =>
      obtain ⟨isNode, notNull, behind, isBehind, later⟩ := chain
      refine List.nodup_cons.mpr ⟨?_, inductionHypothesis later⟩
      intro again
      obtain ⟨fewer, found, shorter⟩ := later.of_mem again
      have whole : Chain link null node (node :: rest) := ⟨rfl, notNull, behind, isBehind, later⟩
      cases whole.unique found
      exact Nat.lt_irrefl _ shorter

/-- Only the links of the nodes matter. -/
theorem congr
    (chain : Chain link null start nodes)
    (same : ∀ node ∈ nodes, other node = link node) :
    Chain other null start nodes := by
  induction nodes generalizing start with
  | nil =>
      exact chain
  | cons node rest inductionHypothesis =>
      rw [List.forall_mem_cons] at same
      obtain ⟨isNode, notNull, behind, isBehind, later⟩ := chain
      exact ⟨isNode, notNull, behind, same.1.trans isBehind, inductionHypothesis later same.2⟩

/-- A chain whose last node is linked to a new node that ends it. -/
theorem snoc
    {last new : Node}
    (chain : Chain link null start (nodes ++ [last]))
    (same : ∀ node ∈ nodes, other node = link node)
    (linked : other last = some new)
    (notNull : new ≠ null)
    (ends : other new = some null) :
    Chain other null start (nodes ++ [last] ++ [new]) := by
  induction nodes generalizing start with
  | nil =>
      obtain ⟨isLast, lastNotNull, _⟩ := chain
      exact ⟨isLast, lastNotNull, new, linked, rfl, notNull, null, ends, rfl⟩
  | cons node rest inductionHypothesis =>
      rw [List.forall_mem_cons] at same
      obtain ⟨isNode, nodeNotNull, behind, isBehind, later⟩ := chain
      exact ⟨isNode, nodeNotNull, behind, same.1.trans isBehind, inductionHypothesis later same.2⟩

end Chain

end

namespace Queue

section

variable {link other : Node → Option Node} {null head tail : Node} {nodes : List Node}

/-- A queue without nodes, wherever its tail points. -/
theorem empty :
    Queue link null null tail [] where
  chain := rfl
  last := nofun

theorem congr
    (queue : Queue link null head tail nodes)
    (same : ∀ node ∈ nodes, other node = link node) :
    Queue other null head tail nodes where
  chain := queue.chain.congr same
  last := queue.last

/-- A first node is the head and the tail. -/
theorem single
    {new : Node}
    (notNull : new ≠ null)
    (ends : link new = some null) :
    Queue link null new new [new] where
  chain := ⟨rfl, notNull, null, ends, rfl⟩
  last := by
    rintro node isLast
    cases isLast
    rfl

/-- The node at the tail of a queue that is not empty. -/
theorem eq_snoc
    (queue : Queue link null head tail nodes)
    (nonempty : head ≠ null) :
    ∃ first, nodes = first ++ [tail] := by
  rcases nodes.eq_nil_or_concat with isEmpty | ⟨first, last, isConcat⟩
  · exact absurd (queue.chain.eq_null_iff.mpr isEmpty) nonempty
  · rw [List.concat_eq_append] at isConcat
    have isTail := queue.last last (by rw [isConcat, List.getLast?_concat]; rfl)
    exact ⟨first, by rw [isConcat, isTail]⟩

/-- A node is linked to the tail and becomes the tail. -/
theorem push
    {new : Node}
    (queue : Queue link null head tail nodes)
    (nonempty : head ≠ null)
    (same : ∀ node ∈ nodes, node ≠ tail → other node = link node)
    (linked : other tail = some new)
    (notNull : new ≠ null)
    (ends : other new = some null) :
    Queue other null head new (nodes ++ [new]) := by
  obtain ⟨first, isSnoc⟩ := queue.eq_snoc nonempty
  have distinct := queue.chain.nodup
  subst isSnoc
  constructor
  · apply Chain.snoc queue.chain _ linked notNull ends
    intro node member
    apply same node (List.mem_append_left _ member)
    rintro rfl
    exact List.disjoint_of_nodup_append distinct member (List.mem_singleton_self _)
  · intro node isLast
    rw [List.getLast?_concat] at isLast
    cases isLast
    rfl

/-- The head moves on to the node behind the first one. -/
theorem pop
    (queue : Queue link null head tail nodes)
    (nonempty : nodes ≠ []) :
    ∃ behind rest,
      nodes = head :: rest ∧
        link head = some behind ∧
        Queue link null behind tail rest := by
  cases nodes with
  | nil =>
      exact absurd rfl nonempty
  | cons node rest =>
      obtain ⟨isNode, _, behind, isBehind, later⟩ := queue.chain
      subst isNode
      refine ⟨behind, rest, rfl, isBehind, later, ?_⟩
      intro last isLast
      apply queue.last last
      cases rest with
      | nil =>
          cases isLast
      | cons second others =>
          rwa [List.getLast?_cons_cons]

end

end Queue

end Pma.LinkedQueue
