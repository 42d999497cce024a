/-
**Chains of links that end in null.**

A node names the next one, or `null`; `next` is partial, so that a link can also lead nowhere.
`Chain next null start nodes` says that following the links from `start` visits exactly `nodes`, in
this order, and ends in `null`.

* `Chain.nodup`: a chain that ends has no cycle.
* `Chain.congr`: only the links of its own nodes matter.
* `Chain.link_injective`, `Chain.start_unlinked`: one link leads to each node of a chain.
* `Chain.append`: a node linked where `null` was becomes the last one of the chain.
* `length_le_of_nodup`: distinct things with numbers below a bound are at most that many, which
  bounds the turns of a loop along a chain.
-/

import Mathlib.Data.List.Nodup
import Mathlib.Data.List.Perm.Subperm
import Mathlib.Logic.Function.Basic

namespace Foundation

variable {Node : Type}

/-- Distinct things with distinct numbers below a bound. -/
theorem length_le_of_nodup {Item : Type} {items : List Item} (number : Item → Nat) {bound : Nat}
    (distinct : (items.map number).Nodup) (below : ∀ item ∈ items, number item < bound) :
    items.length ≤ bound := by
  have inRange : items.map number ⊆ List.range bound := by
    intro value member
    obtain ⟨item, isItem, rfl⟩ := List.mem_map.mp member
    exact List.mem_range.mpr (below item isItem)
  have length := (List.subperm_of_subset distinct inRange).length_le
  rwa [List.length_map, List.length_range] at length

/-- Following the links from `start` visits these nodes and ends in `null`. -/
def Chain (next : Node → Option Node) (null : Node) : Node → List Node → Prop
  | start, [] => start = null
  | start, node :: rest =>
      start = node ∧ node ≠ null ∧ ∃ following, next node = some following ∧
        Chain next null following rest

namespace Chain

variable {next next' : Node → Option Node} {null start : Node} {nodes : List Node}

theorem null_notMem (chain : Chain next null start nodes) : null ∉ nodes := by
  induction nodes generalizing start with
  | nil => exact List.not_mem_nil
  | cons node rest ih =>
      obtain ⟨_, notNull, following, _, chain⟩ := chain
      rw [List.mem_cons]
      rintro (same | member)
      · exact notNull same.symm
      · exact ih chain member

/-- The links decide the chain. -/
theorem unique {nodes' : List Node} (chain : Chain next null start nodes)
    (chain' : Chain next null start nodes') : nodes' = nodes := by
  induction nodes generalizing start nodes' with
  | nil =>
      cases nodes' with
      | nil => rfl
      | cons node rest => exact absurd (chain'.1.symm.trans chain) chain'.2.1
  | cons node rest ih =>
      obtain ⟨rfl, notNull, following, link, chain⟩ := chain
      cases nodes' with
      | nil => exact absurd chain' notNull
      | cons node' rest' =>
          obtain ⟨rfl, _, following', link', chain'⟩ := chain'
          cases link.symm.trans link'
          rw [ih chain chain']

/-- The chain from a node of the chain is the rest of it. -/
theorem suffix {node : Node} (chain : Chain next null start nodes) (member : node ∈ nodes) :
    ∃ before after, nodes = before ++ node :: after ∧ Chain next null node (node :: after) := by
  induction nodes generalizing start with
  | nil => cases member
  | cons first rest ih =>
      have whole := chain
      obtain ⟨rfl, _, following, _, chain⟩ := chain
      rcases List.mem_cons.mp member with rfl | member
      · exact ⟨[], rest, rfl, whole⟩
      · obtain ⟨before, after, rfl, fromNode⟩ := ih chain member
        exact ⟨start :: before, after, rfl, fromNode⟩

/-- **A chain that ends has no cycle.** -/
theorem nodup (chain : Chain next null start nodes) : nodes.Nodup := by
  induction nodes generalizing start with
  | nil => exact List.nodup_nil
  | cons node rest ih =>
      have whole := chain
      obtain ⟨rfl, _, following, _, chain⟩ := chain
      refine List.nodup_cons.mpr ⟨fun member => ?_, ih chain⟩
      -- the chain from a second occurrence would be both the whole list and a shorter one
      obtain ⟨before, after, same, fromNode⟩ := chain.suffix member
      have shorter := congrArg List.length (whole.unique fromNode)
      rw [same] at shorter
      simp only [List.length_cons, List.length_append] at shorter
      omega

/-- Only the links of the nodes of the chain matter. -/
theorem congr (chain : Chain next null start nodes)
    (same : ∀ node ∈ nodes, next' node = next node) : Chain next' null start nodes := by
  induction nodes generalizing start with
  | nil => exact chain
  | cons node rest ih =>
      obtain ⟨first, notNull, following, link, chain⟩ := chain
      exact ⟨first, notNull, following, (same node List.mem_cons_self).trans link,
        ih chain fun other member => same other (List.mem_cons_of_mem node member)⟩

theorem next_isSome (chain : Chain next null start nodes) {node : Node} (member : node ∈ nodes) :
    ∃ following, next node = some following ∧ (following = null ∨ following ∈ nodes) := by
  obtain ⟨before, after, rfl, _, _, following, link, rest⟩ := chain.suffix member
  refine ⟨following, link, ?_⟩
  cases after with
  | nil => exact Or.inl rest
  | cons second others =>
      obtain ⟨rfl, _⟩ := rest
      exact Or.inr (List.mem_append_right before (List.mem_cons_of_mem node List.mem_cons_self))

/-- No node of the chain leads back to its start. -/
theorem start_unlinked {node : Node} (chain : Chain next null start nodes)
    (member : node ∈ nodes) : next node ≠ some start := by
  intro link
  obtain ⟨before, after, same, _, _, following, isLink, rest⟩ := chain.suffix member
  cases link.symm.trans isLink
  have shorter := congrArg List.length (chain.unique rest)
  rw [same] at shorter
  simp only [List.length_cons, List.length_append] at shorter
  omega

/-- Only one node of the chain leads to a node. -/
theorem link_injective {first second target : Node} (chain : Chain next null start nodes)
    (isFirst : first ∈ nodes) (isSecond : second ∈ nodes) (firstLink : next first = some target)
    (secondLink : next second = some target) : first = second := by
  obtain ⟨before, after, same, _, _, following, isLink, rest⟩ := chain.suffix isFirst
  obtain ⟨before', after', same', _, _, following', isLink', rest'⟩ := chain.suffix isSecond
  cases firstLink.symm.trans isLink
  cases secondLink.symm.trans isLink'
  have sameAfter : after' = after := rest.unique rest'
  rw [sameAfter] at same'
  have sameSplit : before ++ first :: after = before' ++ second :: after := same.symm.trans same'
  have sameLength : before.length = before'.length := by
    have lengths := congrArg List.length sameSplit
    simp only [List.length_append, List.length_cons] at lengths
    omega
  exact (List.cons.inj (List.append_inj sameSplit sameLength).2).1

variable {last new : Node}

/-- The last node leads to the null node. -/
theorem last_ends (chain : Chain next null start (nodes ++ [last])) : next last = some null := by
  induction nodes generalizing start with
  | nil =>
      obtain ⟨_, _, following, link, ended⟩ := chain
      exact link.trans (congrArg some ended)
  | cons node rest ih =>
      obtain ⟨_, _, following, _, chain⟩ := chain
      exact ih chain

/-- **A node linked where the chain is empty is its only one.** -/
theorem singleton (notNull : new ≠ null) (newEnds : next new = some null) :
    Chain next null new [new] := ⟨rfl, notNull, null, newEnds, rfl⟩

variable [DecidableEq Node]

/-- **A node linked after the last one is appended.** -/
theorem append (chain : Chain next null start nodes) (member : last ∈ nodes)
    (ends : next last = some null) (newNode : new ∉ nodes) (notNull : new ≠ null)
    (newEnds : next new = some null) :
    Chain (Function.update next last (some new)) null start (nodes ++ [new]) := by
  induction nodes generalizing start with
  | nil => cases member
  | cons node rest ih =>
      obtain ⟨rfl, nodeNotNull, following, link, chain⟩ := chain
      have notNode : new ≠ start := fun same => newNode (same ▸ List.mem_cons_self)
      have notRest : new ∉ rest := fun inRest => newNode (List.mem_cons_of_mem start inRest)
      by_cases same : last = start
      · -- the last node of the chain: nothing follows it
        subst same
        cases link.symm.trans ends
        have empty : rest = [] := (chain.unique (show Chain next null null [] from rfl)).symm
        subst empty
        refine ⟨rfl, nodeNotNull, new, Function.update_self .., rfl, notNull, null, ?_, rfl⟩
        rw [Function.update_of_ne notNode]
        exact newEnds
      · have inRest : last ∈ rest := (List.mem_cons.mp member).resolve_left same
        refine ⟨rfl, nodeNotNull, following, ?_, ih chain inRest notRest⟩
        rw [Function.update_of_ne (Ne.symm same)]
        exact link

end Chain

end Foundation
