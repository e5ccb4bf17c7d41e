import Barista.FirstByKey

/-!
# Breadth-first exploration

A finite graph is explored round by round. The order in which the nodes appear is described
without the rounds, and a search with a queue finds the same order.
-/

namespace Barista

open List Function

structure Graph (α κ : Type) where
  first : List α
  next : α → List α
  key : α → Option κ

namespace Graph

variable {α κ : Type} [DecidableEq κ] (graph : Graph α κ)

def grow (nodes : List α) : List α :=
  firsts graph.key (graph.first ++ nodes.flatMap graph.next)

structure IsOrder (nodes : List α) : Prop where
  reached : ∃ rounds, graph.grow^[rounds] [] = nodes
  complete : graph.grow nodes = nodes

variable {graph} {nodes others : List α} {node : α}

theorem grow_mono (shorter : nodes <+: others) : graph.grow nodes <+: graph.grow others := by
  rcases shorter with ⟨more, rfl⟩
  rw [grow, grow, flatMap_append, ← append_assoc]
  exact firsts_prefix_append _ _

theorem rounds_isPrefix (complete : graph.grow nodes = nodes) (rounds : ℕ) :
    graph.grow^[rounds] [] <+: nodes := by
  induction rounds with
  | zero => exact nil_prefix
  | succ rounds ih =>
    rw [iterate_succ_apply', ← complete]
    exact grow_mono ih

theorem IsOrder.unique (order : graph.IsOrder nodes) (other : graph.IsOrder others) :
    nodes = others := by
  rcases order.reached with ⟨rounds, reached⟩
  rcases other.reached with ⟨otherRounds, otherReached⟩
  have forth := rounds_isPrefix other.complete rounds
  have back := rounds_isPrefix order.complete otherRounds
  rw [reached] at forth
  rw [otherReached] at back
  exact forth.eq_of_length_le back.length_le

theorem nodup_of_complete (complete : graph.grow nodes = nodes) : (nodes.map graph.key).Nodup := by
  rw [← complete]
  exact nodup_firsts _

theorem rounds_mono (rounds : ℕ) : graph.grow^[rounds] [] <+: graph.grow^[rounds + 1] [] := by
  induction rounds with
  | zero => exact nil_prefix
  | succ rounds ih =>
    rw [iterate_succ_apply' _ rounds, iterate_succ_apply' _ (rounds + 1)]
    exact grow_mono ih

theorem exists_round_complete (bounded : ∀ rounds, graph.grow^[rounds] [] <+: nodes) :
    ∃ rounds, graph.grow (graph.grow^[rounds] []) = graph.grow^[rounds] [] := by
  by_contra unfinished
  push Not at unfinished
  have growing : ∀ rounds, rounds ≤ (graph.grow^[rounds] []).length := by
    intro rounds
    induction rounds with
    | zero => exact Nat.zero_le _
    | succ rounds ih =>
      have differs := unfinished rounds
      rw [← iterate_succ_apply' graph.grow rounds []] at differs
      have strict := (rounds_mono rounds).length_le.lt_of_ne fun same =>
        differs ((rounds_mono rounds).eq_of_length same).symm
      omega
  have short := (bounded (nodes.length + 1)).length_le
  have long := growing (nodes.length + 1)
  omega

theorem isOrder_of_complete (complete : graph.grow nodes = nodes)
    (traced : ∀ motive : α → Prop, (∀ node ∈ graph.first, motive node) →
      (∀ node ∈ nodes, motive node → ∀ successor ∈ graph.next node, motive successor) →
      ∀ node ∈ nodes, motive node) : graph.IsOrder nodes := by
  rcases exists_round_complete (rounds_isPrefix complete) with ⟨rounds, stable⟩
  generalize reached : graph.grow^[rounds] [] = listed at stable
  have within : listed <+: nodes := by
    rw [← reached]
    exact rounds_isPrefix complete rounds
  have represented : ∀ node ∈ graph.first ++ listed.flatMap graph.next, ∀ found,
      graph.key node = some found → ∃ other ∈ listed, graph.key other = some found := by
    intro node mem found has
    rw [← stable]
    exact exists_mem_firsts mem has
  have all : ∀ node ∈ nodes, ∀ found, graph.key node = some found →
      ∃ other ∈ listed, graph.key other = some found := by
    apply traced
    · intro node isFirst
      exact represented node (mem_append_left _ isFirst)
    · intro node mem known successor isNext
      rcases exists_key_of_mem_firsts (complete.symm ▸ mem : node ∈ graph.grow nodes) with
        ⟨found, has⟩
      rcases known found has with ⟨other, otherListed, otherHas⟩
      have same : other = node :=
        inj_on_of_nodup_map (nodup_of_complete complete) (within.subset otherListed) mem
          (otherHas.trans has.symm)
      subst same
      exact represented successor
        (mem_append_right _ (mem_flatMap.mpr ⟨other, otherListed, isNext⟩))
  rcases within with ⟨rest, rfl⟩
  have noRest : rest = [] := by
    rw [eq_nil_iff_forall_not_mem]
    intro node mem
    have nodeMem : node ∈ listed ++ rest := mem_append_right _ mem
    rcases exists_key_of_mem_firsts (complete.symm ▸ nodeMem : node ∈ graph.grow (listed ++ rest))
      with ⟨found, has⟩
    rcases all node nodeMem found has with ⟨other, otherListed, otherHas⟩
    have distinct := nodup_of_complete complete
    rw [map_append, nodup_append] at distinct
    exact distinct.2.2 _ (mem_map_of_mem otherListed) _ (mem_map_of_mem mem)
      (otherHas.trans has.symm)
  subst noRest
  rw [append_nil]
  exact ⟨⟨rounds, reached⟩, stable⟩

variable (graph) in
structure Progress (done queue nodes : List α) : Prop where
  nodes_eq : nodes = firsts graph.key done
  split : done ++ queue = graph.first ++ nodes.flatMap graph.next
  traced : ∀ motive : α → Prop, (∀ node ∈ graph.first, motive node) →
    (∀ node ∈ nodes, motive node → ∀ successor ∈ graph.next node, motive successor) →
    ∀ node ∈ done ++ queue, motive node

namespace Progress

variable {done queue : List α}

theorem start : graph.Progress [] graph.first [] where
  nodes_eq := rfl
  split := by simp
  traced := by
    intro motive first _ node mem
    exact first node mem

theorem known {found : κ} (progress : graph.Progress done (node :: queue) nodes)
    (has : graph.key node = some found) (known : ∃ other ∈ nodes, graph.key other = some found) :
    graph.Progress (done ++ [node]) queue nodes where
  nodes_eq := by
    rw [firsts_concat, ← progress.nodes_eq, keepFirst_of_known has known]
  split := by
    rw [append_assoc]
    exact progress.split
  traced := by
    rw [append_assoc]
    exact progress.traced

theorem new {found : κ} (progress : graph.Progress done (node :: queue) nodes)
    (has : graph.key node = some found) (new : ∀ other ∈ nodes, graph.key other ≠ some found) :
    graph.Progress (done ++ [node]) (queue ++ graph.next node) (nodes ++ [node]) where
  nodes_eq := by
    rw [firsts_concat, ← progress.nodes_eq, keepFirst_of_new has new]
  split := by
    rw [flatMap_append, flatMap_singleton, ← append_assoc, ← append_assoc, ← progress.split]
    simp
  traced := by
    intro motive first next other mem
    have old := progress.traced motive first fun parent parentMem =>
      next parent (mem_append_left _ parentMem)
    have regroup : done ++ [node] ++ (queue ++ graph.next node) =
        done ++ node :: queue ++ graph.next node := by simp
    rw [regroup] at mem
    rcases mem_append.mp mem with prior | successor
    · exact old other prior
    · exact next node (mem_append_right _ (mem_singleton_self node))
        (old node (by simp)) other successor

theorem isOrder (progress : graph.Progress done [] nodes) : graph.IsOrder nodes := by
  have complete : graph.grow nodes = nodes := by
    rw [grow, ← progress.split, append_nil, ← progress.nodes_eq]
  apply isOrder_of_complete complete
  intro motive first next node mem
  rw [progress.nodes_eq] at mem
  exact progress.traced motive first next node (mem_append_left _ (mem_of_mem_firsts mem))

end Progress

end Graph

end Barista
