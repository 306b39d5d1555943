import FlowAtlas.Proofs.Pruning
import Mathlib.Data.Set.Card
import Mathlib.Order.Bounds.Defs

/-! Dead ends. Pruning takes away the least set of decisions that has every decision all of whose edges
go into the set, and counts it. Everything else stays in its order, with its edges to what stays. -/

namespace FlowAtlas.Graph
variable {g : Graph} {n : Nat}

/-- A set of decisions that has every decision all of whose edges go into the set. -/
structure DeadEnds (g : Graph) (gone : Set NodeId) : Prop where
  decisions : ∀ id ∈ gone, id ∈ g ∧ NodeId.isDecision id = true
  closed : ∀ id ∈ g, NodeId.isDecision id = true → (∀ e ∈ g.edges id, e.target ∈ gone) → id ∈ gone

theorem isLeast_dies (g : Graph) : IsLeast {gone | g.DeadEnds gone} {id | Dies g id} := by
  constructor
  · exact ⟨fun id hid => ⟨hid.mem, hid.decision⟩, fun id hmem hdecision hedges =>
      .intro hmem hdecision hedges⟩
  · intro gone hgone id hid
    induction hid with
    | intro hmem hdecision _ ih => exact hgone.closed _ hmem hdecision ih

theorem pruneRounds_of_le (hquiet : (pruneRounds n g).graph.emptyDecisions = []) {m : Nat}
    (hm : n ≤ m) : pruneRounds m g = pruneRounds n g := by
  induction n generalizing g m with
  | zero => exact pruneRounds_of_quiet hquiet m
  | succ n ih =>
    by_cases hgone : g.emptyDecisions = []
    · rw [pruneRounds_of_quiet hgone, pruneRounds_of_quiet hgone]
    · obtain ⟨m, rfl⟩ := Nat.exists_eq_add_of_lt hm
      rw [pruneRounds_succ hgone] at hquiet
      rw [pruneRounds_succ hgone, pruneRounds_succ hgone, ih hquiet (Nat.le_add_right n m)]

/-- The rounds leave no empty decision: a decision whose edges they took away would have died. -/
theorem emptyDecisions_pruneRounds (g : Graph) :
    (pruneRounds (g.size + 1) g).graph.emptyDecisions = [] := by
  obtain ⟨gone, _, hgone, hrounds, _⟩ := g.exists_prune_eq
  rw [hrounds]
  refine List.eq_nil_iff_forall_not_mem.mpr fun id hid => ?_
  obtain ⟨hmem, hdecision, hedges⟩ := mem_emptyDecisions.mp hid
  obtain ⟨hmem, hkept⟩ := mem_without.mp hmem
  refine hkept ((hgone id).mpr (.intro hmem hdecision fun e he => ?_))
  by_contra htarget
  have hleft : e ∈ (g.without gone).edges id :=
    mem_edges_without.mpr ⟨he, hkept, fun h => htarget ((hgone e.target).mp h)⟩
  rw [hedges] at hleft
  cases hleft

theorem keys_prune (g : Graph) : g.prune.graph.keys = g.keys.filter g.prune.graph.contains := by
  obtain ⟨gone, _, _, _, hprune⟩ := g.exists_prune_eq
  have hkeys : g.prune.graph.keys = g.keys.filter fun id => !gone.contains id := by
    rw [hprune, dropOutside, Table.keys_mapValues, without, Table.keys_mapValues, Table.keys_filter]
  refine hkeys.trans (List.filter_congr fun id hid => ?_)
  rw [Bool.eq_iff_iff]
  simp [Table.contains, Table.mem_iff, hkeys, hid]

theorem setOf_gone_eq (g : Graph) : {id | id ∈ g ∧ id ∉ g.prune.graph} = {id | Dies g id} := by
  ext id
  simp only [Set.mem_ofPred_eq, mem_prune, not_and, not_not]
  exact ⟨fun h => h.2 h.1, fun h => ⟨h.mem, fun _ => h⟩⟩

theorem removed_prune (g : Graph) :
    g.prune.removed = {id | id ∈ g ∧ id ∉ g.prune.graph}.ncard := by
  obtain ⟨gone, hnodup, hgone, _, hprune⟩ := g.exists_prune_eq
  have hset : {id | id ∈ g ∧ id ∉ g.prune.graph} = (gone.toFinset : Set NodeId) := by
    rw [setOf_gone_eq]
    ext id
    simp [hgone]
  rw [hset, Set.ncard_coe_finset, List.toFinset_card_of_nodup hnodup, hprune]

/-- Pruning takes away the least set of dead ends and gives its size. The other keys stay in their order,
each with its edges to keys that stay. As many rounds as there are keys, and one more, find all of it. -/
theorem prune_exact (g : Graph) :
    IsLeast {gone | g.DeadEnds gone} {id | id ∈ g ∧ id ∉ g.prune.graph} ∧
      g.prune.removed = {id | id ∈ g ∧ id ∉ g.prune.graph}.ncard ∧
      g.prune.graph.keys = g.keys.filter g.prune.graph.contains ∧
      (∀ id ∈ g.prune.graph, g.prune.graph.edges id =
        (g.edges id).filter fun e => g.prune.graph.contains e.target) ∧
      (pruneRounds (g.size + 1) g).graph.emptyDecisions = [] ∧
      ∀ n, g.size < n → pruneRounds n g = pruneRounds (g.size + 1) g := by
  have hquiet := g.emptyDecisions_pruneRounds
  refine ⟨?_, g.removed_prune, g.keys_prune, fun _ => edges_prune, hquiet,
    fun n hn => pruneRounds_of_le hquiet hn⟩
  rw [setOf_gone_eq]
  exact g.isLeast_dies

end FlowAtlas.Graph
