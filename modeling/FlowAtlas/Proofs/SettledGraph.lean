import FlowAtlas.Proofs.Pruning

/-! Graphs that pruning leaves as they are. What pruning leaves is such a graph if every decision that the
rounds leave keeps an edge. One that is left with edges out of the graph alone loses them to the last
sweep, after the rounds. -/

namespace FlowAtlas.Graph
variable {g : Graph}

/-- A graph in which nothing is left to prune. -/
structure Settled (g : Graph) : Prop where
  decisions : ∀ id ∈ g, NodeId.isDecision id = true → g.edges id ≠ []
  closed : g.Closed
  again : g.prune = ⟨g, 0⟩

theorem Closed.dropOutside_eq (hclosed : g.Closed) : g.dropOutside = g :=
  mapValues_filter_eq fun id e he => decide_eq_true (hclosed id e he)

theorem settled_of_decisions (hclosed : g.Closed)
    (hdecisions : ∀ id ∈ g, NodeId.isDecision id = true → g.edges id ≠ []) : g.Settled := by
  have hquiet : g.emptyDecisions = [] := List.eq_nil_iff_forall_not_mem.mpr fun id hid => by
    obtain ⟨hmem, hdecision, hedges⟩ := mem_emptyDecisions.mp hid
    exact hdecisions id hmem hdecision hedges
  refine ⟨hdecisions, hclosed, ?_⟩
  rw [prune, pruneRounds_of_quiet hquiet]
  exact congrArg (Pruning.mk · 0) hclosed.dropOutside_eq

/-- Pruning leaves no edge out of the graph. It leaves a graph on which it has nothing more to do exactly if
each decision that does not die has an edge to a key that does not die, and that is so if the edges of
decisions lead to keys. -/
theorem settled_prune_iff (g : Graph) :
    g.prune.graph.Closed ∧
      (g.prune.graph.Settled ↔ ∀ id ∈ g, NodeId.isDecision id = true → ¬ Dies g id →
        ∃ e ∈ g.edges id, e.target ∈ g ∧ ¬ Dies g e.target) ∧
      ((∀ id, NodeId.isDecision id = true → ∀ e ∈ g.edges id, e.target ∈ g) →
        g.prune.graph.Settled) := by
  have hsettled : g.prune.graph.Settled ↔ ∀ id ∈ g, NodeId.isDecision id = true → ¬ Dies g id →
      ∃ e ∈ g.edges id, e.target ∈ g ∧ ¬ Dies g e.target := by
    constructor
    · intro h id hid hdecision hlives
      have hleft : id ∈ g.prune.graph := mem_prune.mpr ⟨hid, hlives⟩
      obtain ⟨e, he⟩ := List.exists_mem_of_ne_nil _ (h.decisions id hleft hdecision)
      obtain ⟨hedge, -, htarget⟩ := mem_edges_prune.mp he
      exact ⟨e, hedge, mem_prune.mp htarget⟩
    · intro h
      refine settled_of_decisions g.closed_prune fun id hleft hdecision => ?_
      obtain ⟨hid, hlives⟩ := mem_prune.mp hleft
      obtain ⟨e, hedge, htarget⟩ := h id hid hdecision hlives
      exact List.ne_nil_of_mem (mem_edges_prune.mpr ⟨hedge, hleft, mem_prune.mpr htarget⟩)
  refine ⟨g.closed_prune, hsettled, fun hkeys => hsettled.mpr fun id hid hdecision hlives => ?_⟩
  -- If all the targets died, the decision would die as well.
  by_contra hnone
  refine hlives (.intro hid hdecision fun e he => ?_)
  by_contra htarget
  exact hnone ⟨e, he, hkeys id hdecision e he, htarget⟩

/-- The only edge of the first decision leads to a second one that is no key. The first one loses the edge
to the last sweep, and stays. A second call takes it away. -/
theorem prune_leaves_empty_decision :
    let first := NodeId.decision 1 "if x"
    let second := NodeId.decision 2 "if y"
    let g : Graph := .ofList [("f", [{ target := first }]), (first, [{ target := second, label := "True" }])]
    g.prune.removed = 0 ∧ first ∈ g.prune.graph ∧ NodeId.isDecision first = true ∧
      g.prune.graph.edges first = [] ∧ g.prune.graph.prune.removed = 1 ∧
      g.prune.graph.prune.graph.keys = ["f"] ∧ ¬ g.prune.graph.Settled := by
  intro first second g
  have hempty : first ∈ g.prune.graph ∧ NodeId.isDecision first = true ∧
      g.prune.graph.edges first = [] := by decide +kernel
  refine ⟨by decide +kernel, hempty.1, hempty.2.1, hempty.2.2, by decide +kernel, by decide +kernel,
    fun h => ?_⟩
  exact h.decisions first hempty.1 hempty.2.1 hempty.2.2

end FlowAtlas.Graph
