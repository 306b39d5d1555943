import FlowAtlas.Graph

/-! Taking away what leads nowhere: edges out of the graph, and decisions from which no edge leaves,
round by round until none is left. -/

namespace FlowAtlas.Graph

def dropDangling (g : Graph) : Graph :=
  g.mapValues fun _ es => es.filter fun e => NodeId.isDecision e.target || g.contains e.target

def dropOutside (g : Graph) : Graph :=
  g.mapValues fun _ es => es.filter fun e => g.contains e.target

def emptyDecisions (g : Graph) : List NodeId :=
  (g.entries.filter fun (id, es) => NodeId.isDecision id && es.isEmpty).map Prod.fst

def without (g : Graph) (gone : List NodeId) : Graph :=
  (g.filter fun id _ => !gone.contains id).mapValues fun _ es =>
    es.filter fun e => !gone.contains e.target

structure Pruning where
  graph : Graph
  removed : Nat

def pruneRounds : Nat → Graph → Pruning
  | 0, g => ⟨g, 0⟩
  | n + 1, g =>
    let gone := g.emptyDecisions
    if gone.isEmpty then ⟨g, 0⟩
    else
      let r := pruneRounds n (g.without gone)
      { r with removed := gone.length + r.removed }

def prune (g : Graph) : Pruning :=
  let r := pruneRounds (g.size + 1) g
  { r with graph := r.graph.dropOutside }

end FlowAtlas.Graph
