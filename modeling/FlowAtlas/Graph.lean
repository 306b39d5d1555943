import FlowAtlas.NodeId
import FlowAtlas.Order
import FlowAtlas.Table

/-! Flow graphs: for each function and decision, in order, the edges that leave it. -/

namespace FlowAtlas

/-- An edge to `target`; the label names the branch that it stands in. -/
structure Edge where
  target : NodeId
  label : Option String := none
  deriving DecidableEq, Repr

abbrev Graph := Table NodeId (List Edge)

/-- For each function of a file, the line of its last declaration, counted from one. -/
abbrev LineMap := Table String Nat

structure Site where
  file : String
  line : Nat
  deriving DecidableEq, Repr

abbrev SourceMap := Table NodeId Site

namespace Graph

def edges (g : Graph) (id : NodeId) : List Edge :=
  g.findD id []

def addEdge (g : Graph) (source : NodeId) (e : Edge) : Graph :=
  g.alter source fun old => old.getD [] ++ [e]

def addNode (g : Graph) (id : NodeId) : Graph :=
  g.ensure id []

def edgeCount (g : Graph) : Nat :=
  g.values.flatten.length

def functions (g : Graph) : List NodeId :=
  g.keys.filter fun id => !NodeId.isDecision id

def mentioned (g : Graph) : List NodeId :=
  g.keys ++ g.values.flatMap (·.map Edge.target)

def nodeIds (g : Graph) : List NodeId :=
  sortTexts g.mentioned.eraseDups

theorem mem_nodeIds {g : Graph} {id : NodeId} : id ∈ g.nodeIds ↔ id ∈ g.mentioned := by
  simp [nodeIds]

end Graph
end FlowAtlas
