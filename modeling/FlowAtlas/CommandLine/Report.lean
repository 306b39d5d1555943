import FlowAtlas.Session.Outcome
import FlowAtlas.Trace

/-! Outcomes and traces as lines of text. -/

namespace FlowAtlas

namespace Outcome

def levelOf (o : Outcome) (id : NodeId) : Nat :=
  o.levels.findD id 0

def byLevel (o : Outcome) : List NodeId :=
  (sortTexts o.graph.keys).mergeSort fun a b => decide (o.levelOf a ≤ o.levelOf b)

def nodeLine (o : Outcome) (id : NodeId) : String :=
  let place :=
    match o.sources.find? id with
    | none => ""
    | some site => "  (" ++ site.file ++ ":" ++ toString site.line ++ ")"
  "[" ++ toString (o.levelOf id) ++ "] " ++ NodeId.display id ++ place

def edgeLine (e : Edge) : String :=
  let label :=
    match e.label with
    | none | some "" => ""
    | some label => " [" ++ label ++ "]"
  "      ->" ++ label ++ " " ++ NodeId.display e.target

def lines (o : Outcome) : List String :=
  o.status :: o.byLevel.flatMap fun id => o.nodeLine id :: (o.graph.edges id).map edgeLine

end Outcome

def Trace.lines (t : Trace) : List String :=
  t.status :: t.edges.map fun (a, b) => "  " ++ NodeId.display a ++ " -> " ++ NodeId.display b

end FlowAtlas
