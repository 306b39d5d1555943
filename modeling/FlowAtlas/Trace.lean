import FlowAtlas.Graph
import FlowAtlas.Text.Blank

/-! Tracing: the nodes and edges on the paths without repetition from a source to a sink, and the
choice of a node by a text. -/

namespace FlowAtlas.Graph

def successors (g : Graph) : Table NodeId (List NodeId) :=
  g.mapValues fun _ es => (es.map Edge.target).eraseDups

/-- The edges on the paths of at most `bound` edges from `current` to the first visit of `sink` that
repeat no node and meet none of `visited`; none if there is no such path. -/
def tracedEdges? (next : Table NodeId (List NodeId)) (sink : NodeId) :
    Nat → List NodeId → NodeId → Option (List (NodeId × NodeId))
  | 0, _, current => if current = sink then some [] else none
  | bound + 1, visited, current =>
    if current = sink then some []
    else
      let visited := current :: visited
      let onward := ((next.findD current []).filter (· ∉ visited)).filterMap fun id =>
        (tracedEdges? next sink bound visited id).map ((current, id) :: ·)
      if onward.isEmpty then none else some onward.flatten.eraseDups

end Graph

structure Trace where
  nodes : List NodeId
  edges : List (NodeId × NodeId)
  status : String
  deriving DecidableEq, Repr

namespace Trace

def found (t : Trace) : Bool :=
  !t.nodes.isEmpty

def pairLe (a b : NodeId × NodeId) : Bool :=
  if a.1 = b.1 then decide (a.2 ≤ b.2) else decide (a.1 ≤ b.1)

def ofEdges (source : NodeId) (edges : List (NodeId × NodeId)) (status : String) : Trace where
  nodes := sortTexts (source :: edges.map Prod.snd).eraseDups
  edges := edges.mergeSort pairLe
  status := status

def failed (status : String) : Trace :=
  ⟨[], [], status⟩

end Trace

namespace Graph

/-- The paths without repetition from `source` to `sink`; nothing if there are none. No such path has
more edges than the graph has ids. -/
def tracedPaths (g : Graph) (source sink : NodeId) : Trace :=
  match tracedEdges? g.successors sink g.nodeIds.length [] source with
  | none => .failed ""
  | some edges => .ofEdges source edges "Trace: Path found and highlighted"

def isCalled (id : NodeId) (text : String) : Bool :=
  let bare := (NodeId.splitFile id).2
  bare == text || NodeId.display bare == text

def resolve? (g : Graph) (text : String) : Option NodeId :=
  if text ∈ g.nodeIds then some text
  else
    match g.nodeIds.find? fun id => isCalled id text with
    | some id => some id
    | none => g.nodeIds.find? fun id => Text.occursIn text id

def trace (g : Graph) (sourceText sinkText : String) : Trace :=
  let sourceText := Text.trim sourceText
  let sinkText := Text.trim sinkText
  if sourceText = "" ∨ sinkText = "" then
    .failed "error: :trace flow requires <source> and <sink>"
  else
    match g.resolve? sourceText, g.resolve? sinkText with
    | none, _ => .failed ("Trace: Could not find source node '" ++ sourceText ++ "'")
    | some _, none => .failed ("Trace: Could not find sink node '" ++ sinkText ++ "'")
    | some source, some sink =>
      let traced := g.tracedPaths source sink
      if traced.found then traced
      else .failed ("Trace: No path found from '" ++ sourceText ++ "' to '" ++ sinkText ++ "'")

end Graph
end FlowAtlas
