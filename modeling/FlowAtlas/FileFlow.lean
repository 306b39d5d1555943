import FlowAtlas.Outline.Fact
import FlowAtlas.Outline.Marker
import FlowAtlas.Outline.OfTree

/-! The flow of one file: its graph, and the lines of its functions. -/

namespace FlowAtlas

structure FileFlow where
  graph : Graph
  lines : LineMap

namespace FileFlow

def empty : FileFlow :=
  ⟨.empty, .empty⟩

def ofFacts (facts : List Fact) : FileFlow :=
  ⟨.ofFacts facts, .ofFacts facts⟩

end FileFlow

namespace Grammar

/-- A call to a builtin is kept if the builtin or the function around the call is marked; every other
fact is kept. -/
def keeps (g : Grammar) (marked : List String) : Fact → Bool
  | .called scope callee =>
    !g.builtins.contains callee || marked.contains callee || scope.function.any marked.contains
  | _ => true

def allFacts (g : Grammar) (src : Source) (suppress : Bool) (root : SyntaxTree) : List Fact :=
  (g.outline src suppress none root).facts none none 0

def facts (g : Grammar) (src : Source) (suppress : Bool) (root : SyntaxTree) : List Fact :=
  (g.allFacts src suppress root).filter (g.keeps (g.marked src root))

def flow (g : Grammar) (src : Source) (suppress : Bool) (root : SyntaxTree) : FileFlow :=
  .ofFacts (g.facts src suppress root)

end Grammar
end FlowAtlas
