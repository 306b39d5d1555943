import FlowAtlas.Outline.Reading

/-! Functions marked by a comment, whose calls to builtins are kept. -/

namespace FlowAtlas.Grammar

def marker : String := "@flow"

/-- Whether the nearest of the earlier siblings, attributes and unnamed nodes aside, is a comment with
the marker. `before` lists the earlier siblings, nearest first. -/
def followsMarker (g : Grammar) (src : Source) (before : List SyntaxTree) : Bool :=
  match before.find? fun t => t.info.named && !g.attributeKinds.contains t.kind with
  | none => false
  | some t => g.commentKind == some t.kind && Text.occursIn marker (src.text t)

mutual

/-- The names of the marked functions. A node inside wrappers looks for its comment before the
outermost of them; `before` lists what stands there. -/
def markedIn (g : Grammar) (src : Source) (parent : Option SyntaxTree) (before : List SyntaxTree) :
    SyntaxTree → List String
  | .node info children =>
    let t := SyntaxTree.node info children
    if g.isHidden src t then []
    else
      let name := g.functionName src parent t
      (if g.isFunction t && g.followsMarker src before && name != anonymous then [name] else []) ++
        markedAmong g src t (if g.wrapperKinds.contains info.kind then some before else none) []
          children

def markedAmong (g : Grammar) (src : Source) (parent : SyntaxTree)
    (outer : Option (List SyntaxTree)) (earlier : List SyntaxTree) :
    List SyntaxTree → List String
  | [] => []
  | t :: rest =>
    markedIn g src (some parent) (outer.getD earlier) t ++
      markedAmong g src parent outer (t :: earlier) rest

end

def marked (g : Grammar) (src : Source) (root : SyntaxTree) : List String :=
  if g.commentKind.isNone then [] else g.markedIn src none [] root

end FlowAtlas.Grammar
