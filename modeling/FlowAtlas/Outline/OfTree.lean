import FlowAtlas.Outline
import FlowAtlas.Outline.Visit

/-! The outline of a syntax tree. -/

namespace FlowAtlas

def Visit.place (v : Visit) (o : Outline) : Outline :=
  match v.setting with
  | .around => o
  | .branch label => .branch label o .done

namespace Grammar

def shownConstruct? (g : Grammar) (suppress : Bool) (t : SyntaxTree) : Option Construct :=
  if suppress then none else g.construct? t

def withCall (callee : Option String) (below : Outline) : Outline :=
  match callee with
  | none => below
  | some callee => .call callee below

/-- The outline of a node under `parent`. With `suppress`, decisions are passed through as if they
were plain nodes. -/
def outline (g : Grammar) (src : Source) (suppress : Bool) (parent : Option SyntaxTree)
    (t : SyntaxTree) : Outline :=
  if g.isHidden src t then .done
  else if g.isFunction t then
    .function (g.functionName src parent t) (t.info.row + 1)
      (.concat (t.children.attach.map fun ⟨c, _⟩ => outline g src suppress (some t) c)) .done
  else
    match g.shownConstruct? suppress t with
    | some construct =>
      .decision (g.display src t construct)
        (.concat ((g.visits src t construct).attach.map fun ⟨v, _⟩ =>
          v.place (outline g src suppress (some v.parent) v.tree))) .done
    | none =>
      withCall (g.callee? src t)
        (.concat (t.children.attach.map fun ⟨c, _⟩ => outline g src suppress (some t) c))
termination_by t.size
decreasing_by
  · exact SyntaxTree.size_lt_of_mem_children ‹_›
  · exact size_lt_of_mem_visits ‹_›
  · exact SyntaxTree.size_lt_of_mem_children ‹_›

theorem outline_eq (g : Grammar) (src : Source) (suppress : Bool) (parent : Option SyntaxTree)
    (t : SyntaxTree) :
    g.outline src suppress parent t =
      if g.isHidden src t then .done
      else if g.isFunction t then
        .function (g.functionName src parent t) (t.info.row + 1)
          (.concat (t.children.map (g.outline src suppress (some t)))) .done
      else
        match g.shownConstruct? suppress t with
        | some construct =>
          .decision (g.display src t construct)
            (.concat ((g.visits src t construct).map fun v =>
              v.place (g.outline src suppress (some v.parent) v.tree))) .done
        | none =>
          withCall (g.callee? src t) (.concat (t.children.map (g.outline src suppress (some t)))) := by
  rw [outline]
  simp only [List.map_attach_eq_pmap, List.pmap_eq_map]

end Grammar
end FlowAtlas
