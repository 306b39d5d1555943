import FlowAtlas.SyntaxTree

/-! Syntax trees listed row by row. A row names its parent by position, and a parent comes before its
children. -/

namespace FlowAtlas.SyntaxTree

structure Row where
  info : NodeInfo
  parent : Option Nat

/-- Adds the node of row `i` to the children that its parent has so far. Reading the rows from the
last one back, all children of a row are complete when it is reached. -/
def addRow (row : Row) (i : Nat) (below : Array (List SyntaxTree)) :
    SyntaxTree × Array (List SyntaxTree) :=
  let t := node row.info (below[i]?.getD [])
  match row.parent with
  | none => (t, below)
  | some p => (t, below.modify p (t :: ·))

def ofRows? (rows : List Row) : Option SyntaxTree :=
  (rows.zipIdx.foldr
    (fun (row, i) (_, below) =>
      let (t, below) := addRow row i below
      (some t, below))
    (none, Array.replicate rows.length [])).1

end FlowAtlas.SyntaxTree
