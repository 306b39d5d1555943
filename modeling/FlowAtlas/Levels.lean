import FlowAtlas.Graph

/-! The levels of a graph. A root, which nothing else calls, lies at level 0 and every other node one
below its deepest caller. Depths are raised in passes over the sorted ids until a pass changes
nothing, at most two more passes than there are ids; what only cycles reach goes one below the rest. -/

namespace FlowAtlas.Graph

/-- The depths found so far; a node without one has not been reached. -/
abbrev Depths := Table NodeId (Option Nat)

def callers (g : Graph) (id : NodeId) : List NodeId :=
  (g.entries.filter fun (caller, es) => caller ≠ id ∧ id ∈ es.map Edge.target).map Prod.fst

def Depths.depth? (d : Depths) (id : NodeId) : Option Nat :=
  (d.find? id).join

def Depths.candidate? (d : Depths) (callers : List NodeId) : Option Nat :=
  (callers.filterMap d.depth?).max?.map (· + 1)

def Depths.raise (d : Depths) (id : NodeId) (callers : List NodeId) : Depths :=
  match d.candidate? callers, d.depth? id with
  | none, _ => d
  | some n, none => d.insert id (some n)
  | some n, some m => if m < n then d.insert id (some n) else d

abbrev Row := NodeId × List NodeId

def Depths.pass (rows : List Row) (d : Depths) : Depths :=
  rows.foldl (fun d row => d.raise row.1 row.2) d

structure Relaxation where
  depths : Depths
  passes : Nat
  quiet : Bool

def relax (rows : List Row) : Nat → Depths → Relaxation
  | 0, d => ⟨d, 0, false⟩
  | n + 1, d =>
    let next := d.pass rows
    if next.entries = d.entries then ⟨d, 1, true⟩
    else
      let r := relax rows n next
      { r with passes := r.passes + 1 }

def Depths.start (rows : List Row) : Depths :=
  .ofList (rows.map fun (id, callers) => (id, if callers.isEmpty then some 0 else none))

def relaxation (g : Graph) (ids : List NodeId) : Relaxation :=
  let ids := sortTexts ids.eraseDups
  let rows := ids.map fun id => (id, g.callers id)
  relax rows (ids.length + 2) (.start rows)

namespace Relaxation

def unresolved (r : Relaxation) : List NodeId :=
  (r.depths.entries.filter fun (_, depth) => depth.isNone).map Prod.fst

def fallback (r : Relaxation) : Nat :=
  match (r.depths.values.filterMap id).max? with
  | none => 0
  | some deepest => deepest + 1

def levels (r : Relaxation) : Table NodeId Nat :=
  r.depths.mapValues fun _ depth => depth.getD r.fallback

def log (r : Relaxation) (verbose : Bool) : List String :=
  (if verbose then
    ["HierarchyLeveler: Relaxation finished after " ++ toString r.passes ++ " passes for " ++
      toString r.depths.size ++ " nodes."]
  else []) ++
  if r.unresolved.isEmpty then []
  else
    ["HierarchyLeveler Warning: " ++ toString r.unresolved.length ++
      " nodes are only reachable through cycles; placing them at depth " ++
      toString r.fallback ++ "."]

end Relaxation

def levels (g : Graph) (ids : List NodeId) : Table NodeId Nat :=
  (g.relaxation ids).levels

end FlowAtlas.Graph
