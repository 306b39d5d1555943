import FlowAtlas.Graph
import FlowAtlas.Outline

/-! The facts that an outline states, in order. Decisions are numbered as they open, and every call
and every decision is stated with the scope that it stands in. -/

namespace FlowAtlas

structure Scope where
  node : NodeId
  label : Option String
  function : Option String
  deriving DecidableEq, Repr

def Scope.ofFunction (name : String) : Scope :=
  ⟨name, none, some name⟩

inductive Fact where
  | declared (name : String) (line : Nat)
  | opened (scope : Option Scope) (id : NodeId)
  | called (scope : Scope) (callee : String)
  | closed (id : NodeId)
  deriving DecidableEq, Repr

namespace Outline

/-- The scope of a branch; what no decision is around stays in its own scope. -/
def branchScope (scope : Option Scope) (decision : Option NodeId) (label : Option String) :
    Option Scope :=
  match decision with
  | none => scope
  | some id => some ⟨id, label, scope.bind Scope.function⟩

/-- The facts of an outline in `scope`, inside `decision` and after `count` decisions. A call outside
every scope is no fact. -/
def facts (scope : Option Scope) (decision : Option NodeId) (count : Nat) : Outline → List Fact
  | done => []
  | call callee rest =>
    (scope.map fun s => Fact.called s callee).toList ++ rest.facts scope decision count
  | function name line body rest =>
    .declared name line :: body.facts (some (.ofFunction name)) none count ++
      .closed name :: rest.facts scope decision (count + body.decisions)
  | .decision display body rest =>
    let id := NodeId.decision (count + 1) display
    .opened scope id :: body.facts scope (some id) (count + 1) ++
      .closed id :: rest.facts scope decision (count + 1 + body.decisions)
  | branch label body rest =>
    body.facts (branchScope scope decision label) none count ++
      rest.facts scope decision (count + body.decisions)

theorem facts_append (scope : Option Scope) (decision : Option NodeId) (count : Nat)
    (a b : Outline) :
    (a.append b).facts scope decision count =
      a.facts scope decision count ++ b.facts scope decision (count + a.decisions) := by
  induction a generalizing count with
  | done => simp [append, facts, decisions]
  | call callee rest ih => simp [append, facts, decisions, ih]
  | function name line body rest _ ih =>
    simp [append, facts, decisions, ih, Nat.add_assoc]
  | decision display body rest _ ih =>
    simp [append, facts, decisions, ih, Nat.add_assoc]
  | branch label body rest _ ih =>
    simp [append, facts, decisions, ih, Nat.add_assoc]

end Outline

namespace Graph

/-- The graph after one more fact. A decision hangs unlabelled from the node of its scope. -/
def learn (g : Graph) : Fact → Graph
  | .declared _ _ => g
  | .opened none _ => g
  | .opened (some scope) id => g.addEdge scope.node ⟨id, none⟩
  | .called scope callee => g.addEdge scope.node ⟨callee, scope.label⟩
  | .closed id => g.addNode id

def ofFacts (facts : List Fact) : Graph :=
  facts.foldl learn .empty

end Graph

/-- The line of each declared function; the last declaration of a name counts. -/
def LineMap.ofFacts (facts : List Fact) : LineMap :=
  facts.foldl
    (fun lines fact =>
      match fact with
      | .declared name line => lines.insert name line
      | _ => lines)
    .empty

end FlowAtlas
