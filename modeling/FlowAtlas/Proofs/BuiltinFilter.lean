import FlowAtlas.Language.Grammars
import FlowAtlas.Proofs.Walk

/-! The names of builtins only take edges away. The functions, their lines and the decisions of a flow do
not depend on them, and of the edges that leave a node just the calls to builtins go for which neither
the callee nor the nearest function around the call is marked. -/

namespace FlowAtlas

/-- An edge and the node that it leaves; whether it is a call, and the function around it. -/
structure Recorded where
  source : NodeId
  edge : Edge
  call : Bool
  function : Option String
  deriving DecidableEq, Repr

def Fact.recorded? : Fact → Option Recorded
  | .opened (some scope) id => some ⟨scope.node, ⟨id, none⟩, false, scope.function⟩
  | .called scope callee => some ⟨scope.node, ⟨callee, scope.label⟩, true, scope.function⟩
  | _ => none

theorem Fact.arrow?_eq (fact : Fact) :
    fact.arrow? = fact.recorded?.map fun r => (r.source, r.edge) := by
  rcases fact with ⟨name, line⟩ | ⟨_ | scope, id⟩ | ⟨scope, callee⟩ | ⟨id⟩ <;> rfl

theorem Fact.site?_eq (fact : Fact) :
    fact.site? = (fact.recorded?.filter (·.call)).map fun r => (r.function, r.edge.target) := by
  rcases fact with ⟨name, line⟩ | ⟨_ | scope, id⟩ | ⟨scope, callee⟩ | ⟨id⟩ <;> rfl

theorem Graph.edges_ofFacts_recorded (facts : List Fact) (id : NodeId) :
    (ofFacts facts).edges id =
      ((facts.filterMap Fact.recorded?).filter (·.source = id)).map (·.edge) := by
  have harrows : facts.filterMap Fact.arrow? =
      (facts.filterMap Fact.recorded?).map fun r => (r.source, r.edge) := by
    rw [List.map_filterMap]
    exact List.filterMap_congr fun fact _ => fact.arrow?_eq
  rw [edges_ofFacts, harrows, List.filter_map, List.map_map]
  rfl

namespace Grammar

def bare (g : Grammar) : Grammar :=
  { g with builtins := [] }

def recorded (g : Grammar) (src : Source) (suppress : Bool) (root : SyntaxTree) : List Recorded :=
  (g.allFacts src suppress root).filterMap Fact.recorded?

/-- A call to a builtin that no mark keeps. -/
def Drops (g : Grammar) (marked : List String) (r : Recorded) : Prop :=
  r.call = true ∧ r.edge.target ∈ g.builtins ∧ r.edge.target ∉ marked ∧ ∀ f ∈ r.function, f ∉ marked

instance (g : Grammar) (marked : List String) (r : Recorded) : Decidable (g.Drops marked r) :=
  inferInstanceAs (Decidable (_ ∧ _ ∧ _ ∧ _))

variable {g : Grammar} {src : Source} {suppress : Bool} {root : SyntaxTree}

theorem outline_bare (parent : Option SyntaxTree) (t : SyntaxTree) :
    g.bare.outline src suppress parent t = g.outline src suppress parent t := by
  induction hn : t.size using Nat.strongRecOn generalizing parent t with
  | _ n ih =>
    subst hn
    have hchildren : t.children.map (g.bare.outline src suppress (some t)) =
        t.children.map (g.outline src suppress (some t)) :=
      List.map_congr_left fun c hc => ih _ (SyntaxTree.size_lt_of_mem_children hc) _ c rfl
    have hvisits : ∀ construct,
        ((g.bare.visits src t construct).map fun v =>
          v.place (g.bare.outline src suppress (some v.parent) v.tree)) =
        (g.visits src t construct).map fun v =>
          v.place (g.outline src suppress (some v.parent) v.tree) := by
      intro construct
      refine List.map_congr_left fun v hv => ?_
      rw [ih _ (size_lt_of_mem_visits hv) (some v.parent) v.tree rfl]
    have hshown : g.bare.shownConstruct? suppress t = g.shownConstruct? suppress t := rfl
    rw [outline_eq, outline_eq, hchildren, hshown]
    cases g.shownConstruct? suppress t with
    | none => rfl
    | some construct =>
      simp only [hvisits]
      rfl

theorem allFacts_bare (suppress : Bool) (root : SyntaxTree) :
    g.bare.allFacts src suppress root = g.allFacts src suppress root := by
  rw [allFacts, outline_bare, allFacts]

theorem facts_bare (suppress : Bool) (root : SyntaxTree) :
    g.bare.facts src suppress root = g.allFacts src suppress root := by
  rw [facts, allFacts_bare, List.filter_eq_self]
  intro fact _
  cases fact <;> rfl

theorem mem_graph_bare {id : NodeId} :
    id ∈ (g.flow src suppress root).graph ↔ id ∈ (g.bare.flow src suppress root).graph := by
  rw [mem_graph_flow, mem_graph_flow, outline_bare, allFacts_bare]

theorem lines_bare (suppress : Bool) (root : SyntaxTree) :
    (g.flow src suppress root).lines = (g.bare.flow src suppress root).lines := by
  have hdeclarations : (g.facts src suppress root).filterMap Fact.declaration? =
      (g.allFacts src suppress root).filterMap Fact.declaration? :=
    filterMap_facts (fun _ _ => rfl) suppress root
  rw [flow, flow, FileFlow.ofFacts, FileFlow.ofFacts, LineMap.ofFacts_eq, LineMap.ofFacts_eq,
    facts_bare, hdeclarations]

theorem keeps_iff {marked : List String} {fact : Fact} {r : Recorded}
    (h : fact.recorded? = some r) : g.keeps marked fact = true ↔ ¬ g.Drops marked r := by
  rcases fact with ⟨name, line⟩ | ⟨_ | scope, id⟩ | ⟨scope, callee⟩ | ⟨id⟩
  · cases h
  · cases h
  · cases h
    simp [keeps, Drops]
  · cases h
    cases hfunction : scope.function with
    | none => simp [keeps, Drops, hfunction, imp_iff_not_or]
    | some f => simp [keeps, Drops, hfunction, imp_iff_not_or, or_assoc]
  · cases h

theorem filterMap_recorded_facts (suppress : Bool) (root : SyntaxTree) :
    (g.facts src suppress root).filterMap Fact.recorded? =
      (g.recorded src suppress root).filter fun r => ¬ g.Drops (g.marked src root) r := by
  rw [facts, recorded, List.filterMap_filter, List.filter_filterMap]
  refine List.filterMap_congr fun fact _ => ?_
  cases hrecorded : fact.recorded? with
  | none => simp
  | some r => simp [keeps_iff hrecorded, Option.filter]

theorem map_recorded_calls (suppress : Bool) (root : SyntaxTree) :
    ((g.recorded src suppress root).filter (·.call)).map (fun r => (r.function, r.edge.target)) =
      (g.walk src suppress [] (.root root)).filterMap (g.callOn? src suppress) := by
  have hwalk : (g.allFacts src suppress root).filterMap Fact.site? =
      (g.walk src suppress [] (.root root)).filterMap (g.callOn? src suppress) :=
    statesCalls [] (.root root) none none 0 rfl rfl
  rw [← hwalk, recorded, List.filter_filterMap, List.map_filterMap]
  exact List.filterMap_congr fun fact _ => fact.site?_eq.symm

theorem isDecision_of_recorded {r : Recorded} (h : r ∈ g.recorded src suppress root)
    (hcall : r.call = false) : NodeId.isDecision r.edge.target = true := by
  obtain ⟨fact, hfact, hrecorded⟩ := List.mem_filterMap.mp h
  rcases fact with ⟨name, line⟩ | ⟨_ | scope, id⟩ | ⟨scope, callee⟩ | ⟨id⟩
  · cases hrecorded
  · cases hrecorded
  · cases hrecorded
    exact isDecision_of_opened hfact
  · cases hrecorded
    cases hcall
  · cases hrecorded

/-- Builtins are nothing but a filter of edges. The keys, the decisions among them and the lines are those
of a flow without builtins. The edges of such a flow are all that the tree states; of those that leave a
node, in their order, the calls to builtins go unless the callee or the nearest function around the call is
marked. The calls are those that the walk comes to, each with the nearest function on the way there, and
every other edge leads to a decision. -/
theorem builtins_only_filter (g : Grammar) (src : Source) (suppress : Bool) (root : SyntaxTree) :
    (∀ id, id ∈ (g.flow src suppress root).graph ↔ id ∈ (g.bare.flow src suppress root).graph) ∧
    (g.flow src suppress root).lines = (g.bare.flow src suppress root).lines ∧
    (∀ id, (g.bare.flow src suppress root).graph.edges id =
      ((g.recorded src suppress root).filter (·.source = id)).map (·.edge)) ∧
    (∀ id, (g.flow src suppress root).graph.edges id =
      (((g.recorded src suppress root).filter (·.source = id)).filter fun r =>
        ¬ g.Drops (g.marked src root) r).map (·.edge)) ∧
    ((g.recorded src suppress root).filter (·.call)).map (fun r => (r.function, r.edge.target)) =
      (g.walk src suppress [] (.root root)).filterMap (g.callOn? src suppress) ∧
    ∀ r ∈ g.recorded src suppress root, r.call = false → NodeId.isDecision r.edge.target = true := by
  refine ⟨fun _ => mem_graph_bare, lines_bare suppress root, ?_, ?_, map_recorded_calls suppress root,
    fun r => isDecision_of_recorded⟩
  · intro id
    rw [flow, FileFlow.ofFacts, Graph.edges_ofFacts_recorded, facts_bare, recorded]
  · intro id
    rw [flow, FileFlow.ofFacts, Graph.edges_ofFacts_recorded, filterMap_recorded_facts, List.filter_comm]

def markedText : String := "// @flow\nfn f(){g()} fn h(){g()}"

def markedTree : SyntaxTree :=
  .node ⟨"source_file", true, none, 0, 32, 0⟩
    [.node ⟨"line_comment", true, none, 0, 8, 0⟩ [],
     .node ⟨"function_item", true, none, 9, 20, 1⟩
      [.node ⟨"identifier", true, some "name", 12, 13, 1⟩ [],
       .node ⟨"call_expression", true, none, 16, 19, 1⟩
        [.node ⟨"identifier", true, some "function", 16, 17, 1⟩ []]],
     .node ⟨"function_item", true, none, 21, 32, 1⟩
      [.node ⟨"identifier", true, some "name", 24, 25, 1⟩ [],
       .node ⟨"call_expression", true, none, 28, 31, 1⟩
        [.node ⟨"identifier", true, some "function", 28, 29, 1⟩ []]]]

example :
    let flow := { rust with builtins := ["g"] }.flow (.ofString markedText) false markedTree
    flow.graph.edges "f" = [⟨"g", none⟩] ∧ flow.graph.edges "h" = [] ∧ "h" ∈ flow.graph := by
  decide +kernel

end Grammar
end FlowAtlas
