import FlowAtlas.Parser
import FlowAtlas.Proofs.OutlineOfTree

/-! The flow of one file is sound: its functions are those that have a line, its decisions are numbered
upwards along its edges and are all among its keys, and an edge has a label exactly if it is a call that
stands in a branch. -/

namespace FlowAtlas

structure FileFlow.Sound (f : FileFlow) : Prop where
  mem_lines_iff : ∀ name, name ∈ f.lines ↔ name ∈ f.graph ∧ NodeId.isDecision name = false
  label_iff : ∀ id, ∀ e ∈ f.graph.edges id,
    e.label = none ↔ NodeId.isDecision id = false ∨ NodeId.isDecision e.target = true
  decision_mem : ∀ id, ∀ e ∈ f.graph.edges id, NodeId.isDecision e.target = true →
    e.target ∈ f.graph
  numbered : ∀ id ∈ f.graph, NodeId.isDecision id = true → ∃ n shown, id = .decision n shown
  ascending : ∀ m n shown shown', ∀ e ∈ f.graph.edges (.decision m shown),
    e.target = .decision n shown' → m < n

theorem FileFlow.sound_empty : FileFlow.empty.Sound where
  mem_lines_iff name := by simp [FileFlow.empty]
  label_iff id e he := by simp [FileFlow.empty] at he
  decision_mem id e he := by simp [FileFlow.empty] at he
  numbered id hid := by simp [FileFlow.empty] at hid
  ascending m n shown shown' e he := by simp [FileFlow.empty] at he

namespace Grammar
variable {g : Grammar} {src : Source} {suppress : Bool} {root : SyntaxTree}

theorem mem_allFacts {fact : Fact} (h : fact ∈ g.facts src suppress root) :
    fact ∈ g.allFacts src suppress root :=
  (List.mem_filter.mp h).1

theorem filterMap_facts {β : Type} {f : Fact → Option β}
    (hcalled : ∀ scope callee, f (.called scope callee) = none) (suppress : Bool)
    (root : SyntaxTree) :
    (g.facts src suppress root).filterMap f = (g.allFacts src suppress root).filterMap f := by
  rw [facts, List.filterMap_filter]
  refine List.filterMap_congr fun fact _ => ?_
  cases fact with
  | declared name line => rfl
  | opened scope id => rfl
  | called scope callee => simp [hcalled]
  | closed id => rfl

theorem declared_mem_facts {name : String} :
    (∃ line, .declared name line ∈ g.facts src suppress root) ↔
      name ∈ (g.outline src suppress none root).functions := by
  simp only [facts, List.mem_filter, keeps, and_true]
  exact Outline.declared_mem_facts

theorem closed_mem_facts {id : NodeId} :
    .closed id ∈ g.facts src suppress root ↔
      id ∈ (g.outline src suppress none root).functions ∨
        ∃ outer, .opened outer id ∈ g.allFacts src suppress root := by
  simp only [facts, List.mem_filter, keeps, and_true, allFacts, Outline.closed_mem_facts,
    Outline.declared_mem_facts]

theorem mem_lines_flow {name : String} :
    name ∈ (g.flow src suppress root).lines ↔
      name ∈ (g.outline src suppress none root).functions :=
  LineMap.mem_ofFacts.trans declared_mem_facts

/-- An invariant of scopes, as `Outline.scope_of_mem_facts` has it, for the facts of a whole tree. -/
theorem scope_invariant {Q : Scope → Prop} (hplain : (g.outline src suppress none root).Plain)
    (hfunction : ∀ name ∈ (g.outline src suppress none root).functions, Q (.ofFunction name))
    (hopened : ∀ outer id, .opened outer id ∈ g.allFacts src suppress root → (∀ s ∈ outer, Q s) →
      ∀ label, label.isSome = true → Q ⟨id, label, outer.bind Scope.function⟩)
    {fact : Fact} (hfact : fact ∈ g.allFacts src suppress root) {s : Scope}
    (hs : fact.scope? = some s) : Q s :=
  Outline.scope_of_mem_facts
    (fun name line h => hfunction name (Outline.declared_mem_facts.mp ⟨line, h⟩)) hopened
    (fun _ => hplain.label) (fun _ h => h) (by simp) (by simp) hfact hs

theorem node_of_scope {fact : Fact} (hfact : fact ∈ g.allFacts src suppress root) {s : Scope}
    (hs : fact.scope? = some s) :
    s.node ∈ (g.outline src suppress none root).functions ∨
      ∃ outer, .opened outer s.node ∈ g.allFacts src suppress root :=
  Outline.scope_of_mem_facts
    (Q := fun s => s.node ∈ (g.outline src suppress none root).functions ∨
      ∃ outer, .opened outer s.node ∈ g.allFacts src suppress root)
    (fun name line h => .inl (Outline.declared_mem_facts.mp ⟨line, h⟩))
    (fun outer id h _ _ _ => .inr ⟨outer, h⟩) (fun _ _ => trivial) (fun _ h => h) (by simp) (by simp)
    hfact hs

theorem mem_graph_flow {id : NodeId} :
    id ∈ (g.flow src suppress root).graph ↔
      id ∈ (g.outline src suppress none root).functions ∨
        ∃ outer, .opened outer id ∈ g.allFacts src suppress root := by
  rw [flow, FileFlow.ofFacts, Graph.mem_ofFacts, closed_mem_facts]
  -- The node that an edge leaves is that of a scope.
  refine or_iff_right_of_imp ?_
  rintro ⟨fact, hfact, e, harrow⟩
  rcases Fact.mem_arrow? harrow with ⟨scope, target, rfl, rfl, _⟩ | ⟨scope, callee, rfl, rfl, _⟩
  · exact node_of_scope (mem_allFacts hfact) rfl
  · exact node_of_scope (mem_allFacts hfact) rfl

theorem mem_edges_flow {id : NodeId} {e : Edge} :
    e ∈ (g.flow src suppress root).graph.edges id ↔
      (∃ scope target, .opened (some scope) target ∈ g.allFacts src suppress root ∧
        id = scope.node ∧ e = ⟨target, none⟩) ∨
      ∃ scope callee, .called scope callee ∈ g.facts src suppress root ∧
        id = scope.node ∧ e = ⟨callee, scope.label⟩ := by
  rw [flow, FileFlow.ofFacts, Graph.edges_ofFacts]
  simp only [List.mem_map, List.mem_filter, List.mem_filterMap, decide_eq_true_eq]
  constructor
  · rintro ⟨⟨id', e'⟩, ⟨⟨fact, hfact, harrow⟩, rfl⟩, rfl⟩
    rcases Fact.mem_arrow? harrow with ⟨scope, target, rfl, h⟩ | ⟨scope, callee, rfl, h⟩
    · exact .inl ⟨scope, target, mem_allFacts hfact, h⟩
    · exact .inr ⟨scope, callee, hfact, h⟩
  · rintro (⟨scope, target, hfact, rfl, rfl⟩ | ⟨scope, callee, hfact, rfl, rfl⟩)
    · exact ⟨_, ⟨⟨_, List.mem_filter.mpr ⟨hfact, rfl⟩, rfl⟩, rfl⟩, rfl⟩
    · exact ⟨_, ⟨⟨_, hfact, rfl⟩, rfl⟩, rfl⟩

theorem opened_of_mem_edges (hplain : (g.outline src suppress none root).Plain) {id : NodeId}
    {e : Edge} (he : e ∈ (g.flow src suppress root).graph.edges id)
    (htarget : NodeId.isDecision e.target = true) :
    ∃ scope, .opened (some scope) e.target ∈ g.allFacts src suppress root ∧ id = scope.node ∧
      e.label = none := by
  rcases mem_edges_flow.mp he with ⟨scope, target, h, rfl, rfl⟩ | ⟨scope, callee, h, _, rfl⟩
  · exact ⟨scope, h, rfl, rfl⟩
  · rw [hplain.callee (mem_allFacts h)] at htarget
    cases htarget

theorem number_of_opened (hplain : (g.outline src suppress none root).Plain) {outer : Option Scope}
    {id : NodeId} (h : .opened outer id ∈ g.allFacts src suppress root) :
    ∃ n shown, id = .decision (n + 1) shown ∧ ∀ s ∈ outer, s.node.Upto n :=
  Outline.number_of_opened hplain (by simp) (by simp) h

theorem isDecision_of_opened {outer : Option Scope} {id : NodeId}
    (h : .opened outer id ∈ g.allFacts src suppress root) : NodeId.isDecision id = true := by
  have hmem : (outer.isSome, id) ∈ (g.allFacts src suppress root).filterMap Fact.opened? :=
    List.mem_filterMap.mpr ⟨_, h, rfl⟩
  rw [allFacts, Outline.opened_facts] at hmem
  obtain ⟨⟨opening, n⟩, _, heq⟩ := List.mem_map.mp hmem
  rw [← (Prod.mk.inj heq).2]
  exact NodeId.isDecision_decision n opening.2

theorem label_of_scope (hplain : (g.outline src suppress none root).Plain) {fact : Fact}
    (hfact : fact ∈ g.allFacts src suppress root) {s : Scope} (hs : fact.scope? = some s) :
    s.label = none ↔ NodeId.isDecision s.node = false := by
  refine scope_invariant (Q := fun s => s.label = none ↔ NodeId.isDecision s.node = false) hplain
    ?_ ?_ hfact hs
  · intro name hname
    simp [Scope.ofFunction, hplain.function hname]
  · rintro outer id hopen _ (_ | label) hlabel
    · cases hlabel
    · simp [isDecision_of_opened hopen]

theorem sound_flow_of_plain (hplain : (g.outline src suppress none root).Plain) :
    (g.flow src suppress root).Sound where
  mem_lines_iff name := by
    rw [mem_lines_flow, mem_graph_flow]
    constructor
    · exact fun h => ⟨.inl h, hplain.function h⟩
    · rintro ⟨h | ⟨outer, h⟩, hname⟩
      · exact h
      · rw [isDecision_of_opened h] at hname
        cases hname
  label_iff id e he := by
    rcases mem_edges_flow.mp he with ⟨scope, target, h, rfl, rfl⟩ | ⟨scope, callee, h, rfl, rfl⟩
    · simp [isDecision_of_opened h]
    · simp [label_of_scope hplain (mem_allFacts h) rfl, hplain.callee (mem_allFacts h)]
  decision_mem id e he htarget := by
    obtain ⟨scope, h, _⟩ := opened_of_mem_edges hplain he htarget
    exact mem_graph_flow.mpr (.inr ⟨some scope, h⟩)
  numbered id hid hdecision := by
    rcases mem_graph_flow.mp hid with h | ⟨outer, h⟩
    · rw [hplain.function h] at hdecision
      cases hdecision
    · obtain ⟨n, shown, rfl, _⟩ := number_of_opened hplain h
      exact ⟨n + 1, shown, rfl⟩
  ascending m n shown shown' e he htarget := by
    have hdecision : NodeId.isDecision e.target = true := by
      rw [htarget, NodeId.isDecision_decision]
    obtain ⟨scope, h, hnode, _⟩ := opened_of_mem_edges hplain he hdecision
    obtain ⟨k, shown'', hk, hupto⟩ := number_of_opened hplain h
    have hm : m ≤ k := hupto scope rfl m shown hnode.symm
    have hn : k + 1 = n := (NodeId.decision_inj (hk.symm.trans htarget)).1
    omega

theorem sound_flow (hlabel : g.choice.defaultLabel.isSome = true) (hsrc : 0x1f ∉ src.bytes)
    (suppress : Bool) (root : SyntaxTree) : (g.flow src suppress root).Sound :=
  sound_flow_of_plain (plain_outline hlabel hsrc suppress none root)

end Grammar

theorem Language.defaultLabel_isSome (l : Language) :
    l.grammar.choice.defaultLabel.isSome = true := by
  cases l <;> rfl

theorem Language.plain_outline (l : Language) {text : String} (htext : '\x1f' ∉ text.toList)
    (suppress : Bool) (root : SyntaxTree) :
    (l.grammar.outline (.ofString text) suppress none root).Plain :=
  Grammar.plain_outline l.defaultLabel_isSome (Source.separator_notMem_ofString htext) suppress none
    root

theorem Parsers.sound_flow (p : Parsers) (l : Language) (suppress : Bool) {text : String}
    (htext : '\x1f' ∉ text.toList) : (p.flow l suppress text).Sound := by
  unfold Parsers.flow
  split
  · exact FileFlow.sound_empty
  · exact Grammar.sound_flow l.defaultLabel_isSome (Source.separator_notMem_ofString htext) _ _

end FlowAtlas
