import FlowAtlas.Outline.Fact
import FlowAtlas.Proofs.Table
import Mathlib.Data.List.Perm.Basic
import Mathlib.Logic.Relation

/-! The edges of a graph, node by node and all together, and the graph that facts describe: its edges
are those that the facts state, each once and, for every node, in their order. -/

namespace FlowAtlas

namespace Graph

theorem mem_edges_iff {g : Graph} {id : NodeId} {e : Edge} :
    e ∈ g.edges id ↔ ∃ es, (id, es) ∈ g.entries ∧ e ∈ es := by
  simp only [edges, Table.findD, Table.mem_entries_iff]
  cases g.find? id <;> simp

theorem mem_of_mem_edges {g : Graph} {id : NodeId} {e : Edge} (h : e ∈ g.edges id) : id ∈ g := by
  obtain ⟨es, hes, _⟩ := mem_edges_iff.mp h
  exact Table.mem_of_find? (Table.mem_entries_iff.mp hes)

theorem edges_addEdge (g : Graph) (source : NodeId) (e : Edge) (id : NodeId) :
    (g.addEdge source e).edges id = g.edges id ++ if id = source then [e] else [] := by
  simp only [edges, Table.findD, addEdge, Table.find?_alter]
  split
  · simp [*]
  · simp

@[simp] theorem edges_addNode (g : Graph) (node id : NodeId) :
    (g.addNode node).edges id = g.edges id := by
  simp only [edges, Table.findD, addNode, Table.ensure, Table.find?_alter]
  split
  · simp [*]
  · rfl

@[simp] theorem mem_addEdge {g : Graph} {source id : NodeId} {e : Edge} :
    id ∈ g.addEdge source e ↔ id = source ∨ id ∈ g :=
  Table.mem_alter

@[simp] theorem mem_addNode {g : Graph} {node id : NodeId} :
    id ∈ g.addNode node ↔ id = node ∨ id ∈ g :=
  Table.mem_alter

@[simp] theorem edges_empty (id : NodeId) : edges .empty id = [] := rfl

def arrows (g : Graph) : List (NodeId × Edge) :=
  g.entries.flatMap fun entry => entry.2.map (entry.1, ·)

@[simp] theorem arrows_empty : arrows .empty = [] := rfl

theorem arrows_addEdge (g : Graph) (source : NodeId) (e : Edge) :
    (g.addEdge source e).arrows.Perm ((source, e) :: g.arrows) := by
  simp only [arrows, addEdge, Table.alter]
  generalize g.entries = entries
  induction entries with
  | nil => simp [Table.alterEntries]
  | cons entry rest ih =>
    simp only [Table.alterEntries]
    split
    · rename_i h
      subst h
      simp only [Option.getD_some, List.flatMap_cons, List.map_append, List.map_cons, List.map_nil,
        List.append_assoc, List.singleton_append]
      exact List.perm_middle
    · simp only [List.flatMap_cons]
      exact (ih.append_left _).trans List.perm_middle

theorem arrows_addNode (g : Graph) (node : NodeId) : (g.addNode node).arrows = g.arrows := by
  simp only [arrows, addNode, Table.ensure, Table.alter]
  generalize g.entries = entries
  induction entries with
  | nil => simp [Table.alterEntries]
  | cons entry rest ih =>
    simp only [Table.alterEntries]
    split
    · simp
    · simp only [List.flatMap_cons, ih]

def Closed (g : Graph) : Prop :=
  ∀ id, ∀ e ∈ g.edges id, e.target ∈ g

theorem mem_mentioned {g : Graph} {id : NodeId} :
    id ∈ g.mentioned ↔ id ∈ g ∨ ∃ source, ∃ e ∈ g.edges source, e.target = id := by
  rw [mentioned, List.mem_append, ← Table.mem_iff]
  refine or_congr_right ?_
  simp only [Table.values, List.mem_flatMap, List.mem_map, mem_edges_iff]
  constructor
  · rintro ⟨_, ⟨⟨source, es⟩, hentry, rfl⟩, e, he, htarget⟩
    exact ⟨source, e, ⟨es, hentry, he⟩, htarget⟩
  · rintro ⟨source, e, ⟨es, hentry, he⟩, htarget⟩
    exact ⟨es, ⟨(source, es), hentry, rfl⟩, e, he, htarget⟩

theorem Closed.mem_mentioned {g : Graph} (h : g.Closed) {id : NodeId} :
    id ∈ g.mentioned ↔ id ∈ g := by
  rw [Graph.mem_mentioned]
  refine or_iff_left_of_imp ?_
  rintro ⟨source, e, he, rfl⟩
  exact h source e he

/-- Some rank rises along every edge between decisions, so these form no cycle. -/
def Ranked (g : Graph) : Prop :=
  ∃ rank : NodeId → Nat, ∀ id, NodeId.isDecision id = true → ∀ e ∈ g.edges id,
    NodeId.isDecision e.target = true → rank id < rank e.target

def Hangs (g : Graph) (a b : NodeId) : Prop :=
  NodeId.isDecision b = true ∧ ∃ e ∈ g.edges a, e.target = b

/-- `b` is `a` itself or a decision that hangs, through decisions, below it. -/
def HangsBelow (g : Graph) : NodeId → NodeId → Prop :=
  Relation.ReflTransGen g.Hangs

open Classical in
/-- The number of calls to `callee` that leave `f` or a decision below it. -/
noncomputable def callsBelow (g : Graph) (f callee : NodeId) : Nat :=
  g.arrows.countP fun a =>
    g.HangsBelow f a.1 ∧ NodeId.isDecision a.2.target = false ∧ a.2.target = callee

end Graph

namespace Fact

def arrow? : Fact → Option (NodeId × Edge)
  | .opened (some scope) id => some (scope.node, ⟨id, none⟩)
  | .called scope callee => some (scope.node, ⟨callee, scope.label⟩)
  | _ => none

theorem mem_arrow? {fact : Fact} {id : NodeId} {e : Edge} (h : fact.arrow? = some (id, e)) :
    (∃ scope target, fact = .opened (some scope) target ∧ id = scope.node ∧ e = ⟨target, none⟩) ∨
      ∃ scope callee, fact = .called scope callee ∧ id = scope.node ∧ e = ⟨callee, scope.label⟩ := by
  cases fact with
  | declared name line => cases h
  | closed id => cases h
  | opened scope target =>
    cases scope with
    | none => cases h
    | some scope =>
      cases h
      exact .inl ⟨scope, target, rfl, rfl, rfl⟩
  | called scope callee =>
    cases h
    exact .inr ⟨scope, callee, rfl, rfl, rfl⟩

end Fact

namespace Graph

theorem edges_learn (g : Graph) (fact : Fact) (id : NodeId) :
    (g.learn fact).edges id =
      g.edges id ++ (fact.arrow?.toList.filter (·.1 = id)).map Prod.snd := by
  rcases fact with ⟨name, line⟩ | ⟨_ | scope, target⟩ | ⟨scope, callee⟩ | ⟨node⟩ <;>
    simp only [learn, Fact.arrow?, edges_addEdge, edges_addNode, Option.toList, List.filter_nil,
      List.map_nil, List.append_nil]
  all_goals
    by_cases h : id = scope.node <;> simp [h, eq_comm]

theorem edges_ofFacts (facts : List Fact) (id : NodeId) :
    (ofFacts facts).edges id = ((facts.filterMap Fact.arrow?).filter (·.1 = id)).map Prod.snd := by
  suffices h : ∀ g : Graph, (facts.foldl learn g).edges id =
      g.edges id ++ ((facts.filterMap Fact.arrow?).filter (·.1 = id)).map Prod.snd from h .empty
  induction facts with
  | nil => simp
  | cons fact rest ih =>
    intro g
    rw [List.foldl_cons, ih, edges_learn]
    cases h : fact.arrow? <;> simp [h, List.filter_cons]
    split <;> simp

theorem arrows_learn (g : Graph) (fact : Fact) :
    (g.learn fact).arrows.Perm (fact.arrow?.toList ++ g.arrows) := by
  rcases fact with ⟨name, line⟩ | ⟨_ | scope, target⟩ | ⟨scope, callee⟩ | ⟨node⟩
  · exact .refl _
  · exact .refl _
  · exact g.arrows_addEdge scope.node ⟨target, none⟩
  · exact g.arrows_addEdge scope.node ⟨callee, scope.label⟩
  · exact .of_eq (g.arrows_addNode node)

theorem arrows_ofFacts (facts : List Fact) :
    (ofFacts facts).arrows.Perm (facts.filterMap Fact.arrow?) := by
  -- A new edge goes to the end of its node's edges, so only the order of the arrows differs.
  suffices h : ∀ g : Graph,
      (facts.foldl learn g).arrows.Perm (facts.filterMap Fact.arrow? ++ g.arrows) by
    have hempty := h .empty
    rwa [arrows_empty, List.append_nil] at hempty
  induction facts with
  | nil => exact fun g => .refl _
  | cons fact rest ih =>
    intro g
    refine (ih (g.learn fact)).trans (((g.arrows_learn fact).append_left _).trans ?_)
    cases h : fact.arrow? with
    | none => simp [h]
    | some a => simp [h]

theorem mem_learn {g : Graph} {fact : Fact} {id : NodeId} :
    id ∈ g.learn fact ↔
      id ∈ g ∨ (∃ e, fact.arrow? = some (id, e)) ∨ fact = .closed id := by
  rcases fact with ⟨name, line⟩ | ⟨_ | scope, target⟩ | ⟨scope, callee⟩ | ⟨node⟩ <;>
    simp [learn, Fact.arrow?, or_comm, eq_comm]

theorem mem_ofFacts {facts : List Fact} {id : NodeId} :
    id ∈ ofFacts facts ↔
      (∃ fact ∈ facts, ∃ e, fact.arrow? = some (id, e)) ∨ .closed id ∈ facts := by
  have h := foldl_iff_exists (f := learn) (p := fun g : Graph => id ∈ g)
    (fun _ _ => mem_learn) facts .empty
  refine h.trans ((or_iff_right (Table.not_mem_empty id)).trans ?_)
  simp only [and_or_left, exists_or, exists_eq_right]

end Graph

def Fact.declaration? : Fact → Option (String × Nat)
  | .declared name line => some (name, line)
  | _ => none

theorem LineMap.ofFacts_eq (facts : List Fact) :
    LineMap.ofFacts facts = Table.ofList (facts.filterMap Fact.declaration?) := by
  rw [LineMap.ofFacts, Table.ofList, List.foldl_filterMap]
  congr
  funext lines fact
  cases fact <;> rfl

theorem LineMap.mem_ofFacts {facts : List Fact} {name : String} :
    name ∈ LineMap.ofFacts facts ↔ ∃ line, .declared name line ∈ facts := by
  have h := foldl_iff_exists (p := fun lines : LineMap => name ∈ lines)
    (q := fun fact => ∃ line, fact = .declared name line)
    (f := fun lines fact => match fact with
      | .declared name line => lines.insert name line
      | _ => lines)
    (fun lines fact => by cases fact <;> simp [or_comm, eq_comm]) facts .empty
  refine h.trans ((or_iff_right (Table.not_mem_empty name)).trans ?_)
  constructor
  · rintro ⟨_, hfact, line, rfl⟩
    exact ⟨line, hfact⟩
  · rintro ⟨line, hfact⟩
    exact ⟨_, hfact, line, rfl⟩

end FlowAtlas
