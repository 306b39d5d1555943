import FlowAtlas.Proofs.Suppression

/-! The decisions of a file form a forest. They are numbered in the order in which a walk of the tree
opens them; each hangs from the one node around it, which is a function or an earlier decision. -/

namespace FlowAtlas

/-- A decision that a walk opens: the node and its construct, and whether a function or a branch is
around it. -/
structure Opening where
  node : SyntaxTree
  construct : Construct
  inside : Bool

def Visit.inBranch (v : Visit) : Bool :=
  match v.setting with
  | .around => false
  | .branch _ => true

theorem Visit.openings_place (v : Visit) (o : Outline) (inside : Bool) :
    (v.place o).openings inside true = o.openings (inside || v.inBranch) (!v.inBranch) := by
  unfold place inBranch
  cases v.setting with
  | around => simp
  | branch label => simp [Outline.openings]

namespace Grammar

def openings (g : Grammar) (src : Source) (inside : Bool) (t : SyntaxTree) : List Opening :=
  if g.isHidden src t then []
  else if g.isFunction t then
    t.children.attach.flatMap fun ⟨c, _⟩ => openings g src true c
  else
    match g.construct? t with
    | some construct =>
      ⟨t, construct, inside⟩ :: (g.visits src t construct).attach.flatMap fun ⟨v, _⟩ =>
        openings g src (inside || v.inBranch) v.tree
    | none => t.children.attach.flatMap fun ⟨c, _⟩ => openings g src inside c
termination_by t.size
decreasing_by
  · exact SyntaxTree.size_lt_of_mem_children ‹_›
  · exact size_lt_of_mem_visits ‹_›
  · exact SyntaxTree.size_lt_of_mem_children ‹_›

theorem openings_eq (g : Grammar) (src : Source) (inside : Bool) (t : SyntaxTree) :
    g.openings src inside t =
      if g.isHidden src t then []
      else if g.isFunction t then t.children.flatMap (g.openings src true)
      else
        match g.construct? t with
        | some construct =>
          ⟨t, construct, inside⟩ :: (g.visits src t construct).flatMap fun v =>
            g.openings src (inside || v.inBranch) v.tree
        | none => t.children.flatMap (g.openings src inside) := by
  rw [openings]
  simp only [List.flatMap_def, List.map_attach_eq_pmap, List.pmap_eq_map]

variable {g : Grammar} {src : Source} {root : SyntaxTree}

/-- The ids of the decisions that the walk of a file opens, numbered from one, each with whether a
function or a branch is around it. -/
def openedIds (g : Grammar) (src : Source) (root : SyntaxTree) : List (Bool × NodeId) :=
  ((g.openings src false root).zipIdx 1).map fun (o, n) =>
    (o.inside, .decision n (g.display src o.node o.construct))

theorem openings_withCall (callee : Option String) (below : Outline) (inside within : Bool) :
    (withCall callee below).openings inside within = below.openings inside within := by
  cases callee <;> rfl

theorem openings_outline (inside within : Bool) (parent : Option SyntaxTree) (t : SyntaxTree) :
    (g.outline src false parent t).openings inside within =
      (g.openings src inside t).map fun o => (o.inside, g.display src o.node o.construct) := by
  induction hn : t.size using Nat.strongRecOn generalizing inside within parent t with
  | _ n ih =>
    subst hn
    have hchildren : ∀ inside within,
        (Outline.concat (t.children.map (g.outline src false (some t)))).openings inside within =
          (t.children.flatMap (g.openings src inside)).map
            fun o => (o.inside, g.display src o.node o.construct) := by
      intro inside within
      rw [Outline.openings_concat, List.flatMap_map, List.map_flatMap]
      refine List.flatMap_congr fun c hc => ?_
      exact ih _ (SyntaxTree.size_lt_of_mem_children hc) inside within (some t) c rfl
    rw [outline_eq, openings_eq]
    by_cases hhidden : g.isHidden src t = true
    · rw [if_pos hhidden, if_pos hhidden]
      rfl
    rw [if_neg hhidden, if_neg hhidden]
    by_cases hfunction : g.isFunction t = true
    · rw [if_pos hfunction, if_pos hfunction, ← hchildren true false]
      simp [Outline.openings]
    rw [if_neg hfunction, if_neg hfunction]
    simp only [shownConstruct?, Bool.false_eq_true, if_false]
    cases g.construct? t with
    | none => exact (openings_withCall _ _ inside within).trans (hchildren inside within)
    | some construct =>
      have hvisits : (Outline.concat ((g.visits src t construct).map fun v =>
          v.place (g.outline src false (some v.parent) v.tree))).openings inside true =
          ((g.visits src t construct).flatMap fun v =>
            g.openings src (inside || v.inBranch) v.tree).map
              fun o => (o.inside, g.display src o.node o.construct) := by
        rw [Outline.openings_concat, List.flatMap_map, List.map_flatMap]
        refine List.flatMap_congr fun v hv => ?_
        rw [Visit.openings_place]
        exact ih _ (size_lt_of_mem_visits hv) _ _ (some v.parent) v.tree rfl
      simp only [Outline.openings, hvisits, List.append_nil, List.map_cons]

theorem opened_allFacts (root : SyntaxTree) :
    (g.allFacts src false root).filterMap Fact.opened? = g.openedIds src root := by
  rw [allFacts, Outline.opened_facts]
  simp only [Option.isSome_none, openings_outline, List.zipIdx_map, List.map_map]
  rfl

theorem opened_mem_allFacts {id : NodeId} :
    (∃ outer, .opened outer id ∈ g.allFacts src false root) ↔
      id ∈ (g.openedIds src root).map Prod.snd := by
  rw [← opened_allFacts, List.map_filterMap, List.mem_filterMap]
  constructor
  · rintro ⟨outer, hopen⟩
    exact ⟨_, hopen, rfl⟩
  · rintro ⟨fact, hfact, hopen⟩
    cases fact with
    | opened outer id' =>
      cases hopen
      exact ⟨outer, hfact⟩
    | declared name line => cases hopen
    | called scope callee => cases hopen
    | closed id' => cases hopen

theorem pairwise_openedIds (g : Grammar) (src : Source) (root : SyntaxTree) :
    (g.openedIds src root).Pairwise fun a b => a.2 ≠ b.2 := by
  rw [← opened_allFacts]
  exact Outline.pairwise_opened_facts _ none none 0

theorem countP_arrows (hplain : (g.outline src false none root).Plain) {id : NodeId}
    (hid : NodeId.isDecision id = true) :
    ((g.flow src false root).graph.arrows.countP fun a => a.2.target = id) =
      (g.openedIds src root).count (true, id) := by
  have harrows : (g.flow src false root).graph.arrows.Perm _ :=
    Graph.arrows_ofFacts (g.facts src false root)
  rw [← opened_allFacts, ← filterMap_facts fun _ _ => rfl, harrows.countP_eq, List.countP_filterMap, List.count,
    List.countP_filterMap]
  refine List.countP_congr fun fact hfact => ?_
  cases fact with
  | declared name line => simp [Fact.arrow?, Fact.opened?]
  | opened scope target => cases scope <;> simp [Fact.arrow?, Fact.opened?]
  | called scope callee =>
    have hne : callee ≠ id := by
      rintro rfl
      rw [hplain.callee (mem_allFacts hfact)] at hid
      cases hid
    simp [Fact.arrow?, Fact.opened?, hne]
  | closed node => simp [Fact.arrow?, Fact.opened?]

/-- A decision has one edge to it if something is around it, and none otherwise. -/
theorem countP_arrows_openedIds (hplain : (g.outline src false none root).Plain) {inside : Bool}
    {id : NodeId} (h : (inside, id) ∈ g.openedIds src root) :
    ((g.flow src false root).graph.arrows.countP fun a => a.2.target = id) =
      if inside then 1 else 0 := by
  have hpairs := g.pairwise_openedIds src root
  have hdecision : NodeId.isDecision id = true := by
    obtain ⟨outer, hopen⟩ := opened_mem_allFacts.mpr (List.mem_map_of_mem h)
    exact isDecision_of_opened hopen
  rw [countP_arrows hplain hdecision]
  cases inside with
  | true =>
    have hnodup : (g.openedIds src root).Nodup :=
      hpairs.imp fun hne heq => hne (congrArg Prod.snd heq)
    exact List.count_eq_one_of_mem hnodup h
  | false =>
    -- An edge would be a second opening of the same id, and no number is given twice.
    refine List.count_eq_zero.mpr fun htrue => ?_
    have : Std.Symm fun a b : Bool × NodeId => a.2 ≠ b.2 := ⟨fun _ _ h => h.symm⟩
    exact hpairs.forall h htrue (by simp) rfl

theorem edge_to_decision (hplain : (g.outline src false none root).Plain) {id : NodeId} {e : Edge}
    (he : e ∈ (g.flow src false root).graph.edges id) (htarget : NodeId.isDecision e.target = true) :
    e.label = none ∧ ∃ n shown, e.target = .decision n shown ∧
      (id ∈ (g.flow src false root).lines ∨
        id ∈ (g.flow src false root).graph ∧ ∃ m shown', id = .decision m shown' ∧ m < n) := by
  obtain ⟨scope, hopen, rfl, hlabel⟩ := opened_of_mem_edges hplain he htarget
  obtain ⟨n, shown, hn, hupto⟩ := number_of_opened hplain hopen
  refine ⟨hlabel, n + 1, shown, hn, ?_⟩
  rcases node_of_scope hopen rfl with hfunction | ⟨outer, hopen'⟩
  · exact .inl (mem_lines_flow.mpr hfunction)
  · obtain ⟨m, shown', hnode, _⟩ := number_of_opened hplain hopen'
    have hle : m + 1 ≤ n := hupto scope rfl (m + 1) shown' hnode
    exact .inr ⟨Graph.mem_of_mem_edges he, m + 1, shown', hnode, Nat.lt_succ_of_le hle⟩

theorem number_of_hangs (hplain : (g.outline src false none root).Plain) {a b : NodeId}
    (h : Relation.TransGen (g.flow src false root).graph.Hangs a b) :
    ∃ n shown, b = .decision (n + 1) shown ∧ a.Upto n := by
  have hstep : ∀ a b, (g.flow src false root).graph.Hangs a b →
      ∃ n shown, b = .decision (n + 1) shown ∧ a.Upto n := by
    rintro a _ ⟨hdecision, e, he, rfl⟩
    obtain ⟨scope, hopen, rfl, _⟩ := opened_of_mem_edges hplain he hdecision
    obtain ⟨n, shown, htarget, hupto⟩ := number_of_opened hplain hopen
    exact ⟨n, shown, htarget, hupto scope rfl⟩
  induction h with
  | single hab => exact hstep a _ hab
  | tail _ hbc ih =>
    obtain ⟨m, shown, rfl, ha⟩ := ih
    obtain ⟨n, shown', rfl, hb⟩ := hstep _ _ hbc
    have hle : m + 1 ≤ n := hb (m + 1) shown rfl
    exact ⟨n, shown', rfl, ha.mono (Nat.le_of_succ_le hle)⟩

theorem not_hangs_self (hplain : (g.outline src false none root).Plain) (id : NodeId) :
    ¬ Relation.TransGen (g.flow src false root).graph.Hangs id id := by
  intro h
  obtain ⟨n, shown, heq, hupto⟩ := number_of_hangs hplain h
  exact absurd (hupto (n + 1) shown heq) (Nat.not_succ_le_self n)

theorem perm_openedIds (hplain : (g.outline src false none root).Plain) :
    ((g.flow src false root).graph.keys.filter NodeId.isDecision).Perm
      ((g.openedIds src root).map Prod.snd) := by
  have hkeys : (g.flow src false root).graph.keys.Nodup := (g.flow src false root).graph.nodup
  have hids : ((g.openedIds src root).map Prod.snd).Nodup :=
    List.pairwise_map.mpr (g.pairwise_openedIds src root)
  refine (List.perm_ext_iff_of_nodup (hkeys.filter _) hids).mpr fun id => ?_
  rw [List.mem_filter, ← Table.mem_iff, mem_graph_flow, opened_mem_allFacts]
  constructor
  · rintro ⟨hfunction | hopen, hdecision⟩
    · rw [hplain.function hfunction] at hdecision
      cases hdecision
    · exact hopen
  · intro hopen
    obtain ⟨outer, hfact⟩ := opened_mem_allFacts.mpr hopen
    exact ⟨.inr hopen, isDecision_of_opened hfact⟩

end Grammar

/-- A sound flow whose decisions are the opened ones and form a forest. At most one edge goes to a
decision, none only if nothing is around it; this edge has no label and comes from a function or from a
decision with a smaller number. -/
structure FileFlow.DecisionForest (f : FileFlow) (opened : List (Bool × NodeId)) : Prop
    extends f.Sound where
  decisions : (f.graph.keys.filter NodeId.isDecision).Perm (opened.map Prod.snd)
  edges_to : ∀ inside id, (inside, id) ∈ opened →
    (f.graph.arrows.countP fun a => a.2.target = id) = if inside then 1 else 0
  parent : ∀ id, ∀ e ∈ f.graph.edges id, NodeId.isDecision e.target = true →
    e.label = none ∧ ∃ n shown, e.target = .decision n shown ∧
      (id ∈ f.lines ∨ id ∈ f.graph ∧ ∃ m shown', id = .decision m shown' ∧ m < n)
  acyclic : ∀ id, ¬ Relation.TransGen f.graph.Hangs id id

/-- With decisions, the flow of a text is sound and a forest of the decisions that a walk of its tree
opens, numbered from one in their order. What an arm without a pattern is labelled with must be a text. -/
theorem Grammar.flow_decisions_forest (g : Grammar) (hlabel : g.choice.defaultLabel.isSome = true)
    (text : String) (htext : '\x1f' ∉ text.toList) (root : SyntaxTree) :
    (g.flow (.ofString text) false root).DecisionForest (g.openedIds (.ofString text) root) := by
  have hsrc := Source.separator_notMem_ofString htext
  have hplain := plain_outline hlabel hsrc false none root
  exact
    { toSound := sound_flow_of_plain hplain
      decisions := perm_openedIds hplain
      edges_to := fun inside id => countP_arrows_openedIds hplain
      parent := fun id e => edge_to_decision hplain
      acyclic := not_hangs_self hplain }

def forestText : String := "if a:\n x\ndef f():\n if b:\n  while c:\n   g()\n"

def forestTree : SyntaxTree :=
  .node ⟨"module", true, none, 0, 43, 0⟩
    [.node ⟨"if_statement", true, none, 0, 8, 0⟩
      [.node ⟨"identifier", true, some "condition", 3, 4, 0⟩ [],
       .node ⟨"block", true, some "consequence", 7, 8, 1⟩ []],
     .node ⟨"function_definition", true, none, 9, 42, 2⟩
      [.node ⟨"identifier", true, some "name", 13, 14, 2⟩ [],
       .node ⟨"block", true, some "body", 19, 42, 3⟩
        [.node ⟨"if_statement", true, none, 19, 42, 3⟩
          [.node ⟨"identifier", true, some "condition", 22, 23, 3⟩ [],
           .node ⟨"block", true, some "consequence", 27, 42, 4⟩
            [.node ⟨"while_statement", true, none, 27, 42, 4⟩
              [.node ⟨"identifier", true, some "condition", 33, 34, 4⟩ [],
               .node ⟨"block", true, some "body", 39, 42, 5⟩
                [.node ⟨"call", true, none, 39, 42, 5⟩
                  [.node ⟨"identifier", true, some "function", 39, 40, 5⟩ []]]]]]]]]

def forestGraph : Graph := (Grammar.python.flow (.ofString forestText) false forestTree).graph

theorem forestGraph_forest :
    (forestGraph.keys.filter NodeId.isDecision).Perm
      ["_decision_1\x1fif a", "_decision_2\x1fif b", "_decision_3\x1fwhile c"] ∧
    (forestGraph.arrows.countP fun a => a.2.target = "_decision_1\x1fif a") = 0 ∧
    (forestGraph.arrows.countP fun a => a.2.target = "_decision_3\x1fwhile c") = 1 ∧
    ¬ Relation.TransGen forestGraph.Hangs "_decision_2\x1fif b" "_decision_2\x1fif b" := by
  have hforest := Grammar.flow_decisions_forest .python rfl forestText (by decide) forestTree
  have hopened : Grammar.python.openedIds (.ofString forestText) forestTree =
      [(false, "_decision_1\x1fif a"), (true, "_decision_2\x1fif b"),
        (true, "_decision_3\x1fwhile c")] := by
    decide +kernel
  rw [hopened] at hforest
  exact ⟨hforest.decisions, hforest.edges_to false _ (by decide), hforest.edges_to true _ (by decide),
    hforest.acyclic _⟩

end FlowAtlas
