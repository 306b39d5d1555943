import FlowAtlas.Proofs.Places

/-! What showing decisions keeps. A decision is shown with its condition, its branches, its subject and
what stands in its arms; the patterns of an arm only label it. Every function and every call at a place
that decisions above it show is in the graph with decisions, the call below the function around it. -/

namespace FlowAtlas
namespace Grammar

def decision? (g : Grammar) (t : SyntaxTree) : Option Construct :=
  if g.isFunction t then none else g.construct? t

/-- The paths, nearest node first, on which every decision shows the node that the path goes on to. -/
inductive Shown (g : Grammar) (src : Source) : List SyntaxTree → Prop
  | root (t : SyntaxTree) : Shown g src [t]
  | plain {c t : SyntaxTree} {above : List SyntaxTree} (shown : Shown g src (t :: above))
      (plain : g.decision? t = none) : Shown g src (c :: t :: above)
  | branch {c t : SyntaxTree} {above : List SyntaxTree} {field : Option String}
      (shown : Shown g src (t :: above)) (conditional : g.decision? t = some .conditional)
      (field_mem : field ∈ [g.conditional.condition, g.conditional.consequence,
        g.conditional.alternative])
      (child : t.childIn? field = some c) : Shown g src (c :: t :: above)
  | elifClause {c clause t : SyntaxTree} {above : List SyntaxTree} {field : Option String}
      (shown : Shown g src (t :: above)) (conditional : g.decision? t = some .conditional)
      (kind : g.conditional.elifKind = some clause.kind)
      (field_mem : field ∈ [g.conditional.elifCondition, g.conditional.elifBody])
      (child : clause.childIn? field = some c) : Shown g src (c :: clause :: t :: above)
  | elseClause {c clause t : SyntaxTree} {above : List SyntaxTree}
      (shown : Shown g src (t :: above)) (conditional : g.decision? t = some .conditional)
      (first : (t.childrenOfKind g.conditional.elseKind).head? = some clause)
      (child : clause.childIn? g.conditional.elseBody = some c) :
      Shown g src (c :: clause :: t :: above)
  | loop {c t : SyntaxTree} {above : List SyntaxTree} (shown : Shown g src (t :: above))
      (loop : g.decision? t = some .loop) : Shown g src (c :: t :: above)
  | subject {c t : SyntaxTree} {above : List SyntaxTree} (shown : Shown g src (t :: above))
      (choice : g.decision? t = some .choice) (child : t.childIn? g.choice.subject = some c) :
      Shown g src (c :: t :: above)
  | arm {c arm t : SyntaxTree} {above : List SyntaxTree} (shown : Shown g src (t :: above))
      (choice : g.decision? t = some .choice) (body : t.childIn? g.choice.body = none)
      (kind : g.choice.armKinds.contains arm.kind = true)
      (no_pattern : (g.choice.patterns arm).any c.sameSpan = false) :
      Shown g src (c :: arm :: t :: above)
  | armOfBody {c arm body t : SyntaxTree} {above : List SyntaxTree} (shown : Shown g src (t :: above))
      (choice : g.decision? t = some .choice) (body_child : t.childIn? g.choice.body = some body)
      (plain : g.isFunction body = false)
      (kind : g.choice.armKinds.contains arm.kind = true)
      (no_pattern : (g.choice.patterns arm).any c.sameSpan = false) :
      Shown g src (c :: arm :: body :: t :: above)

variable {g : Grammar} {src : Source} {w : Option String → Outline → Nat}

theorem isFunction_of_decision? {t : SyntaxTree} {construct : Construct}
    (h : g.decision? t = some construct) : g.isFunction t = false := by
  by_cases hfunction : g.isFunction t = true
  · simp [decision?, hfunction] at h
  · simpa using hfunction

theorem enclosing_of_not_isFunction {t : SyntaxTree} (h : g.isFunction t = false)
    (above : List SyntaxTree) : g.enclosing src (t :: above) = g.enclosing src above := by
  simp [enclosing, h]

theorem weight_child_le (hw : Outline.IsWeight w) {t c : SyntaxTree} {above : List SyntaxTree}
    (hhidden : g.isHidden src t = false) (hplain : g.decision? t = none) (hc : c ∈ t.children) :
    w (g.enclosing src (t :: above)) (g.outline src false (some t) c) ≤
      w (g.enclosing src above) (g.outline src false above.head? t) := by
  have hchild : ∀ f, w f (g.outline src false (some t) c) ≤
      w f (.concat (t.children.map (g.outline src false (some t)))) := fun f =>
    hw.le_concat f (List.mem_map_of_mem hc)
  rw [outline_eq g src false above.head?, if_neg (by simp [hhidden]), enclosing]
  by_cases hfunction : g.isFunction t = true
  · rw [if_pos hfunction, if_pos hfunction]
    exact (hchild _).trans (hw.body _ _ _ _)
  · have hconstruct : g.construct? t = none := by simpa [decision?, hfunction] using hplain
    rw [if_neg hfunction, if_neg hfunction]
    simp only [shownConstruct?, Bool.false_eq_true, if_false, hconstruct]
    rw [hw.withCall]
    exact (hchild _).trans (Nat.le_add_left _ _)

theorem weight_visited_le (hw : Outline.IsWeight w) {t parent c : SyntaxTree}
    {above : List SyntaxTree} {construct : Construct} (hhidden : g.isHidden src t = false)
    (hdecision : g.decision? t = some construct)
    (hv : ∃ setting, ⟨setting, parent, c⟩ ∈ g.visits src t construct) :
    w (g.enclosing src (t :: above)) (g.outline src false (some parent) c) ≤
      w (g.enclosing src above) (g.outline src false above.head? t) := by
  obtain ⟨setting, hv⟩ := hv
  have hfunction := isFunction_of_decision? hdecision
  have hconstruct : g.construct? t = some construct := by simpa [decision?, hfunction] using hdecision
  rw [enclosing_of_not_isFunction hfunction, outline_eq g src false above.head?,
    if_neg (by simp [hhidden]), if_neg (by simp [hfunction])]
  simp only [shownConstruct?, Bool.false_eq_true, if_false, hconstruct]
  rw [hw.decision, ← hw.place _ ⟨setting, parent, c⟩]
  exact hw.le_concat _ (List.mem_map_of_mem hv)

section Visits
variable {t c : SyntaxTree} {field : Option String}

theorem mem_ofChild {setting : Setting} {child : Option SyntaxTree} (h : child = some c) :
    ⟨setting, t, c⟩ ∈ Visit.ofChild setting t child := by
  simp [Visit.ofChild, h]

theorem branch_mem_visits (hfield : field ∈ [g.conditional.condition, g.conditional.consequence,
    g.conditional.alternative]) (hchild : t.childIn? field = some c) :
    ∃ setting, ⟨setting, t, c⟩ ∈ g.visits src t .conditional := by
  simp only [visits, IfRule.visits, List.mem_append]
  simp only [List.mem_cons, List.not_mem_nil, or_false] at hfield
  rcases hfield with rfl | rfl | rfl
  · exact ⟨_, .inl (.inl (.inl (.inl (mem_ofChild hchild))))⟩
  · exact ⟨_, .inl (.inl (.inl (.inr (mem_ofChild hchild))))⟩
  · exact ⟨_, .inl (.inl (.inr (mem_ofChild hchild)))⟩

theorem elif_mem_visits {clause : SyntaxTree} (hclause : clause ∈ t.children)
    (hkind : g.conditional.elifKind = some clause.kind)
    (hfield : field ∈ [g.conditional.elifCondition, g.conditional.elifBody])
    (hchild : clause.childIn? field = some c) :
    ∃ setting, ⟨setting, clause, c⟩ ∈ g.visits src t .conditional := by
  have hmem : clause ∈ t.childrenOfKind g.conditional.elifKind :=
    List.mem_filter.mpr ⟨hclause, by simp [hkind]⟩
  obtain ⟨i, hi⟩ := List.mem_iff_getElem?.mp hmem
  have hindex := List.mk_mem_zipIdx_iff_getElem?.mpr hi
  simp only [visits, IfRule.visits, List.mem_append, List.mem_flatMap]
  simp only [List.mem_cons, List.not_mem_nil, or_false] at hfield
  rcases hfield with rfl | rfl
  · exact ⟨_, .inl (.inr ⟨_, hindex, .inl (mem_ofChild hchild)⟩)⟩
  · exact ⟨_, .inl (.inr ⟨_, hindex, .inr (mem_ofChild hchild)⟩)⟩

theorem else_mem_visits {clause : SyntaxTree}
    (hfirst : (t.childrenOfKind g.conditional.elseKind).head? = some clause)
    (hchild : clause.childIn? g.conditional.elseBody = some c) :
    ∃ setting, ⟨setting, clause, c⟩ ∈ g.visits src t .conditional := by
  have hmem : clause ∈ (t.childrenOfKind g.conditional.elseKind).take 1 := by
    cases h : t.childrenOfKind g.conditional.elseKind with
    | nil => simp [h] at hfirst
    | cons a rest => simpa [h, eq_comm] using hfirst
  simp only [visits, IfRule.visits, List.mem_append, List.mem_flatMap]
  exact ⟨_, .inr ⟨clause, hmem, mem_ofChild hchild⟩⟩

theorem loop_mem_visits (hc : c ∈ t.children) : ∃ setting, ⟨setting, t, c⟩ ∈ g.visits src t .loop :=
  ⟨_, List.mem_map_of_mem hc⟩

theorem subject_mem_visits (hchild : t.childIn? g.choice.subject = some c) :
    ∃ setting, ⟨setting, t, c⟩ ∈ g.visits src t .choice :=
  ⟨_, List.mem_append_left _ (mem_ofChild hchild)⟩

theorem arm_mem_visits {arm : SyntaxTree}
    (harm : arm ∈ ((t.childIn? g.choice.body).getD t).children)
    (hkind : g.choice.armKinds.contains arm.kind = true) (hc : c ∈ arm.children)
    (hpattern : (g.choice.patterns arm).any c.sameSpan = false) :
    ∃ setting, ⟨setting, arm, c⟩ ∈ g.visits src t .choice := by
  have hmem : arm ∈ g.choice.arms t := List.mem_filter.mpr ⟨harm, hkind⟩
  have hpart : c ∈ arm.children.filter fun c => !(g.choice.patterns arm).any c.sameSpan :=
    List.mem_filter.mpr ⟨hc, by rw [hpattern]; rfl⟩
  exact ⟨_, List.mem_append_right _ (List.mem_flatMap.mpr ⟨arm, hmem, List.mem_map_of_mem hpart⟩)⟩

end Visits

theorem Unambiguous.not_isFunction (hg : g.Unambiguous) {t : SyntaxTree}
    (h : t.kind ∈ g.partKinds) : g.isFunction t = false :=
  (hg.isPlain h ⟨[]⟩).2

/-- What stands at a shown place, the outline of the whole tree states. -/
theorem weight_shown_le (hw : Outline.IsWeight w) (hg : g.Unambiguous) {root : SyntaxTree}
    {path : List SyntaxTree} (hshown : Shown g src path) {c : SyntaxTree} {above : List SyntaxTree}
    (hpath : path = c :: above) (hplace : ⟨c, above⟩ ∈ g.places src [] root) :
    w (g.enclosing src above) (g.outline src false above.head? c) ≤
      w none (g.outline src false none root) := by
  -- From the root down the path; the nodes between a decision and what it visits are no functions.
  induction hshown generalizing c above with
  | root t =>
    cases hpath
    rcases length_above_lt hplace with heq | hlt
    · cases heq
      exact le_refl _
    · cases hlt
  | plain _ hplain ih =>
    cases hpath
    obtain ⟨ht, hc⟩ := parent_mem_places hplace (Nat.zero_le _)
    exact (weight_child_le hw (hidden_of_mem_places ht) hplain hc).trans (ih rfl ht)
  | branch _ hdecision hfield hchild ih =>
    cases hpath
    obtain ⟨ht, _⟩ := parent_mem_places hplace (Nat.zero_le _)
    exact (weight_visited_le hw (hidden_of_mem_places ht) hdecision
      (branch_mem_visits hfield hchild)).trans (ih rfl ht)
  | @elifClause c clause t above field _ hdecision hkind hfield hchild ih =>
    cases hpath
    obtain ⟨hclause, _⟩ := parent_mem_places hplace (Nat.zero_le _)
    obtain ⟨ht, hmem⟩ := parent_mem_places hclause (Nat.zero_le _)
    rw [enclosing_of_not_isFunction (hg.not_isFunction (by simp [partKinds, hkind]))]
    exact (weight_visited_le hw (hidden_of_mem_places ht) hdecision
      (elif_mem_visits hmem hkind hfield hchild)).trans (ih rfl ht)
  | @elseClause c clause t above _ hdecision hfirst hchild ih =>
    cases hpath
    obtain ⟨hclause, _⟩ := parent_mem_places hplace (Nat.zero_le _)
    obtain ⟨ht, _⟩ := parent_mem_places hclause (Nat.zero_le _)
    have hkind := (List.mem_filter.mp (List.mem_of_head? hfirst)).2
    rw [enclosing_of_not_isFunction (hg.not_isFunction (by simp [partKinds, eq_of_beq hkind]))]
    exact (weight_visited_le hw (hidden_of_mem_places ht) hdecision
      (else_mem_visits hfirst hchild)).trans (ih rfl ht)
  | loop _ hdecision ih =>
    cases hpath
    obtain ⟨ht, hc⟩ := parent_mem_places hplace (Nat.zero_le _)
    exact (weight_visited_le hw (hidden_of_mem_places ht) hdecision
      (loop_mem_visits hc)).trans (ih rfl ht)
  | subject _ hdecision hchild ih =>
    cases hpath
    obtain ⟨ht, _⟩ := parent_mem_places hplace (Nat.zero_le _)
    exact (weight_visited_le hw (hidden_of_mem_places ht) hdecision
      (subject_mem_visits hchild)).trans (ih rfl ht)
  | @arm c arm t above _ hdecision hbody hkind hpattern ih =>
    cases hpath
    obtain ⟨harm, hc⟩ := parent_mem_places hplace (Nat.zero_le _)
    obtain ⟨ht, hmem⟩ := parent_mem_places harm (Nat.zero_le _)
    rw [enclosing_of_not_isFunction (hg.not_isFunction (mem_partKinds_of_arm hkind))]
    exact (weight_visited_le hw (hidden_of_mem_places ht) hdecision
      (arm_mem_visits (by simpa [hbody] using hmem) hkind hc hpattern)).trans (ih rfl ht)
  | @armOfBody c arm body t above _ hdecision hbody hplain hkind hpattern ih =>
    cases hpath
    obtain ⟨harm, hc⟩ := parent_mem_places hplace (Nat.zero_le _)
    obtain ⟨hplace', hmem⟩ := parent_mem_places harm (Nat.zero_le _)
    obtain ⟨ht, _⟩ := parent_mem_places hplace' (Nat.zero_le _)
    rw [enclosing_of_not_isFunction (hg.not_isFunction (mem_partKinds_of_arm hkind)),
      enclosing_of_not_isFunction hplain]
    exact (weight_visited_le hw (hidden_of_mem_places ht) hdecision
      (arm_mem_visits (by simpa [hbody] using hmem) hkind hc hpattern)).trans (ih rfl ht)

theorem Unambiguous.construct?_of_callee? (hg : g.Unambiguous) {t : SyntaxTree} {callee : String}
    (h : g.callee? src t = some callee) : g.construct? t = none := by
  have hcall : g.callKind = some t.kind := by
    by_cases hkind : (g.callKind == some t.kind) = true
    · exact eq_of_beq hkind
    · simp [callee?, hkind] at h
  have hkind := hg.call_plain t.kind hcall
  simp only [decisionKinds, List.mem_append, Option.mem_toList, not_or] at hkind
  obtain ⟨⟨⟨⟨hif, hfor⟩, hwhile⟩, hendless⟩, hmatch⟩ := hkind
  simp [construct?, isLoop, hif, hfor, hwhile, hendless, hmatch]

theorem call_mem_outline (hg : g.Unambiguous) {p : Place} (hhidden : g.isHidden src p.node = false)
    {call : String × String} (h : g.call? src p = some call) :
    call ∈ (g.outline src false p.above.head? p.node).calls (g.enclosing src p.above) := by
  unfold call? at h
  split at h
  · cases h
  · rename_i hfunction
    obtain ⟨f, hf, h⟩ := Option.bind_eq_some_iff.mp h
    obtain ⟨callee, hcallee, rfl⟩ := Option.map_eq_some_iff.mp h
    rw [outline_eq, if_neg (by simp [hhidden]), if_neg hfunction]
    simp only [shownConstruct?, Bool.false_eq_true, if_false, hg.construct?_of_callee? hcallee]
    rw [calls_withCall, hf, hcallee]
    exact List.mem_cons_self

theorem function_mem_outline {p : Place} (hhidden : g.isHidden src p.node = false) {name : String}
    (h : g.declared? src p = some name) :
    name ∈ (g.outline src false p.above.head? p.node).functions := by
  unfold declared? at h
  split at h
  · rename_i hfunction
    cases h
    rw [outline_eq, if_neg (by simp [hhidden]), if_pos hfunction]
    exact List.mem_cons_self
  · cases h

variable {root : SyntaxTree}

theorem exists_edge_below {suppress : Bool} (hplain : (g.outline src suppress none root).Plain)
    {f callee : NodeId} (h : (f, callee) ∈ (g.facts src suppress root).filterMap Fact.call?) :
    ∃ n, (g.flow src suppress root).graph.HangsBelow f n ∧
      ∃ e ∈ (g.flow src suppress root).graph.edges n, e.target = callee := by
  obtain ⟨fact, hfact, hcall⟩ := List.mem_filterMap.mp h
  rcases fact with ⟨name, line⟩ | ⟨scope, id⟩ | ⟨scope, target⟩ | ⟨id⟩
  · cases hcall
  · cases hcall
  · obtain ⟨function, hfunction, heq⟩ := Option.map_eq_some_iff.mp hcall
    cases heq
    exact ⟨scope.node, hangsBelow_of_function hplain (mem_allFacts hfact) rfl hfunction, _,
      mem_edges_flow.mpr (.inr ⟨scope, callee, hfact, rfl, rfl⟩), rfl⟩
  · cases hcall

theorem call_of_edge (hplain : (g.outline src true none root).Plain) {f : NodeId} {e : Edge}
    (he : e ∈ (g.flow src true root).graph.edges f) :
    (f, e.target) ∈ (g.facts src true root).filterMap Fact.call? := by
  rcases mem_edges_flow.mp he with ⟨scope, target, hopen, _, _⟩ | ⟨scope, callee, hcall, rfl, rfl⟩
  · exact absurd hopen (opened_notMem_allFacts _ target)
  · have hfunction := function_of_scope hplain (mem_allFacts hcall) rfl
    exact List.mem_filterMap.mpr ⟨_, hcall, by simp [Fact.call?, hfunction]⟩

end Grammar

/-- Showing decisions keeps the functions and the calls at all places that are shown. Without decisions,
every function is declared at a place and every edge is a call made at one; if such a place is shown,
then the function is there with decisions too, and the call leaves it or a decision below it. -/
theorem Language.shown_places_kept (l : Language) (text : String) (root : SyntaxTree)
    (htext : '\x1f' ∉ text.toList) :
    (∀ f ∈ (l.grammar.flow (.ofString text) true root).graph,
      (∃ p ∈ l.grammar.places (.ofString text) [] root,
        l.grammar.declared? (.ofString text) p = some f) ∧
      ∀ p ∈ l.grammar.places (.ofString text) [] root,
        l.grammar.declared? (.ofString text) p = some f →
        l.grammar.Shown (.ofString text) (p.node :: p.above) →
        f ∈ (l.grammar.flow (.ofString text) false root).graph) ∧
    ∀ f, ∀ e ∈ (l.grammar.flow (.ofString text) true root).graph.edges f,
      (∃ p ∈ l.grammar.places (.ofString text) [] root,
        l.grammar.call? (.ofString text) p = some (f, e.target)) ∧
      ∀ p ∈ l.grammar.places (.ofString text) [] root,
        l.grammar.call? (.ofString text) p = some (f, e.target) →
        l.grammar.Shown (.ofString text) (p.node :: p.above) →
        ∃ n, (l.grammar.flow (.ofString text) false root).graph.HangsBelow f n ∧
          ∃ e' ∈ (l.grammar.flow (.ofString text) false root).graph.edges n,
            e'.target = e.target := by
  have hplain := fun suppress => l.plain_outline htext suppress root
  constructor
  · intro f hf
    constructor
    · rcases Grammar.mem_graph_flow.mp hf with h | ⟨outer, h⟩
      · have hfunctions : (l.grammar.outline (.ofString text) true none root).functions = _ :=
          Grammar.functions_outline_true [] root
        exact List.mem_filterMap.mp (hfunctions ▸ h)
      · exact absurd h (Grammar.opened_notMem_allFacts outer f)
    · intro p hp hdeclared hshown
      have hmem := Grammar.function_mem_outline (Grammar.hidden_of_mem_places hp) hdeclared
      have hle := Grammar.weight_shown_le (Outline.isWeight_functions f) (Grammar.unambiguous l) hshown
        rfl hp
      rw [Grammar.mem_graph_flow]
      exact .inl (List.count_pos_iff.mp (lt_of_lt_of_le (List.count_pos_iff.mpr hmem) hle))
  · intro f e he
    have hcall := Grammar.call_of_edge (hplain true) he
    rw [Grammar.calls_facts] at hcall
    obtain ⟨hcall, hkeeps⟩ := List.mem_filter.mp hcall
    constructor
    · have hcalls : (l.grammar.outline (.ofString text) true none root).calls none = _ :=
        Grammar.calls_outline_true [] root
      exact List.mem_filterMap.mp (hcalls ▸ hcall)
    · intro p hp hmakes hshown
      have hmem := Grammar.call_mem_outline (Grammar.unambiguous l) (Grammar.hidden_of_mem_places hp)
        hmakes
      have hle := Grammar.weight_shown_le (Outline.isWeight_calls (f, e.target)) (Grammar.unambiguous l)
        hshown rfl hp
      refine Grammar.exists_edge_below (hplain false) ?_
      rw [Grammar.calls_facts]
      exact List.mem_filter.mpr
        ⟨List.count_pos_iff.mp (lt_of_lt_of_le (List.count_pos_iff.mpr hmem) hle), hkeeps⟩

theorem shown_branch_kept :
    ∃ n, (Grammar.rust.flow (.ofString branchText) false branchTree).graph.HangsBelow "f" n ∧
      ∃ e ∈ (Grammar.rust.flow (.ofString branchText) false branchTree).graph.edges n,
        e.target = "g" := by
  have hedge : ⟨"g", none⟩ ∈
      (Grammar.rust.flow (.ofString branchText) true branchTree).graph.edges "f" := by
    decide +kernel
  have hplace : ⟨branchCall, [branchIf, branchTree]⟩ ∈
      Grammar.rust.places (.ofString branchText) [] branchTree := by
    have hif : branchIf ∈ branchTree.children := by simp [branchTree, SyntaxTree.children]
    have hcall : branchCall ∈ branchIf.children := by simp [branchIf, SyntaxTree.children]
    refine Grammar.mem_places.mpr ⟨by decide +kernel, .inr ⟨branchIf, hif, ?_⟩⟩
    refine Grammar.mem_places.mpr ⟨by decide +kernel, .inr ⟨branchCall, hcall, ?_⟩⟩
    exact Grammar.mem_places.mpr ⟨by decide +kernel, .inl rfl⟩
  have hshown : Grammar.rust.Shown (.ofString branchText) [branchCall, branchIf, branchTree] :=
    .branch (.plain (.root branchTree) (by decide)) (by decide) (by decide : some "consequence" ∈ _) rfl
  exact ((Language.shown_places_kept .rust branchText branchTree (by decide)).2 "f" _ hedge).2 _ hplace
    (by decide +kernel) hshown

def patternText : String := "function f(){switch(x){case g():}}"

def patternTree : SyntaxTree :=
  .node ⟨"function_declaration", true, none, 0, 34, 0⟩
    [.node ⟨"identifier", true, some "name", 9, 10, 0⟩ [],
     .node ⟨"switch_statement", true, none, 13, 33, 0⟩
      [.node ⟨"parenthesized_expression", true, some "value", 19, 22, 0⟩ [],
       .node ⟨"switch_body", true, some "body", 22, 33, 0⟩
        [.node ⟨"switch_case", true, none, 23, 32, 0⟩
          [.node ⟨"call_expression", true, some "value", 28, 31, 0⟩
            [.node ⟨"identifier", true, some "function", 28, 29, 0⟩ []]]]]]

theorem pattern_call_lost :
    '\x1f' ∉ patternText.toList ∧
      ⟨"g", none⟩ ∈
        (Grammar.typescript.flow (.ofString patternText) true patternTree).graph.edges "f" ∧
      ¬ ∃ n,
        (Grammar.typescript.flow (.ofString patternText) false patternTree).graph.HangsBelow "f" n ∧
        ∃ e ∈ (Grammar.typescript.flow (.ofString patternText) false patternTree).graph.edges n,
          e.target = "g" := by
  refine ⟨by decide, by decide +kernel, ?_⟩
  rintro ⟨n, _, e, he, htarget⟩
  have hmentioned := Graph.mem_mentioned.mpr (.inr ⟨n, e, he, htarget⟩)
  exact absurd hmentioned (by decide +kernel)

end FlowAtlas
