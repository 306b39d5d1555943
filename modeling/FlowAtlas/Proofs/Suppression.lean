import FlowAtlas.Proofs.FileFlow
import FlowAtlas.Proofs.VisitWeight

/-! Decisions shown and decisions suppressed. A tree shown with its decisions states no function and no
call more often than the same tree without them. -/

namespace FlowAtlas

def SyntaxTree.Contains : SyntaxTree → SyntaxTree → Prop :=
  Relation.ReflTransGen fun t c => c ∈ t.children

theorem SyntaxTree.forall_contains {t : SyntaxTree} {P : SyntaxTree → Prop} (ht : P t)
    (hchildren : ∀ c ∈ t.children, ∀ s, c.Contains s → P s) : ∀ s, t.Contains s → P s := by
  intro s hs
  rcases Relation.ReflTransGen.cases_head hs with rfl | ⟨c, hc, hs⟩
  · exact ht
  · exact hchildren c hc s hs

theorem SyntaxTree.contains_of_childIn? {t c : SyntaxTree} {field : Option String}
    (h : t.childIn? field = some c) : t.Contains c :=
  .single (mem_children_of_childIn? h)

theorem Grammar.contains_of_mem_visits {g : Grammar} {src : Source} {t : SyntaxTree}
    {construct : Construct} {v : Visit} (hv : v ∈ g.visits src t construct) : t.Contains v.tree := by
  have hchild : ∀ {setting : Setting} {parent : SyntaxTree} {field : Option String},
      v ∈ Visit.ofChild setting parent (parent.childIn? field) → parent.Contains v.tree := by
    intro setting parent field hmem
    obtain ⟨c, hc, rfl⟩ := List.mem_map.mp hmem
    exact SyntaxTree.contains_of_childIn? (Option.mem_toList.mp hc)
  have hclause : ∀ {clause : SyntaxTree} {kind : Option String}, clause ∈ t.childrenOfKind kind →
      t.Contains clause := fun hmem => .single (List.mem_filter.mp hmem).1
  cases construct with
  | conditional =>
    simp only [visits, IfRule.visits, List.mem_append, List.mem_flatMap] at hv
    rcases hv with (((hv | hv) | hv) | ⟨⟨clause, i⟩, hc, hv | hv⟩) | ⟨clause, hc, hv⟩
    · exact hchild hv
    · exact hchild hv
    · exact hchild hv
    · exact (hclause (List.fst_mem_of_mem_zipIdx hc)).trans (hchild hv)
    · exact (hclause (List.fst_mem_of_mem_zipIdx hc)).trans (hchild hv)
    · exact (hclause (List.mem_of_mem_take hc)).trans (hchild hv)
  | loop =>
    obtain ⟨c, hc, rfl⟩ := List.mem_map.mp hv
    exact .single hc
  | choice =>
    simp only [visits, MatchRule.visits, List.mem_append, List.mem_flatMap] at hv
    rcases hv with hv | ⟨arm, harm, hv⟩
    · exact hchild hv
    · obtain ⟨c, hc, rfl⟩ := List.mem_map.mp hv
      have hholder : t.Contains ((t.childIn? g.choice.body).getD t) := by
        cases hbody : t.childIn? g.choice.body with
        | none => exact .refl
        | some body => exact SyntaxTree.contains_of_childIn? hbody
      exact (hholder.tail (List.mem_filter.mp harm).1).tail (List.mem_filter.mp hc).1

namespace Outline

/-- A weight that adds up along a sequence, sees through decisions and branches, and counts what stands
in functions. It may depend on the function around the outline. -/
structure IsWeight (w : Option String → Outline → Nat) : Prop where
  done : ∀ f, w f .done = 0
  append : ∀ f a b, w f (a.append b) = w f a + w f b
  decision : ∀ f display body, w f (.decision display body .done) = w f body
  branch : ∀ f label body, w f (.branch label body .done) = w f body
  function : ∀ f name line a b, w (some name) a ≤ w (some name) b →
    w f (.function name line a .done) ≤ w f (.function name line b .done)
  body : ∀ f name line body, w (some name) body ≤ w f (.function name line body .done)

theorem isWeight_calls (call : String × String) : IsWeight fun f o => (o.calls f).count call where
  done f := rfl
  append f a b := by rw [calls_append, List.count_append]
  decision f display body := by simp [calls]
  branch f label body := by simp [calls]
  function f name line a b h := by simpa [calls] using h
  body f name line body := by simp [calls]

theorem isWeight_functions (name : String) : IsWeight fun _ o => o.functions.count name where
  done f := rfl
  append f a b := by rw [functions_append, List.count_append]
  decision f display body := by simp [functions]
  branch f label body := by simp [functions]
  function f name' line a b h := by simpa [functions, List.count_cons] using h
  body f name' line body := by simp [functions, List.count_cons]

namespace IsWeight
variable {w : Option String → Outline → Nat}

theorem concat (hw : IsWeight w) (f : Option String) (os : List Outline) :
    w f (concat os) = (os.map (w f)).sum := by
  induction os with
  | nil => exact hw.done f
  | cons o rest ih => exact (hw.append f o _).trans (congrArg _ ih)

theorem le_concat (hw : IsWeight w) (f : Option String) {o : Outline} {os : List Outline}
    (h : o ∈ os) : w f o ≤ w f (Outline.concat os) := by
  rw [hw.concat]
  exact List.le_sum_of_mem (List.mem_map_of_mem h)

theorem withCall (hw : IsWeight w) (f : Option String) (callee : Option String) (below : Outline) :
    w f (Grammar.withCall callee below) = w f (Grammar.withCall callee .done) + w f below := by
  cases callee with
  | none => simp [Grammar.withCall, hw.done]
  | some callee => exact hw.append f (.call callee .done) below

theorem place (hw : IsWeight w) (f : Option String) (v : Visit) (o : Outline) :
    w f (v.place o) = w f o := by
  unfold Visit.place
  split
  · rfl
  · exact hw.branch f _ o

end IsWeight
end Outline

namespace Grammar
variable {g : Grammar} {src : Source} {w : Option String → Outline → Nat}

theorem weight_outline_true (hw : Outline.IsWeight w) (f : Option String)
    (parent : Option SyntaxTree) {t : SyntaxTree} (ht : g.IsPlain src t) :
    w f (g.outline src true parent t) = w f (withCall (g.callee? src t) .done) +
      (t.children.map fun c => w f (g.outline src true (some t) c)).sum := by
  rw [outline_eq, if_neg (by simp [ht.1]), if_neg (by simp [ht.2])]
  simp only [shownConstruct?, if_true]
  rw [hw.withCall, hw.concat, List.map_map]
  rfl

theorem weight_outline_le (hw : Outline.IsWeight w) (hg : g.Unambiguous) (f : Option String)
    (parent : Option SyntaxTree) (t : SyntaxTree)
    (htidy : ∀ s, t.Contains s → g.Tidy src s) :
    w f (g.outline src false parent t) ≤ w f (g.outline src true parent t) := by
  induction hn : t.size using Nat.strongRecOn generalizing f parent t with
  | _ n ih =>
    subst hn
    have hchildren : ∀ f, w f (.concat (t.children.map (g.outline src false (some t)))) ≤
        w f (.concat (t.children.map (g.outline src true (some t)))) := by
      intro f
      rw [hw.concat, hw.concat, List.map_map, List.map_map]
      refine List.sum_le_sum fun c hc => ?_
      exact ih _ (SyntaxTree.size_lt_of_mem_children hc) f (some t) c
        (fun s hs => htidy s (.head hc hs)) rfl
    by_cases hhidden : g.isHidden src t = true
    · rw [outline_eq, outline_eq, if_pos hhidden, if_pos hhidden]
    by_cases hfunction : g.isFunction t = true
    · rw [outline_eq, outline_eq, if_neg hhidden, if_neg hhidden, if_pos hfunction,
        if_pos hfunction]
      exact hw.function f _ _ _ _ (hchildren _)
    have hplain : g.IsPlain src t := ⟨by simpa using hhidden, by simpa using hfunction⟩
    rw [weight_outline_true hw f parent hplain, outline_eq, if_neg hhidden, if_neg hfunction]
    simp only [shownConstruct?, Bool.false_eq_true, if_false]
    split
    · rename_i construct hconstruct
      rw [hw.decision, hw.concat, List.map_map]
      have hvisits : ((g.visits src t construct).map fun v =>
          w f (v.place (g.outline src false (some v.parent) v.tree))).sum ≤
          Visit.weight (fun p s => w f (g.outline src true (some p) s))
            (g.visits src t construct) := by
        refine List.sum_le_sum fun v hv => ?_
        rw [hw.place]
        exact ih _ (size_lt_of_mem_visits hv) f (some v.parent) v.tree
          (fun s hs => htidy s ((contains_of_mem_visits hv).trans hs)) rfl
      -- What the visits weigh without decisions, the children weigh too.
      have hweight := weight_visits_le (φ := fun p s => w f (g.outline src true (some p) s))
        (fun p s hs => by rw [weight_outline_true hw f (some p) hs]; exact Nat.le_add_left _ _)
        hg (htidy t .refl) hconstruct
      exact hvisits.trans (hweight.trans (Nat.le_add_left _ _))
    · rw [hw.withCall]
      have := hchildren f
      rw [hw.concat f (t.children.map (g.outline src true (some t))), List.map_map] at this
      exact Nat.add_le_add_left this _

def keepsCall (g : Grammar) (marked : List String) (call : String × String) : Bool :=
  !g.builtins.contains call.2 || marked.contains call.2 || marked.contains call.1

theorem calls_facts (suppress : Bool) (root : SyntaxTree) :
    (g.facts src suppress root).filterMap Fact.call? =
      ((g.outline src suppress none root).calls none).filter (g.keepsCall (g.marked src root)) := by
  have hcalls := (g.outline src suppress none root).calls_facts none none 0
  rw [Option.bind_none] at hcalls
  rw [← hcalls, facts, allFacts, List.filterMap_filter, List.filter_filterMap]
  refine List.filterMap_congr fun fact _ => ?_
  rcases fact with ⟨name, line⟩ | ⟨scope, id⟩ | ⟨⟨node, label, function⟩, callee⟩ | ⟨id⟩
  · rfl
  · rfl
  · cases function <;> simp [Fact.call?, keeps, keepsCall, Option.filter]
  · rfl

variable {root : SyntaxTree}

/-- A scope whose node is a function or hangs below it belongs to this function. -/
theorem function_of_hangsBelow {suppress : Bool} (hplain : (g.outline src suppress none root).Plain)
    {fact : Fact} (hfact : fact ∈ g.allFacts src suppress root) {s : Scope}
    (hs : fact.scope? = some s) {f : NodeId} (hf : NodeId.isDecision f = false)
    (h : (g.flow src suppress root).graph.HangsBelow f s.node) : s.function = some f := by
  refine scope_invariant (Q := fun s => (g.flow src suppress root).graph.HangsBelow f s.node →
    s.function = some f) hplain ?_ ?_ hfact hs h
  · intro name hname h
    rcases Relation.ReflTransGen.cases_tail h with heq | ⟨_, _, hdecision, _⟩
    · exact congrArg some heq
    · have hfunction : NodeId.isDecision name = false := hplain.function hname
      have hdecision : NodeId.isDecision name = true := hdecision
      rw [hfunction] at hdecision
      cases hdecision
  · intro outer id hopen houter label _ h
    rcases Relation.ReflTransGen.cases_tail h with heq | ⟨above, habove, _, e, he, htarget⟩
    · have hid := isDecision_of_opened hopen
      rw [show id = f from heq, hf] at hid
      cases hid
    -- The edge to `id` leaves the scope in which `id` opens.
    · subst htarget
      obtain ⟨scope, hopen', rfl, _⟩ :=
        opened_of_mem_edges hplain he (isDecision_of_opened hopen)
      obtain rfl := Outline.scope_of_opened hopen hopen'
      exact houter scope rfl habove

theorem hangsBelow_of_function {suppress : Bool} (hplain : (g.outline src suppress none root).Plain)
    {fact : Fact} (hfact : fact ∈ g.allFacts src suppress root) {s : Scope}
    (hs : fact.scope? = some s) {f : NodeId} (h : s.function = some f) :
    (g.flow src suppress root).graph.HangsBelow f s.node := by
  refine scope_invariant (Q := fun s => s.function = some f →
    (g.flow src suppress root).graph.HangsBelow f s.node) hplain ?_ ?_ hfact hs h
  · intro name hname h
    cases h
    exact .refl
  · intro outer id hopen houter label _ h
    obtain ⟨scope, rfl, hscope⟩ := Option.bind_eq_some_iff.mp h
    have hedge : ⟨id, none⟩ ∈ (g.flow src suppress root).graph.edges scope.node :=
      mem_edges_flow.mpr (.inl ⟨scope, id, hopen, rfl, rfl⟩)
    exact (houter scope rfl hscope).tail ⟨isDecision_of_opened hopen, _, hedge, rfl⟩

theorem callsBelow_le {suppress : Bool} (hplain : (g.outline src suppress none root).Plain)
    {f : NodeId} (hf : NodeId.isDecision f = false) (callee : NodeId) :
    (g.flow src suppress root).graph.callsBelow f callee ≤
      ((g.facts src suppress root).filterMap Fact.call?).count (f, callee) := by
  classical
  have harrows : (g.flow src suppress root).graph.arrows.Perm _ :=
    Graph.arrows_ofFacts (g.facts src suppress root)
  rw [Graph.callsBelow, harrows.countP_eq, List.countP_filterMap, List.count, List.countP_filterMap]
  refine List.countP_mono_left fun fact hfact h => ?_
  cases harrow : fact.arrow? with
  | none => simp [harrow] at h
  | some a =>
    simp only [harrow, Option.map_some, Option.getD_some, decide_eq_true_eq] at h
    obtain ⟨hbelow, hdecision, htarget⟩ := h
    rcases Fact.mem_arrow? harrow with ⟨scope, target, rfl, hid, he⟩ | ⟨scope, target, rfl, hid, he⟩
    · rw [he, isDecision_of_opened (mem_allFacts hfact)] at hdecision
      cases hdecision
    · rw [hid] at hbelow
      rw [he] at htarget
      have hfunction := function_of_hangsBelow hplain (mem_allFacts hfact) rfl hf hbelow
      simp [Fact.call?, hfunction, show target = callee from htarget]

theorem opened_notMem_allFacts (outer : Option Scope) (id : NodeId) :
    .opened outer id ∉ g.allFacts src true root := by
  intro hopen
  have hmem : (outer.isSome, id) ∈ (g.allFacts src true root).filterMap Fact.opened? :=
    List.mem_filterMap.mpr ⟨_, hopen, rfl⟩
  have hopenings : (g.outline src true none root).openings false false = [] := by
    rw [← List.length_eq_zero_iff, Outline.length_openings, decisions_outline_true]
  rw [allFacts, Outline.opened_facts] at hmem
  simp [hopenings] at hmem

theorem function_of_scope (hplain : (g.outline src true none root).Plain) {fact : Fact}
    (hfact : fact ∈ g.allFacts src true root) {s : Scope} (hs : fact.scope? = some s) :
    s.function = some s.node :=
  scope_invariant (Q := fun s => s.function = some s.node) hplain (fun _ _ => rfl)
    (fun outer id hopen => absurd hopen (opened_notMem_allFacts outer id)) hfact hs

theorem count_calls_le (hplain : (g.outline src true none root).Plain) (f callee : NodeId) :
    ((g.facts src true root).filterMap Fact.call?).count (f, callee) ≤
      ((g.flow src true root).graph.edges f).countP fun e => e.target = callee := by
  rw [flow, FileFlow.ofFacts, Graph.edges_ofFacts, List.countP_map, List.countP_filter,
    List.countP_filterMap, List.count, List.countP_filterMap]
  refine List.countP_mono_left fun fact hfact h => ?_
  rcases fact with ⟨name, line⟩ | ⟨scope, id⟩ | ⟨scope, target⟩ | ⟨id⟩
  · simp [Fact.call?] at h
  · simp [Fact.call?] at h
  · have hfunction := function_of_scope hplain (mem_allFacts hfact) rfl
    simpa [Fact.call?, Fact.arrow?, hfunction, and_comm] using h
  · simp [Fact.call?] at h

end Grammar

/-- Showing decisions invents no function and no call, and states no call twice: below every function
there are at most as many calls to a callee as the function has edges to it without decisions. -/
theorem Language.callsBelow_shown_le (l : Language) (text : String) (root : SyntaxTree)
    (htext : '\x1f' ∉ text.toList)
    (htidy : ∀ t, root.Contains t → l.grammar.Tidy (.ofString text) t) :
    (∀ f ∈ (l.grammar.flow (.ofString text) false root).graph, NodeId.isDecision f = false →
      f ∈ (l.grammar.flow (.ofString text) true root).graph) ∧
    ∀ f callee, NodeId.isDecision f = false →
      (l.grammar.flow (.ofString text) false root).graph.callsBelow f callee ≤
        ((l.grammar.flow (.ofString text) true root).graph.edges f).countP
          fun e => e.target = callee := by
  have hplain := fun suppress => l.plain_outline htext suppress root
  have hweight : ∀ {w : Option String → Outline → Nat}, Outline.IsWeight w →
      w none (l.grammar.outline (.ofString text) false none root) ≤
        w none (l.grammar.outline (.ofString text) true none root) := fun hw =>
    Grammar.weight_outline_le hw (Grammar.unambiguous l) none none root htidy
  constructor
  · intro f hf hfunction
    rw [Grammar.mem_graph_flow]
    refine .inl (List.count_pos_iff.mp ?_)
    refine lt_of_lt_of_le (List.count_pos_iff.mpr ?_) (hweight (Outline.isWeight_functions f))
    rcases Grammar.mem_graph_flow.mp hf with h | ⟨outer, h⟩
    · exact h
    · rw [Grammar.isDecision_of_opened h] at hfunction
      cases hfunction
  · intro f callee hf
    have hbelow := Grammar.callsBelow_le (hplain false) hf callee
    have hcount := hweight (Outline.isWeight_calls (f, callee))
    refine hbelow.trans (le_trans ?_ (Grammar.count_calls_le (hplain true) f callee))
    rw [Grammar.calls_facts, Grammar.calls_facts]
    by_cases hkeeps : l.grammar.keepsCall (l.grammar.marked (.ofString text) root) (f, callee) = true
    · rw [List.count_filter hkeeps, List.count_filter hkeeps]
      exact hcount
    · rw [List.count_eq_zero.mpr fun h => hkeeps (List.mem_filter.mp h).2]
      exact Nat.zero_le _

def branchText : String := "fn f(){if x {g()}}"

def branchCall : SyntaxTree :=
  .node ⟨"call_expression", true, some "consequence", 13, 16, 0⟩
    [.node ⟨"identifier", true, some "function", 13, 14, 0⟩ []]

def branchIf : SyntaxTree :=
  .node ⟨"if_expression", true, none, 7, 17, 0⟩
    [.node ⟨"identifier", true, some "condition", 10, 11, 0⟩ [], branchCall]

def branchTree : SyntaxTree :=
  .node ⟨"function_item", true, none, 0, 18, 0⟩
    [.node ⟨"identifier", true, some "name", 3, 4, 0⟩ [], branchIf]

theorem tidy_branchTree : ∀ t, branchTree.Contains t → Grammar.rust.Tidy (.ofString branchText) t := by
  have hother : ∀ t : SyntaxTree, t.kind ≠ "if_expression" → t.kind ≠ "match_expression" →
      Grammar.rust.Tidy (.ofString branchText) t := fun t hif hmatch =>
    ⟨fun h => absurd (Option.some.inj h).symm hif, fun h => absurd (Option.some.inj h).symm hmatch,
      fun h => absurd (Option.some.inj h).symm hmatch⟩
  have hleaf : ∀ info : NodeInfo, info.kind = "identifier" → ∀ t,
      (SyntaxTree.node info []).Contains t → Grammar.rust.Tidy (.ofString branchText) t :=
    fun info hkind => SyntaxTree.forall_contains
      (hother _ (by simp [SyntaxTree.kind, SyntaxTree.info, hkind])
        (by simp [SyntaxTree.kind, SyntaxTree.info, hkind])) (by simp [SyntaxTree.children])
  have hcall : ∀ t, branchCall.Contains t → Grammar.rust.Tidy (.ofString branchText) t := by
    refine SyntaxTree.forall_contains (hother _ (by decide) (by decide)) ?_
    simpa [branchCall, SyntaxTree.children] using hleaf _ rfl
  have hif : ∀ t, branchIf.Contains t → Grammar.rust.Tidy (.ofString branchText) t := by
    refine SyntaxTree.forall_contains ?_ ?_
    · exact ⟨fun _ => by decide, fun h => absurd h (by decide), fun h => absurd h (by decide)⟩
    · simpa [branchIf, SyntaxTree.children] using ⟨hleaf _ rfl, hcall⟩
  refine SyntaxTree.forall_contains (hother _ (by decide) (by decide)) ?_
  simpa [branchTree, SyntaxTree.children] using ⟨hleaf _ rfl, hif⟩

theorem callsBelow_branch_le :
    "f" ∈ (Grammar.rust.flow (.ofString branchText) true branchTree).graph ∧
      (Grammar.rust.flow (.ofString branchText) false branchTree).graph.callsBelow "f" "g" ≤ 1 := by
  obtain ⟨hfunctions, hcalls⟩ :=
    Language.callsBelow_shown_le .rust branchText branchTree (by decide) tidy_branchTree
  refine ⟨hfunctions "f" (by decide +kernel) (by decide), (hcalls "f" "g" (by decide)).trans ?_⟩
  show ((Grammar.rust.flow (.ofString branchText) true branchTree).graph.edges "f").countP _ ≤ 1
  decide +kernel

end FlowAtlas
