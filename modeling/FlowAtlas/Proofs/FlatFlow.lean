import FlowAtlas.Proofs.Places

/-! The flow of a file without decisions, read off the tree at once: its functions are those of the
live places, and the edges of a function are the calls whose nearest function it is, in preorder. -/

namespace FlowAtlas

namespace SyntaxTree

mutual

def everyPlace (above : List SyntaxTree) : SyntaxTree → List Place
  | .node info children =>
    ⟨.node info children, above⟩ :: everyPlaceAmong (.node info children :: above) children

def everyPlaceAmong (above : List SyntaxTree) : List SyntaxTree → List Place
  | [] => []
  | t :: rest => everyPlace above t ++ everyPlaceAmong above rest

end

theorem everyPlaceAmong_eq (above ts : List SyntaxTree) :
    everyPlaceAmong above ts = ts.flatMap (everyPlace above) := by
  induction ts with
  | nil => rw [everyPlaceAmong, List.flatMap_nil]
  | cons t rest ih => rw [everyPlaceAmong, ih, List.flatMap_cons]

theorem everyPlace_eq (above : List SyntaxTree) (t : SyntaxTree) :
    everyPlace above t = ⟨t, above⟩ :: t.children.flatMap (everyPlace (t :: above)) := by
  cases t
  rw [everyPlace, everyPlaceAmong_eq, children]

theorem mem_path_of_mem_everyPlace {above : List SyntaxTree} {t : SyntaxTree} {p : Place}
    (h : p ∈ everyPlace above t) : ∀ s ∈ t :: above, s ∈ p.node :: p.above := by
  induction hn : t.size using Nat.strongRecOn generalizing above t with
  | _ n ih =>
    subst hn
    intro s hs
    rw [everyPlace_eq] at h
    rcases List.mem_cons.mp h with rfl | h
    · exact hs
    · obtain ⟨c, hc, h⟩ := List.mem_flatMap.mp h
      exact ih _ (size_lt_of_mem_children hc) h rfl s (List.mem_cons_of_mem c hs)

end SyntaxTree

namespace Grammar
variable {g : Grammar} {src : Source}

/-- Whether neither a node nor any node above it is a hidden scope. -/
def isLive (g : Grammar) (src : Source) (p : Place) : Bool :=
  (p.node :: p.above).all fun t => !g.isHidden src t

def livePlaces (g : Grammar) (src : Source) (root : SyntaxTree) : List Place :=
  (root.everyPlace []).filter (g.isLive src)

theorem filter_everyPlace {above : List SyntaxTree} (habove : ∀ t ∈ above, g.isHidden src t = false)
    (t : SyntaxTree) : (t.everyPlace above).filter (g.isLive src) = g.places src above t := by
  induction hn : t.size using Nat.strongRecOn generalizing above t with
  | _ n ih =>
    subst hn
    rw [places_eq]
    by_cases hhidden : g.isHidden src t = true
    · rw [if_pos hhidden, List.filter_eq_nil_iff]
      intro p hp hlive
      have ht := SyntaxTree.mem_path_of_mem_everyPlace hp t List.mem_cons_self
      have hshown := List.all_eq_true.mp hlive t ht
      rw [hhidden] at hshown
      cases hshown
    · have hpath : ∀ s ∈ t :: above, g.isHidden src s = false := by
        intro s hs
        rcases List.mem_cons.mp hs with rfl | hs
        · simpa using hhidden
        · exact habove s hs
      have hlive : g.isLive src ⟨t, above⟩ = true :=
        List.all_eq_true.mpr fun s hs => by rw [hpath s hs]; rfl
      rw [if_neg hhidden, SyntaxTree.everyPlace_eq, List.filter_cons_of_pos hlive,
        List.filter_flatMap]
      congr 1
      refine List.flatMap_congr fun c hc => ?_
      exact ih _ (SyntaxTree.size_lt_of_mem_children hc) hpath c rfl

theorem livePlaces_eq (g : Grammar) (src : Source) (root : SyntaxTree) :
    g.livePlaces src root = g.places src [] root :=
  filter_everyPlace (by simp) root

variable {root : SyntaxTree}

theorem declarations_facts (suppress : Bool) (root : SyntaxTree) :
    (g.facts src suppress root).filterMap Fact.declaration? =
      (g.outline src suppress none root).declarations := by
  rw [filterMap_facts fun _ _ => rfl]
  exact (g.outline src suppress none root).declarations_facts none none 0

theorem scope_suppressed {fact : Fact} (hfact : fact ∈ g.allFacts src true root) {s : Scope}
    (hs : fact.scope? = some s) :
    ∃ name ∈ (g.outline src true none root).functions, s = .ofFunction name :=
  Outline.scope_of_no_decision (decisions_outline_true none root) (List.Subset.refl _) (by simp)
    hfact hs

theorem arrow?_suppressed {fact : Fact} (hfact : fact ∈ g.allFacts src true root) :
    fact.arrow? = fact.call?.map fun call => (call.1, ⟨call.2, none⟩) := by
  cases fact with
  | declared name line => rfl
  | opened scope id => exact absurd hfact (opened_notMem_allFacts scope id)
  | called scope callee =>
    obtain ⟨name, _, rfl⟩ := scope_suppressed hfact rfl
    rfl
  | closed id => rfl

theorem edges_suppressed (f : NodeId) :
    (g.flow src true root).graph.edges f =
      (((g.livePlaces src root).filterMap (g.call? src)).filter fun call =>
        call.1 = f && g.keepsCall (g.marked src root) call).map fun call => ⟨call.2, none⟩ := by
  have hcalls : (g.outline src true none root).calls none =
      (g.livePlaces src root).filterMap (g.call? src) := by
    rw [livePlaces_eq]
    exact calls_outline_true [] root
  have harrows : (g.facts src true root).filterMap Fact.arrow? =
      (((g.livePlaces src root).filterMap (g.call? src)).filter
        (g.keepsCall (g.marked src root))).map fun call => (call.1, ⟨call.2, none⟩) := by
    rw [← hcalls, ← calls_facts, List.map_filterMap]
    exact List.filterMap_congr fun fact hfact => arrow?_suppressed (mem_allFacts hfact)
  rw [flow, FileFlow.ofFacts, Graph.edges_ofFacts, harrows, List.filter_map, List.map_map,
    List.filter_filter]
  rfl

theorem mem_functions_suppressed {f : String} :
    f ∈ (g.outline src true none root).functions ↔
      ∃ p ∈ g.livePlaces src root, g.declared? src p = some f := by
  have hfunctions : (g.outline src true none root).functions =
      (g.places src [] root).filterMap (g.declared? src) := functions_outline_true [] root
  rw [hfunctions, livePlaces_eq, List.mem_filterMap]

theorem mem_graph_suppressed {f : NodeId} :
    f ∈ (g.flow src true root).graph ↔
      ∃ p ∈ g.livePlaces src root, g.declared? src p = some f := by
  rw [← mem_functions_suppressed, mem_graph_flow]
  refine or_iff_left ?_
  intro hopen
  obtain ⟨outer, hopen⟩ := hopen
  exact opened_notMem_allFacts outer f hopen

theorem find?_lines_suppressed (f : String) :
    (g.flow src true root).lines.find? f =
      ((g.livePlaces src root).filter fun p => g.declared? src p = some f).getLast?.map
        fun p => p.node.info.row + 1 := by
  have hdeclarations : (g.outline src true none root).declarations =
      (g.livePlaces src root).filterMap (g.declaration? src) := by
    rw [livePlaces_eq]
    exact declarations_outline_true [] root
  rw [flow, FileFlow.ofFacts, LineMap.ofFacts_eq, declarations_facts, hdeclarations,
    Table.find?_ofList]
  generalize g.livePlaces src root = places
  have hfilter : (places.filterMap (g.declaration? src)).filter (fun d => d.1 = f) =
      (places.filter fun p => g.declared? src p = some f).map
        fun p => (f, p.node.info.row + 1) := by
    induction places with
    | nil => rfl
    | cons p rest ih =>
      cases hp : g.declared? src p with
      | none => simp [declaration?, hp, ih]
      | some name =>
        by_cases hname : name = f
        · simp [declaration?, hp, hname, ih]
        · simp [declaration?, hp, hname, ih]
  rw [hfilter, List.getLast?_map, Option.map_map]
  rfl

/-- The flow without decisions: its functions are declared at the live places, the last declaration of a
name gives its line, and each call leaves the nearest function above it, if there is one. -/
theorem flow_suppressed_exact (g : Grammar) (src : Source) (root : SyntaxTree) (f : String) :
    (f ∈ (g.flow src true root).graph ↔
      ∃ p ∈ g.livePlaces src root, g.declared? src p = some f) ∧
    (f ∈ (g.flow src true root).lines ↔
      ∃ p ∈ g.livePlaces src root, g.declared? src p = some f) ∧
    (g.flow src true root).lines.find? f =
      (((g.livePlaces src root).filter fun p => g.declared? src p = some f).getLast?.map
        fun p => p.node.info.row + 1) ∧
    (g.flow src true root).graph.edges f =
      ((((g.livePlaces src root).filterMap (g.call? src)).filter fun call =>
        call.1 = f && g.keepsCall (g.marked src root) call).map fun call => ⟨call.2, none⟩) :=
  ⟨mem_graph_suppressed, mem_lines_flow.trans mem_functions_suppressed, find?_lines_suppressed f,
    edges_suppressed f⟩

end Grammar
end FlowAtlas
