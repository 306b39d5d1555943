import FlowAtlas.Proofs.Crawl
import FlowAtlas.Proofs.IdFormat
import FlowAtlas.Proofs.NameResolution
import Mathlib.Data.List.Flatten

/-! One more file among the files of a crawl. Names that were resolved before lead where they led, and
perhaps to the new file as well, so fewer decisions lead nowhere: every key, every edge and every source
of the graph is there still. -/

namespace FlowAtlas

theorem flatMap_sublist {α β : Type} {xs ys : List α} {f g : α → List β} (h : xs.Sublist ys)
    (hfg : ∀ a, (f a).Sublist (g a)) : (xs.flatMap f).Sublist (ys.flatMap g) :=
  (h.flatMap f).trans (List.Sublist.flatMap_right ys fun a _ => hfg a)

namespace Grammar
variable {g : Grammar} {suppress : Bool} {root : SyntaxTree}

/-- Whether or not every branch has a label, what is called is no decision. -/
theorem isDecision_of_called {src : Source} (hsrc : 0x1f ∉ src.bytes) {scope : Scope}
    {callee : String} (h : .called scope callee ∈ g.allFacts src suppress root) :
    NodeId.isDecision callee = false := by
  have hall : ∀ scope decision count s callee,
      .called s callee ∈ (g.outline src suppress none root).facts scope decision count →
        NodeId.isDecision callee = false := by
    refine outline_induction (P := fun o => ∀ scope decision count s callee,
      .called s callee ∈ o.facts scope decision count → NodeId.isDecision callee = false)
      ?_ ?_ ?_ ?_ ?_ ?_ none root
    · intro scope decision count s callee h
      cases h
    · intro a b ha hb scope decision count s callee h
      rw [Outline.facts_append] at h
      rcases List.mem_append.mp h with h | h
      · exact ha _ _ _ _ _ h
      · exact hb _ _ _ _ _ h
    · intro t name below hname hbelow scope decision count s callee h
      rcases List.mem_append.mp h with h | h
      · obtain ⟨_, _, heq⟩ := Option.map_eq_some_iff.mp (Option.mem_toList.mp h)
        cases heq
        exact isDecision_callee hsrc hname
      · exact hbelow _ _ _ _ _ h
    · intro parent t line body hbody scope decision count s callee h
      simp only [Outline.facts, List.cons_append, List.mem_cons, List.mem_append, reduceCtorEq,
        false_or, List.not_mem_nil, or_false] at h
      exact hbody _ _ _ _ _ h
    · intro _ display body hbody scope decision count s callee h
      simp only [Outline.facts, List.cons_append, List.mem_cons, List.mem_append, reduceCtorEq,
        false_or, List.not_mem_nil, or_false] at h
      exact hbody _ _ _ _ _ h
    · intro t construct v label body _ _ hbody scope decision count s callee h
      simp only [Outline.facts, List.append_nil] at h
      exact hbody _ _ _ _ _ h
  exact hall none none 0 scope callee h

theorem decision_mem_flow {src : Source} (hsrc : 0x1f ∉ src.bytes) {id : NodeId} {e : Edge}
    (he : e ∈ (g.flow src suppress root).graph.edges id)
    (htarget : NodeId.isDecision e.target = true) : e.target ∈ (g.flow src suppress root).graph := by
  rcases mem_edges_flow.mp he with ⟨scope, target, hopened, _, rfl⟩ | ⟨scope, callee, h, _, rfl⟩
  · exact Graph.mem_ofFacts.mpr (.inr (closed_mem_facts.mpr (.inr ⟨some scope, hopened⟩)))
  · rw [isDecision_of_called hsrc (mem_allFacts h)] at htarget
    cases htarget

end Grammar

namespace Graph

/-- A graph that has every key of another one and, among its edges, those of the other in their order. -/
structure Extends (h g : Graph) : Prop where
  mem : ∀ id ∈ g, id ∈ h
  edges : ∀ id, (g.edges id).Sublist (h.edges id)

variable {g h : Graph} {id : NodeId}

theorem Dies.of_extends (hext : h.Extends g) (hclosed : g.Closed) (hdies : Dies h id) (hid : id ∈ g) :
    Dies g id := by
  induction hdies with
  | @intro id _ hdecision _ ih =>
    refine .intro hid hdecision fun e he => ?_
    exact ih e ((hext.edges id).subset he) (hclosed id e he)

/-- A graph that is extended before pruning is extended afterwards: the decisions that are saved bring
their edges back, and no other edge is lost for it. -/
theorem Extends.prune (hext : h.Extends g) (hclosed : g.Closed) :
    h.prune.graph.Extends g.prune.graph := by
  have hmem : ∀ id ∈ g.prune.graph, id ∈ h.prune.graph := by
    intro id hid
    obtain ⟨hid, hdies⟩ := mem_prune.mp hid
    exact mem_prune.mpr ⟨hext.mem id hid, fun h => hdies (h.of_extends hext hclosed hid)⟩
  refine ⟨hmem, fun id => ?_⟩
  by_cases hid : id ∈ g.prune.graph
  · rw [edges_prune hid, edges_prune (hmem id hid)]
    refine ((hext.edges id).filter _).trans (List.monotone_filter_right _ fun e he => ?_)
    simp only [Table.contains, decide_eq_true_eq] at he ⊢
    exact hmem e.target he
  · have hnone : g.prune.graph.edges id = [] :=
      List.eq_nil_iff_forall_not_mem.mpr fun e he => hid (mem_of_mem_edges he)
    rw [hnone]
    exact List.nil_sublist _

end Graph

namespace CrawlGraph
open NodeId
variable {index : NameIndex} {files more : List CrawledFile}

def site? (x : CrawledFile × NodeId × List Edge) : Option (NodeId × Site) :=
  if isDecision x.2.1 then none
  else (x.1.flow.lines.find? x.2.1).map fun line => (inFile x.1.path x.2.1, ⟨x.1.fullPath, line⟩)

theorem sources_merge (index : NameIndex) (files : List CrawledFile) :
    (merge index files).sources = .ofList ((nodes files).filterMap site?) := by
  rw [merge_eq_foldl]
  suffices h : ∀ (xs : List (CrawledFile × NodeId × List Edge)) (c : CrawlGraph),
      (xs.foldl (fun c x => addNode index x.1 c x.2) c).sources =
        (xs.filterMap site?).foldl (fun sources e => sources.insert e.1 e.2) c.sources from
    h (nodes files) empty
  intro xs
  induction xs with
  | nil => exact fun c => rfl
  | cons x rest ih =>
    intro c
    rw [List.foldl_cons, ih, List.filterMap_cons]
    unfold addNode site?
    cases isDecision x.2.1 <;> cases x.1.flow.lines.find? x.2.1 <;> rfl

theorem nodes_sublist (h : files.Sublist more) : (nodes files).Sublist (nodes more) :=
  h.flatMap _

theorem resolved_of_nodup (hpaths : (files.map CrawledFile.path).Nodup) (path : String) (e : Edge) :
    resolved files path e =
      if isDecision e.target then [⟨inFile path e.target, e.label⟩]
      else (files.filter fun f => f.flow.graph.contains e.target).map
        fun f => ⟨inFile f.path e.target, e.label⟩ := by
  have hnodup : ((files.filter fun f => f.flow.graph.contains e.target).map CrawledFile.path).Nodup :=
    hpaths.sublist (List.filter_sublist.map _)
  rw [resolved, eraseDups_of_nodup hnodup, List.map_map]
  rfl

theorem resolved_sublist (h : files.Sublist more) (hpaths : (more.map CrawledFile.path).Nodup)
    (path : String) (e : Edge) : (resolved files path e).Sublist (resolved more path e) := by
  rw [resolved_of_nodup hpaths, resolved_of_nodup (hpaths.sublist (h.map _))]
  split
  · exact .refl _
  · exact (h.filter _).map _

theorem mem_filterMap_site? {key : NodeId} {site : Site} :
    (key, site) ∈ (nodes files).filterMap site? ↔
      ∃ f ∈ files, ∃ id ∈ f.flow.graph, isDecision id = false ∧
        ∃ line, f.flow.lines.find? id = some line ∧ inFile f.path id = key ∧
          site = ⟨f.fullPath, line⟩ := by
  rw [List.mem_filterMap]
  constructor
  · rintro ⟨⟨f, id, es⟩, hnode, hsite⟩
    obtain ⟨hf, hes⟩ := mem_nodes.mp hnode
    simp only [site?, Option.ite_none_left_eq_some, Option.map_eq_some_iff, Prod.mk.injEq] at hsite
    obtain ⟨hdecision, line, hline, hkey, rfl⟩ := hsite
    exact ⟨f, hf, id, Table.mem_of_find? hes, by simpa using hdecision, line, hline, hkey, rfl⟩
  · rintro ⟨f, hf, id, hid, hdecision, line, hline, rfl, rfl⟩
    obtain ⟨es, hes⟩ := Table.mem_iff_find?.mp hid
    exact ⟨(f, id, es), mem_nodes.mpr ⟨hf, hes⟩, by simp [site?, hdecision, hline]⟩

theorem find?_sources_merge (hpaths : (files.map CrawledFile.path).Nodup)
    (hseparable : ∀ f ∈ files, Separable f.path) {key : NodeId} {site : Site} :
    (merge index files).sources.find? key = some site ↔ (key, site) ∈ (nodes files).filterMap site? := by
  rw [sources_merge]
  refine ⟨Table.mem_of_find?_ofList, fun hmem => Table.find?_ofList_of_unique hmem ?_⟩
  intro site' hmem'
  obtain ⟨f, hf, id, _, _, line, hline, rfl, rfl⟩ := mem_filterMap_site?.mp hmem
  obtain ⟨f', hf', id', _, _, line', hline', hkey, rfl⟩ := mem_filterMap_site?.mp hmem'
  obtain ⟨hpath, rfl⟩ := inFile_inj (hseparable f' hf') (hseparable f hf) hkey
  obtain rfl := List.inj_on_of_nodup_map hpaths hf' hf hpath
  rw [Option.some.inj (hline'.symm.trans hline)]

theorem extends_merge (h : files.Sublist more) (hpaths : (more.map CrawledFile.path).Nodup) :
    (merge (.ofFiles more) more).graph.Extends (merge (.ofFiles files) files).graph where
  mem id hid := by
    obtain ⟨f, hf, id, hid, hkey⟩ := mem_merge.mp hid
    exact mem_merge.mpr ⟨f, h.subset hf, id, hid, hkey⟩
  edges key := by
    rw [edges_merge, edges_merge]
    refine flatMap_sublist (nodes_sublist h) fun x => ?_
    split
    · refine List.Sublist.flatMap_right _ fun e _ => ?_
      rw [resolve_ofFiles, resolve_ofFiles]
      exact resolved_sublist h hpaths x.1.path e
    · exact .refl _

end CrawlGraph

/-- Whether the graph of a file is the flow of some tree of a text without the unit separator. -/
def CrawledFile.IsFlow (f : CrawledFile) : Prop :=
  ∃ (g : Grammar) (text : String) (suppress : Bool) (root : SyntaxTree),
    '\x1f' ∉ text.toList ∧ f.flow.graph = (g.flow (.ofString text) suppress root).graph

theorem CrawledFile.IsFlow.decision_mem {f : CrawledFile} (h : f.IsFlow) {id : NodeId} {e : Edge}
    (he : e ∈ f.flow.graph.edges id) (htarget : NodeId.isDecision e.target = true) :
    e.target ∈ f.flow.graph := by
  obtain ⟨g, text, suppress, root, htext, hgraph⟩ := h
  rw [hgraph] at he ⊢
  exact Grammar.decision_mem_flow (Source.separator_notMem_ofString htext) he htarget

namespace Crawl
open CrawlGraph

theorem assemble_eq_prune (files : List CrawledFile) :
    assemble files =
      ((merge (.ofFiles files) files).graph.prune, (merge (.ofFiles files) files).sources) := by
  unfold assemble
  extract_lets merged
  have hdropped : merged.graph.dropDangling = merged.graph :=
    Graph.dropDangling_eq _ fun _ _ => decision_or_mem_of_mem_edges_merge
  rw [hdropped]

/-- A file that is added anywhere among the files of a crawl takes nothing away: not a node, not an edge,
nor its place among the edges of its node, and not the source of a function. -/
theorem assemble_added (before after : List CrawledFile) (added : CrawledFile)
    (hflows : ∀ f ∈ before ++ added :: after, f.IsFlow)
    (hpaths : ((before ++ added :: after).map CrawledFile.path).Nodup)
    (hseparable : ∀ f ∈ before ++ added :: after, NodeId.Separable f.path) :
    (∀ key ∈ (assemble (before ++ after)).1.graph,
      key ∈ (assemble (before ++ added :: after)).1.graph) ∧
    (∀ key, ((assemble (before ++ after)).1.graph.edges key).Sublist
      ((assemble (before ++ added :: after)).1.graph.edges key)) ∧
    (∀ key site, (assemble (before ++ after)).2.find? key = some site →
      (assemble (before ++ added :: after)).2.find? key = some site) := by
  have hfiles : (before ++ after).Sublist (before ++ added :: after) :=
    (List.Sublist.refl before).append (List.sublist_cons_self added after)
  have hclosed : (merge (.ofFiles (before ++ after)) (before ++ after)).graph.Closed :=
    closed_merge fun f hf _ _ he => (hflows f (hfiles.subset hf)).decision_mem he
  rw [assemble_eq_prune, assemble_eq_prune]
  have hpruned := (extends_merge hfiles hpaths).prune hclosed
  refine ⟨hpruned.mem, hpruned.edges, fun key site hsite => ?_⟩
  have hpaths' := hpaths.sublist (hfiles.map CrawledFile.path)
  have hseparable' := fun f hf => hseparable f (hfiles.subset hf)
  rw [find?_sources_merge hpaths' hseparable'] at hsite
  rw [find?_sources_merge hpaths hseparable]
  exact (((nodes_sublist hfiles).filterMap site?).subset hsite)

def sampleFile (name : String) : CrawledFile :=
  ⟨name, "/p/" ++ name, Language.rust.grammar.flow (.ofString Crawler.sampleText) false Crawler.sampleTree⟩

theorem assemble_added_sample :
    (assemble [sampleFile "b.rs"]).1.graph.edges "b.rs::_decision_1\x1fif x" =
      [⟨"b.rs::g", some "True"⟩] ∧
    [⟨"b.rs::g", some "True"⟩].Sublist
      ((assemble [sampleFile "a.rs", sampleFile "b.rs"]).1.graph.edges "b.rs::_decision_1\x1fif x") ∧
    (assemble [sampleFile "a.rs", sampleFile "b.rs"]).2.find? "b.rs::f" = some ⟨"/p/b.rs", 1⟩ := by
  have hedges : (assemble [sampleFile "b.rs"]).1.graph.edges "b.rs::_decision_1\x1fif x" =
      [⟨"b.rs::g", some "True"⟩] := by decide +kernel
  have hsite : (assemble [sampleFile "b.rs"]).2.find? "b.rs::f" = some ⟨"/p/b.rs", 1⟩ := by
    decide +kernel
  have hflow : ∀ name, (sampleFile name).IsFlow := fun name =>
    ⟨_, Crawler.sampleText, false, Crawler.sampleTree, by decide, rfl⟩
  obtain ⟨_, hkept, hsources⟩ := assemble_added [] [sampleFile "b.rs"] (sampleFile "a.rs")
    (by simp [hflow]) (by decide)
    (by
      simp only [List.nil_append, List.mem_cons, List.not_mem_nil, or_false, forall_eq_or_imp,
        forall_eq]
      exact ⟨⟨by decide, by decide⟩, ⟨by decide, by decide⟩⟩)
  have hgrown := hkept "b.rs::_decision_1\x1fif x"
  rw [List.nil_append, hedges] at hgrown
  exact ⟨hedges, hgrown, hsources "b.rs::f" _ hsite⟩

end Crawl
end FlowAtlas
