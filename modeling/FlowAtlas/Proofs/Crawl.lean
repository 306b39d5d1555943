import FlowAtlas.Crawl
import FlowAtlas.Proofs.FileLookup
import FlowAtlas.Proofs.Levels
import FlowAtlas.Proofs.LineBreaks
import FlowAtlas.Proofs.Pruning
import FlowAtlas.Proofs.Selection

/-! What a crawl gives, if the unit separator is in no path and no text that it reads. -/

namespace FlowAtlas

namespace CrawlGraph

theorem sound_empty : Sound ⟨.empty, .empty⟩ where
  closed id e he := by simp at he
  mem_sources_iff id := by simp
  label_iff id e he := by simp at he

theorem Sound.prune {c : CrawlGraph} (h : c.Sound) : Sound ⟨c.graph.prune.graph, c.sources⟩ where
  closed := c.graph.closed_prune
  mem_sources_iff id := by
    rw [h.mem_sources_iff]
    refine and_congr_left fun hid => ?_
    exact (Graph.function_mem_prune hid).symm
  label_iff id e he := h.label_iff id e (Graph.mem_edges_prune.mp he).1

end CrawlGraph

namespace Crawl

theorem assemble_eq {files : List CrawledFile} (hfiles : ∀ f ∈ files, f.Sound) :
    assemble files =
      ((CrawlGraph.merge (.ofFiles files) files).graph.prune,
        (CrawlGraph.merge (.ofFiles files) files).sources) := by
  unfold assemble
  extract_lets merged
  have hclosed : merged.graph.Closed := (CrawlGraph.sound_merge hfiles).closed
  rw [hclosed.dropDangling_eq]

end Crawl

namespace Crawler

/-- Of the files that a crawl of `root` reads, none has the unit separator in its path or its text. -/
def Unmarked (c : Crawler) (fs : Files) (root : Address) : Prop :=
  ∀ names bytes, (names, bytes) ∈ c.candidates fs root → (readAs? names).isSome = true →
    ∀ contents, fs.access.unreadable (root ++ names) = none → Text.Utf8.decode bytes = .ok contents →
      '\x1f' ∉ (Text.joinWith "/" names).toList ∧ '\x1f' ∉ contents.toList

def filesRead (c : Crawler) (env : Environment) (suppress : Bool) (root : Address) :
    List CrawledFile :=
  (c.readAll env suppress root).filterMap Prod.fst

variable {c : Crawler} {env : Environment} {root : Address} {suppress : Bool} {result : Crawl}

theorem readFile_eq_some_iff {parsers : Parsers} {names : List String} {bytes : List UInt8}
    {fs : Files} {f : CrawledFile} :
    (c.readFile parsers suppress root names (fs.contents (root ++ names) bytes)).1 = some f ↔
      ∃ l decoded, readAs? names = some l ∧ fs.access.unreadable (root ++ names) = none ∧
        Text.Utf8.decode bytes = .ok decoded ∧
        f = ⟨Text.joinWith "/" names, Address.text (root ++ names),
          parsers.flow l suppress (String.ofList (Text.unifyBreaks decoded.toList))⟩ := by
  unfold readFile Files.contents
  cases readAs? names with
  | none => simp
  | some l =>
    cases fs.access.unreadable (root ++ names) with
    | some reason => simp [Except.bind]
    | none =>
      cases hdecoded : Text.Utf8.decode bytes with
      | error failure => simp [Except.bind, Except.mapError, hdecoded]
      | ok decoded =>
        simp only [Except.bind, Except.mapError, hdecoded, Option.some.injEq, Except.ok.injEq, true_and]
        exact ⟨fun h => ⟨l, decoded, rfl, rfl, h.symm⟩, by rintro ⟨_, _, rfl, rfl, rfl⟩; rfl⟩

theorem sound_filesRead (hmarks : c.Unmarked env.files root) (suppress : Bool) {f : CrawledFile}
    (hf : f ∈ c.filesRead env suppress root) : f.Sound := by
  simp only [filesRead, readAll, List.mem_filterMap, List.mem_map] at hf
  obtain ⟨_, ⟨⟨names, bytes⟩, hcandidate, rfl⟩, hf⟩ := hf
  obtain ⟨l, contents, hlanguage, hreadable, hcontents, rfl⟩ := readFile_eq_some_iff.mp hf
  obtain ⟨hpath, htext⟩ :=
    hmarks names bytes hcandidate (by rw [hlanguage]; rfl) contents hreadable hcontents
  refine ⟨hpath, env.parsers.sound_flow l suppress ?_⟩
  rw [String.toList_ofList]
  intro hmem
  -- Unifying line breaks brings in nothing but line feeds.
  rcases Text.mem_unifyBreaks hmem with hbreak | hmem
  · exact absurd hbreak (by decide)
  · exact htext hmem

/-- The flows of the files that a crawl of `root` reads, before anything is taken away. -/
def merged (c : Crawler) (env : Environment) (suppress : Bool) (root : Address) : CrawlGraph :=
  .merge (.ofFiles (c.filesRead env suppress root)) (c.filesRead env suppress root)

theorem sound_merged (hmarks : c.Unmarked env.files root) (suppress : Bool) :
    (c.merged env suppress root).Sound :=
  CrawlGraph.sound_merge fun _ hf => sound_filesRead hmarks suppress hf

theorem ranked_merged (hmarks : c.Unmarked env.files root) (suppress : Bool) :
    (c.merged env suppress root).graph.Ranked :=
  CrawlGraph.ranked_merge fun _ hf => sound_filesRead hmarks suppress hf

theorem graph_gather (hmarks : c.Unmarked env.files root) (suppress : Bool) :
    (c.gather env suppress root).graph = (c.merged env suppress root).graph.prune.graph := by
  have hassemble := Crawl.assemble_eq fun _ hf => sound_filesRead hmarks suppress hf
  exact congrArg (fun assembled => assembled.1.graph) hassemble

theorem sources_gather (c : Crawler) (env : Environment) (suppress : Bool) (root : Address) :
    (c.gather env suppress root).sources = (c.merged env suppress root).sources := rfl

theorem sound_gather (hmarks : c.Unmarked env.files root) (suppress : Bool) :
    CrawlGraph.Sound ⟨(c.gather env suppress root).graph, (c.gather env suppress root).sources⟩ := by
  rw [graph_gather hmarks suppress, sources_gather]
  exact (sound_merged hmarks suppress).prune

theorem crawlDirectory_eq_ok_iff : c.crawlDirectory env suppress root = .ok result ↔
    c.AllSeen env.files root ∧ c.gather env suppress root = result := by
  rw [← unseen_eq_nil_iff, crawlDirectory]
  cases c.unseen env.files root <;> simp

theorem exists_crawlDirectory_iff :
    (∃ result, c.crawlDirectory env suppress root = .ok result) ↔ c.AllSeen env.files root := by
  simp [crawlDirectory_eq_ok_iff]

theorem crawl_of_directory {root : String} {directory : Address}
    (hblank : Text.isAllBlank root = false) (hroot : env.directory? root = .ok (some directory)) :
    c.crawl env root suppress = c.crawlDirectory env suppress directory := by
  rw [crawl, hblank, if_neg Bool.false_ne_true, hroot]

theorem sound_crawl {root : String}
    (hmarks : ∀ directory, env.directory? root = .ok (some directory) →
      c.Unmarked env.files directory)
    (h : c.crawl env root suppress = .ok result) :
    CrawlGraph.Sound ⟨result.graph, result.sources⟩ := by
  unfold crawl at h
  split at h
  · cases h
    exact CrawlGraph.sound_empty
  · split at h
    · cases h
    · cases h
      exact CrawlGraph.sound_empty
    · rename_i directory hroot
      obtain ⟨-, rfl⟩ := crawlDirectory_eq_ok_iff.mp h
      exact sound_gather (hmarks directory hroot) suppress

/-- A crawl is coherent: edges stay within the graph, the functions are the nodes with a source, every
node and nothing else has a level, and the calls out of branches are the edges with a label. -/
theorem crawl_coherent (c : Crawler) (env : Environment) (root : String) (suppress : Bool)
    (hmarks : ∀ directory, env.directory? root = .ok (some directory) →
      c.Unmarked env.files directory)
    (result : Crawl) (h : c.crawl env root suppress = .ok result) :
    (∀ id, ∀ e ∈ result.graph.edges id, e.target ∈ result.graph) ∧
    (∀ id, id ∈ result.sources ↔ id ∈ result.graph ∧ NodeId.isDecision id = false) ∧
    (∀ id, id ∈ result.graph.levels result.graph.nodeIds ↔ id ∈ result.graph) ∧
    (∀ id, ∀ e ∈ result.graph.edges id,
      e.label = none ↔ NodeId.isDecision id = false ∨ NodeId.isDecision e.target = true) := by
  have hsound := sound_crawl hmarks h
  refine ⟨hsound.closed, hsound.mem_sources_iff, fun id => ?_, hsound.label_iff⟩
  rw [Graph.mem_levels, Graph.mem_nodeIds]
  exact hsound.closed.mem_mentioned

def sampleTree : SyntaxTree :=
  .node ⟨"source_file", true, none, 0, 27, 0⟩
    [.node ⟨"function_item", true, none, 0, 8, 0⟩
      [.node ⟨"identifier", true, some "name", 3, 4, 0⟩ []],
     .node ⟨"function_item", true, none, 9, 27, 0⟩
      [.node ⟨"identifier", true, some "name", 12, 13, 0⟩ [],
       .node ⟨"if_expression", true, none, 16, 26, 0⟩
        [.node ⟨"identifier", true, some "condition", 19, 20, 0⟩ [],
         .node ⟨"call_expression", true, some "consequence", 22, 25, 0⟩
          [.node ⟨"identifier", true, some "function", 22, 23, 0⟩ []]]]]

def sampleText : String := "fn g(){} fn f(){if x {g()}}"

def sampleEnvironment : Environment where
  files := (Files.empty.put [] "p" .directory).put ["p"] "a.rs"
    (.file (Text.Utf8.encode sampleText))
  workingDirectory := []
  home := []
  parsers := { unavailable := fun _ => none, parse := fun _ _ => .tree sampleTree }
  yaml := fun _ _ => .error .malformed

theorem reachable_sample : sampleEnvironment.Reachable ["p"] where
  plain := .child .root rfl (by decide) (by decide) (by decide) (by decide +kernel)
  free := by decide +kernel
  short := by decide +kernel

theorem directory?_sample : sampleEnvironment.directory? "/p" = .ok (some ["p"]) :=
  reachable_sample.directory?_eq (by decide)

theorem unmarked_sample : Unmarked {} sampleEnvironment.files ["p"] := by
  intro names bytes hmem _ contents _ hcontents
  have hcandidates : candidates {} sampleEnvironment.files ["p"] =
      [(["a.rs"], Text.Utf8.encode sampleText)] := by decide +kernel
  have hdecode : Text.Utf8.decode (Text.Utf8.encode sampleText) = .ok sampleText := by
    decide +kernel
  rw [hcandidates, List.mem_singleton] at hmem
  cases hmem
  rw [hdecode] at hcontents
  cases hcontents
  exact ⟨by decide +kernel, by decide +kernel⟩

theorem crawlDirectory_sample : crawlDirectory {} sampleEnvironment false ["p"] =
    .ok (gather {} sampleEnvironment false ["p"]) := by
  have hseen : unseen {} sampleEnvironment.files ["p"] = [] := by decide +kernel
  rw [crawlDirectory, hseen]

theorem crawl_coherent_sample :
    ∃ result, crawl {} sampleEnvironment "/p" false = .ok result ∧
      result.graph.keys = ["a.rs::g", "a.rs::f", "a.rs::_decision_1\x1fif x"] ∧
      (∀ id, ∀ e ∈ result.graph.edges id, e.target ∈ result.graph) ∧
      (∀ id, id ∈ result.sources ↔ id ∈ result.graph ∧ NodeId.isDecision id = false) ∧
      (∀ id, id ∈ result.graph.levels result.graph.nodeIds ↔ id ∈ result.graph) ∧
      (∀ id, ∀ e ∈ result.graph.edges id,
        e.label = none ↔ NodeId.isDecision id = false ∨ NodeId.isDecision e.target = true) := by
  have hresult : crawl {} sampleEnvironment "/p" false =
      .ok (gather {} sampleEnvironment false ["p"]) := by
    rw [crawl_of_directory (by decide +kernel) directory?_sample, crawlDirectory_sample]
  refine ⟨_, hresult, by decide +kernel, ?_⟩
  refine crawl_coherent {} sampleEnvironment "/p" false ?_ _ hresult
  intro directory hdirectory
  rw [directory?_sample] at hdirectory
  cases hdirectory
  exact unmarked_sample

/-- A crawl gives a graph unless it comes to something that it cannot look up. In this graph a decision of
the merged graph stays exactly if it leads to a function, and every function stays. -/
theorem decision_mem_crawl_iff (c : Crawler) (env : Environment) (suppress : Bool) (root : String)
    (directory : Address) (hblank : Text.isAllBlank root = false)
    (hroot : env.directory? root = .ok (some directory)) (hmarks : c.Unmarked env.files directory) :
    ((∃ result, c.crawl env root suppress = .ok result) ↔ c.AllSeen env.files directory) ∧
    ∀ result, c.crawl env root suppress = .ok result →
      (∀ d ∈ (c.merged env suppress directory).graph, NodeId.isDecision d = true →
        (d ∈ result.graph ↔ (c.merged env suppress directory).graph.LeadsToFunction d)) ∧
      (∀ f ∈ (c.merged env suppress directory).graph, NodeId.isDecision f = false →
        f ∈ result.graph) ∧
      (∀ d ∈ result.graph, NodeId.isDecision d = true → result.graph.LeadsToFunction d) := by
  have hclosed := (sound_merged hmarks suppress).closed
  rw [crawl_of_directory hblank hroot]
  refine ⟨exists_crawlDirectory_iff, fun result hresult => ?_⟩
  -- Nothing dangles in the merged graph, so what the crawl gives is the merged graph pruned.
  obtain ⟨-, rfl⟩ := crawlDirectory_eq_ok_iff.mp hresult
  rw [graph_gather hmarks suppress]
  have hiff : ∀ d ∈ (c.merged env suppress directory).graph, NodeId.isDecision d = true →
      (d ∈ (c.merged env suppress directory).graph.prune.graph ↔
        (c.merged env suppress directory).graph.LeadsToFunction d) := fun d hd hdecision =>
    (Graph.leadsToFunction_iff hclosed (ranked_merged hmarks suppress) hd hdecision).symm
  refine ⟨hiff, fun f hf hfunction => (Graph.function_mem_prune hfunction).mpr hf, ?_⟩
  intro d hd hdecision
  exact ((hiff d (Graph.mem_prune.mp hd).1 hdecision).mp hd).prune

theorem decision_mem_crawl_sample :
    ∃ result, crawl {} sampleEnvironment "/p" false = .ok result ∧
      "a.rs::_decision_1\x1fif x" ∈ result.graph := by
  obtain ⟨hreturns, hkeeps⟩ :=
    decision_mem_crawl_iff {} sampleEnvironment false "/p" ["p"] (by decide +kernel)
      directory?_sample unmarked_sample
  obtain ⟨result, hresult⟩ := hreturns.mpr (exists_crawlDirectory_iff.mp ⟨_, crawlDirectory_sample⟩)
  obtain ⟨hiff, -, -⟩ := hkeeps result hresult
  refine ⟨result, hresult, (hiff _ (by decide +kernel) (by decide)).mpr ?_⟩
  exact .call (e := ⟨"a.rs::g", some "True"⟩) (by decide +kernel) (by decide +kernel) (by decide)

end Crawler
end FlowAtlas
