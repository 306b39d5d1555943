import FlowAtlas.Proofs.Crawl
import FlowAtlas.Proofs.Selection

/-! The files that a crawl depends on. Whatever else a directory holds, the graph and the sources are
those of the files that can be crawled: a file without a flow leaves no trace in the name index or in
the merged graph, and the others come in the order of their names. Only what cannot be looked up matters
besides. It stops the crawl. -/

namespace FlowAtlas

namespace CrawledFile

def hasNodes (f : CrawledFile) : Bool :=
  !f.flow.graph.isEmpty

theorem entries_of_not_hasNodes {f : CrawledFile} (h : ¬ f.hasNodes = true) :
    f.flow.graph.entries = [] := by
  simpa [hasNodes, Table.isEmpty] using h

end CrawledFile

theorem NameIndex.ofFiles_filter (files : List CrawledFile) :
    ofFiles (files.filter CrawledFile.hasNodes) = ofFiles files := by
  unfold ofFiles
  rw [List.foldl_filter]
  congr
  funext index f
  split
  · rfl
  · rename_i h
    simp [addFile, Graph.functions, Table.keys, f.entries_of_not_hasNodes h]

theorem CrawlGraph.merge_filter (index : NameIndex) (files : List CrawledFile) :
    merge index (files.filter CrawledFile.hasNodes) = merge index files := by
  unfold merge
  rw [List.foldl_filter]
  congr
  funext c f
  split
  · rfl
  · rename_i h
    rw [addFile, f.entries_of_not_hasNodes h, List.foldl_nil]

theorem Crawl.assemble_filter (files : List CrawledFile) :
    assemble (files.filter CrawledFile.hasNodes) = assemble files := by
  unfold assemble
  rw [NameIndex.ofFiles_filter, CrawlGraph.merge_filter]

namespace Crawler
variable {c : Crawler} {env : Environment} {root : Address} {names : List String} {text : String}

/-- The file at these names below the root can be crawled and has this text. An address leads through
directories alone, so no link is on the way to the file. -/
structure Crawlable (c : Crawler) (env : Environment) (suppress : Bool) (root : Address)
    (names : List String) (text : String) : Prop where
  directories : ∀ name ∈ names.dropLast, c.isIgnored name = false
  listed : ∀ d, d <+: names.dropLast → env.files.lists (root ++ d) = true
  notTest : ∀ pattern ∈ testPatterns, Text.fitsPattern pattern (names.getLast?.getD "") = false
  contents : ∃ bytes decoded, env.files.entryAt (root ++ names) = some (.file bytes) ∧
    env.files.access.unreadable (root ++ names) = none ∧ Text.Utf8.decode bytes = .ok decoded ∧
    text = String.ofList (Text.unifyBreaks decoded.toList)
  walkable : ∃ l tree, languageOf? (names.getLast?.getD "") = some l ∧
    env.parsers.unavailable l = none ∧ env.parsers.parse l text = .tree tree ∧
    env.parsers.walks l suppress text = true

end Crawler

theorem Parsers.isSome_tree?_iff {p : Parsers} {l : Language} {suppress : Bool} {text : String} :
    (p.tree? l suppress text).isSome = true ↔
      ∃ tree, p.unavailable l = none ∧ p.parse l text = .tree tree ∧ p.walks l suppress text = true := by
  unfold tree?
  cases p.unavailable l with
  | some reason => simp
  | none => cases p.parse l text <;> simp

namespace Crawler
variable {c : Crawler} {env : Environment} {suppress : Bool} {root : Address} {names : List String}
  {text : String}

/-- The names and the text of a file, if its text is one that can be walked. -/
def taken? (env : Environment) (suppress : Bool) (root : Address) (file : List String × List UInt8) :
    Option (List String × String) :=
  match readAs? file.1, env.files.access.unreadable (root ++ file.1), Text.Utf8.decode file.2 with
  | some l, none, .ok decoded =>
    let text := String.ofList (Text.unifyBreaks decoded.toList)
    if (env.parsers.tree? l suppress text).isSome then some (file.1, text) else none
  | _, _, _ => none

def taken (c : Crawler) (env : Environment) (suppress : Bool) (root : Address) :
    List (List String × String) :=
  (c.candidates env.files root).filterMap (taken? env suppress root)

def fileOf? (parsers : Parsers) (suppress : Bool) (root : Address) (file : List String × String) :
    Option CrawledFile :=
  (readAs? file.1).map fun l =>
    ⟨Text.joinWith "/" file.1, Address.text (root ++ file.1), parsers.flow l suppress file.2⟩

theorem taken?_eq_some_iff {file : List String × List UInt8} :
    taken? env suppress root file = some (names, text) ↔
      file.1 = names ∧ ∃ l decoded, readAs? file.1 = some l ∧
        env.files.access.unreadable (root ++ file.1) = none ∧ Text.Utf8.decode file.2 = .ok decoded ∧
        text = String.ofList (Text.unifyBreaks decoded.toList) ∧
        (env.parsers.tree? l suppress text).isSome = true := by
  unfold taken?
  cases hlanguage : readAs? file.1 with
  | none => simp
  | some l =>
    cases env.files.access.unreadable (root ++ file.1) with
    | some reason => simp
    | none =>
      cases hdecoded : Text.Utf8.decode file.2 with
      | error failure => simp
      | ok decoded =>
        simp only [Option.ite_none_right_eq_some, Option.some.injEq, Prod.mk.injEq, Except.ok.injEq]
        constructor
        · rintro ⟨htree, hnames, rfl⟩
          exact ⟨hnames, l, decoded, rfl, trivial, rfl, rfl, htree⟩
        · rintro ⟨hnames, _, _, rfl, -, rfl, rfl, htree⟩
          exact ⟨htree, hnames, rfl⟩

theorem pairwise_taken (c : Crawler) (env : Environment) (suppress : Bool) (root : Address) :
    ((c.taken env suppress root).map Prod.fst).Pairwise CrawlLt := by
  refine (c.pairwise_candidates env.files root).sublist (map_filterMap_sublist ?_ _)
  rintro file ⟨names, text⟩ htaken
  exact (taken?_eq_some_iff.mp htaken).1.symm

theorem readAs?_eq_some_iff {l : Language}
    (hdirectories : ∀ name ∈ names.dropLast, c.isIgnored name = false) :
    readAs? names = some l ↔
      languageOf? (names.getLast?.getD "") = some l ∧
        ∀ pattern ∈ testPatterns, Text.fitsPattern pattern (names.getLast?.getD "") = false := by
  -- The directories of tests are among the ignored ones.
  have htests : names.dropLast.any testDirectories.contains = false := by
    rw [List.any_eq_false]
    intro name hname
    have hkept := hdirectories name hname
    rw [isIgnored, Bool.or_eq_false_iff] at hkept
    exact Bool.not_eq_true _ ▸ hkept.2
  unfold readAs? isTestFile
  rw [htests, Bool.false_or]
  cases languageOf? (names.getLast?.getD "") <;> simp [and_comm]

theorem entryAt_of_language {fs : Files} {l : Language}
    (h : languageOf? (names.getLast?.getD "") = some l) (root : Address) :
    fs.entryAt (root ++ names) = fs.entries.find? (root ++ names) := by
  refine if_neg fun hnil => ?_
  obtain ⟨_, rfl⟩ := List.append_eq_nil_iff.mp hnil
  cases h

theorem mem_taken :
    (names, text) ∈ c.taken env suppress root ↔ c.Crawlable env suppress root names text := by
  rw [taken, List.mem_filterMap]
  constructor
  · rintro ⟨⟨names, bytes⟩, hcandidate, htaken⟩
    obtain ⟨hfile, hmeets⟩ := mem_candidates.mp hcandidate
    obtain ⟨hdirectories, hlisted⟩ := meets_iff.mp hmeets
    obtain ⟨rfl, l, decoded, hl, hreadable, hdecoded, htext, htree⟩ := taken?_eq_some_iff.mp htaken
    obtain ⟨hlanguage, hnotTest⟩ := (readAs?_eq_some_iff hdirectories).mp hl
    rw [← entryAt_of_language hlanguage] at hfile
    obtain ⟨tree, hwalkable⟩ := Parsers.isSome_tree?_iff.mp htree
    exact ⟨hdirectories, hlisted, hnotTest, ⟨bytes, decoded, hfile, hreadable, hdecoded, htext⟩,
      ⟨l, tree, hlanguage, hwalkable⟩⟩
  · rintro ⟨hdirectories, hlisted, hnotTest, ⟨bytes, decoded, hfile, hreadable, hdecoded, htext⟩,
      ⟨l, tree, hlanguage, hwalkable⟩⟩
    rw [entryAt_of_language hlanguage] at hfile
    refine ⟨(names, bytes), mem_candidates.mpr ⟨hfile, meets_iff.mpr ⟨hdirectories, hlisted⟩⟩, ?_⟩
    exact taken?_eq_some_iff.mpr ⟨rfl, l, decoded,
      (readAs?_eq_some_iff hdirectories).mpr ⟨hlanguage, hnotTest⟩, hreadable, hdecoded, htext,
      Parsers.isSome_tree?_iff.mpr ⟨tree, hwalkable⟩⟩

theorem filter_readFile (c : Crawler) (env : Environment) (suppress : Bool) (root : Address)
    (file : List String × List UInt8) :
    (c.readFile env.parsers suppress root file.1
        (env.files.contents (root ++ file.1) file.2)).1.filter CrawledFile.hasNodes =
      ((taken? env suppress root file).bind (fileOf? env.parsers suppress root)).filter
        CrawledFile.hasNodes := by
  unfold readFile taken? Files.contents
  cases hl : readAs? file.1 with
  | none => rfl
  | some l =>
    cases env.files.access.unreadable (root ++ file.1) with
    | some reason => rfl
    | none =>
      dsimp only [Except.bind]
      cases hdecoded : Text.Utf8.decode file.2 with
      | error failure => rfl
      | ok decoded =>
        dsimp only [Except.mapError]
        split
        · rw [Option.bind_some, fileOf?, hl, Option.map_some]
        · rename_i htree
          rw [Option.not_isSome_iff_eq_none] at htree
          have hnone : env.parsers.flow l suppress (String.ofList (Text.unifyBreaks decoded.toList)) =
              .empty := by
            rw [Parsers.flow, htree]
          rw [hnone]
          rfl

theorem filter_filesRead (c : Crawler) (env : Environment) (suppress : Bool) (root : Address) :
    (c.filesRead env suppress root).filter CrawledFile.hasNodes =
      ((c.taken env suppress root).filterMap (fileOf? env.parsers suppress root)).filter
        CrawledFile.hasNodes := by
  rw [filesRead, readAll, taken, List.filterMap_map, List.filterMap_filterMap, List.filter_filterMap,
    List.filter_filterMap]
  exact List.filterMap_congr fun file _ => c.filter_readFile env suppress root file

theorem exists_crawl_iff {root : String} {directory : Address}
    (hroot : env.directory? root = .ok (some directory)) :
    (∃ result, c.crawl env root suppress = .ok result) ↔
      Text.isAllBlank root = true ∨ c.AllSeen env.files directory := by
  by_cases hblank : Text.isAllBlank root = true
  · exact iff_of_true ⟨_, if_pos hblank⟩ (.inl hblank)
  · rw [crawl_of_directory (Bool.eq_false_iff.mpr hblank) hroot, exists_crawlDirectory_iff]
    simp [hblank]

/-- A crawl returns unless it comes to something that it cannot look up. What it returns depends on the
files that can be crawled and on nothing else: two file systems in which these have the same names and
texts give the same graph and the same sources. -/
theorem crawl_eq_of_crawlable (c : Crawler) (env env' : Environment)
    (hparsers : env.parsers = env'.parsers) (root : String) (suppress : Bool) (directory : Address)
    (hroot : env.directory? root = .ok (some directory))
    (hroot' : env'.directory? root = .ok (some directory))
    (hsame : ∀ names text,
      c.Crawlable env suppress directory names text ↔ c.Crawlable env' suppress directory names text) :
    ((∃ result, c.crawl env root suppress = .ok result) ↔
      Text.isAllBlank root = true ∨ c.AllSeen env.files directory) ∧
    ((∃ result, c.crawl env' root suppress = .ok result) ↔
      Text.isAllBlank root = true ∨ c.AllSeen env'.files directory) ∧
    ∀ result result', c.crawl env root suppress = .ok result →
      c.crawl env' root suppress = .ok result' →
      result.graph = result'.graph ∧ result.sources = result'.sources := by
  have htaken : c.taken env suppress directory = c.taken env' suppress directory :=
    eq_of_pairwise_crawlLt (c.pairwise_taken env suppress directory)
      (c.pairwise_taken env' suppress directory) fun (names, text) => by
        rw [mem_taken, mem_taken, hsame]
  have hassembled : Crawl.assemble (c.filesRead env suppress directory) =
      Crawl.assemble (c.filesRead env' suppress directory) := by
    rw [← Crawl.assemble_filter, filter_filesRead, htaken, hparsers, ← filter_filesRead,
      Crawl.assemble_filter]
  refine ⟨exists_crawl_iff hroot, exists_crawl_iff hroot', fun result result' hresult hresult' => ?_⟩
  by_cases hblank : Text.isAllBlank root = true
  · rw [crawl, if_pos hblank] at hresult hresult'
    cases hresult
    cases hresult'
    exact ⟨rfl, rfl⟩
  · rw [crawl_of_directory (Bool.eq_false_iff.mpr hblank) hroot] at hresult
    rw [crawl_of_directory (Bool.eq_false_iff.mpr hblank) hroot'] at hresult'
    obtain ⟨-, rfl⟩ := crawlDirectory_eq_ok_iff.mp hresult
    obtain ⟨-, rfl⟩ := crawlDirectory_eq_ok_iff.mp hresult'
    constructor
    · exact congrArg (fun assembled => assembled.1.graph) hassembled
    · exact congrArg Prod.snd hassembled

def plainEnvironment : Environment :=
  { sampleEnvironment with
    parsers :=
      { unavailable := fun _ => none
        parse := fun _ text => if text = sampleText then .tree sampleTree else .malformed } }

/-- The sample directory with a file of a test, a link, vendored code, bytes that are no text, a text that
cannot be parsed, a file that cannot be read and a text in no supported language. -/
def clutteredEnvironment : Environment :=
  let beside := [("a_test.rs", .file (Text.Utf8.encode sampleText)), ("b.rs", .link "a.rs"),
    ("c.rs", .file [0xff]), ("d.rs", .file (Text.Utf8.encode "fn")),
    ("e.txt", .file (Text.Utf8.encode sampleText)), ("g.rs", .file (Text.Utf8.encode sampleText)),
    ("target", .directory)]
  let files := (beside.foldl (fun fs (name, e) => fs.put ["p"] name e) plainEnvironment.files).put
    ["p", "target"] "f.rs" (.file (Text.Utf8.encode sampleText))
  let unreadable a := if a = ["p", "g.rs"] then some (Fault.denied "/p/g.rs").message else none
  { plainEnvironment with files := { files with access := { unreadable } } }

/-- The sample directory with a text in a directory that can be listed but in which nothing can be looked
up. -/
def sealedEnvironment : Environment :=
  let files := (plainEnvironment.files.put ["p"] "q" .directory).put ["p", "q"] "notes.txt"
    (.file (Text.Utf8.encode "x"))
  { plainEnvironment with files := { files with access := { searchable := (· ≠ ["p", "q"]) } } }

def takenUnsorted (env : Environment) : List (List String × String) :=
  ((env.files.filesUnder ["p"]).filter fun file => meets {} env.files ["p"] file.1).filterMap
    (taken? env false ["p"])

theorem crawlable_iff_mem_takenUnsorted :
    Crawlable {} env false ["p"] names text ↔ (names, text) ∈ takenUnsorted env := by
  rw [← mem_taken]
  simp only [taken, candidates, takenUnsorted, List.mem_filterMap, List.mem_mergeSort]

theorem reachable_of_sample (hentry : env.files.entryAt ["p"] = some .directory)
    (hroot : env.files.access.searchable [] = true) : env.Reachable ["p"] where
  plain := .child .root hroot (by decide) (by decide) (by decide) hentry
  free := reachable_sample.free
  short := reachable_sample.short

theorem directory?_plain : plainEnvironment.directory? "/p" = .ok (some ["p"]) :=
  (reachable_of_sample (by decide +kernel) rfl).directory?_eq (by decide)

theorem allSeen_plain : AllSeen {} plainEnvironment.files ["p"] := by
  have hunseen : unseen {} plainEnvironment.files ["p"] = [] := by decide +kernel
  exact unseen_eq_nil_iff.mp hunseen

theorem crawl_eq_of_crawlable_sample :
    ∃ result result', crawl {} plainEnvironment "/p" false = .ok result ∧
      crawl {} clutteredEnvironment "/p" false = .ok result' ∧
      result.graph.keys = ["a.rs::g", "a.rs::f", "a.rs::_decision_1\x1fif x"] ∧
      result.graph = result'.graph ∧ result.sources = result'.sources := by
  have hsame : takenUnsorted plainEnvironment = takenUnsorted clutteredEnvironment := by decide +kernel
  have hcluttered : clutteredEnvironment.directory? "/p" = .ok (some ["p"]) :=
    (reachable_of_sample (by decide +kernel) rfl).directory?_eq (by decide)
  have hunseen : unseen {} clutteredEnvironment.files ["p"] = [] := by decide +kernel
  obtain ⟨hplain, hreturns, hequal⟩ :=
    crawl_eq_of_crawlable {} plainEnvironment clutteredEnvironment rfl "/p" false ["p"]
      directory?_plain hcluttered fun names text => by
        rw [crawlable_iff_mem_takenUnsorted, hsame, ← crawlable_iff_mem_takenUnsorted]
  obtain ⟨result, hresult⟩ := hplain.mpr (.inr allSeen_plain)
  obtain ⟨result', hresult'⟩ := hreturns.mpr (.inr (unseen_eq_nil_iff.mp hunseen))
  refine ⟨result, result', hresult, hresult', ?_, hequal result result' hresult hresult'⟩
  rw [crawl_of_directory (by decide +kernel) directory?_plain] at hresult
  obtain ⟨-, rfl⟩ := crawlDirectory_eq_ok_iff.mp hresult
  decide +kernel

theorem crawlDirectory_sealed :
    crawlDirectory {} sealedEnvironment false ["p"] = .error (.denied "/p/q/notes.txt") := by
  have hunseen : unseen {} sealedEnvironment.files ["p"] = [["q", "notes.txt"]] := by decide +kernel
  have hfault : faultAt (["p"] ++ ["q", "notes.txt"]) = .denied "/p/q/notes.txt" := by decide +kernel
  rw [crawlDirectory, hunseen]
  exact congrArg Except.error hfault

/-- A text in no supported language stops a crawl, where it stands in a directory in which nothing can be
looked up, although the files that can be crawled are the same with it and without. -/
theorem unsupported_file_stops_crawl :
    (∀ names text, Crawlable {} plainEnvironment false ["p"] names text ↔
      Crawlable {} sealedEnvironment false ["p"] names text) ∧
    languageOf? "notes.txt" = none ∧
    (∃ result, crawl {} plainEnvironment "/p" false = .ok result) ∧
    crawl {} sealedEnvironment "/p" false = .error (.denied "/p/q/notes.txt") := by
  have hsame : takenUnsorted plainEnvironment = takenUnsorted sealedEnvironment := by decide +kernel
  have hsealed : sealedEnvironment.directory? "/p" = .ok (some ["p"]) :=
    (reachable_of_sample (by decide +kernel) rfl).directory?_eq (by decide)
  refine ⟨fun names text => ?_, by decide +kernel, ?_, ?_⟩
  · rw [crawlable_iff_mem_takenUnsorted, hsame, ← crawlable_iff_mem_takenUnsorted]
  · exact (exists_crawl_iff directory?_plain).mpr (.inr allSeen_plain)
  · rw [crawl_of_directory (by decide +kernel) hsealed, crawlDirectory_sealed]

end Crawler
end FlowAtlas
