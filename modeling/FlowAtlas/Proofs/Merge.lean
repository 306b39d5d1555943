import FlowAtlas.Crawl.Merge
import FlowAtlas.Proofs.FileFlow

/-! The graph of many files, key by key: its nodes are the nodes of the files, its edges what the name
index makes of theirs. If the flow of every file is sound and no path holds the unit separator, so is
the merged graph, and its decisions lie deeper along its edges. -/

namespace FlowAtlas

namespace NameIndex

def withPath (paths : List String) (path : String) : List String :=
  if path ∈ paths then paths else paths ++ [path]

theorem mem_withPath_self (paths : List String) (path : String) : path ∈ withPath paths path := by
  unfold withPath
  split
  · assumption
  · exact List.mem_append_right _ List.mem_cons_self

theorem eraseDups_concat (paths : List String) (path : String) :
    (paths ++ [path]).eraseDups = withPath paths.eraseDups path := by
  have hsingle : [path].eraseDups = [path] := by simp [List.eraseDups_cons]
  rw [List.eraseDups_append]
  by_cases h : path ∈ paths <;> simp [withPath, List.removeAll, h, hsingle]

theorem findD_declare (index : NameIndex) (path name n : String) :
    (index.declare path name).findD n [] =
      if n = name then withPath (index.findD n []) path else index.findD n [] := by
  unfold Table.findD declare
  rw [Table.find?_alter]
  split
  · rename_i h
    subst h
    rfl
  · rfl

theorem findD_foldl_declare (index : NameIndex) (path : String) (names : List String) (n : String) :
    (names.foldl (fun index name => index.declare path name) index).findD n [] =
      if n ∈ names then withPath (index.findD n []) path else index.findD n [] := by
  induction names generalizing index with
  | nil => rfl
  | cons name rest ih =>
    rw [List.foldl_cons, ih, findD_declare]
    by_cases hname : n = name
    · -- A second declaration adds nothing.
      have htwice : withPath (withPath (index.findD n []) path) path =
          withPath (index.findD n []) path := if_pos (mem_withPath_self _ path)
      have hmem : n ∈ name :: rest := List.mem_cons.mpr (.inl hname)
      rw [if_pos hname, if_pos hmem, htwice, ite_self]
    · simp only [List.mem_cons, hname, false_or, if_false]

def declaring (files : List CrawledFile) (name : String) : List String :=
  ((files.filter fun f => name ∈ f.flow.graph.functions).map CrawledFile.path).eraseDups

theorem findD_ofFiles (files : List CrawledFile) (n : String) :
    (ofFiles files).findD n [] = declaring files n := by
  induction files using List.reverseRecOn with
  | nil => rfl
  | append_singleton files f ih =>
    have hsnoc : ofFiles (files ++ [f]) = (ofFiles files).addFile f := List.foldl_append
    rw [hsnoc, addFile, findD_foldl_declare, ih]
    unfold declaring
    by_cases hname : n ∈ f.flow.graph.functions
    · simp only [hname, List.filter_append, List.filter_cons_of_pos, List.filter_nil, List.map_append,
        List.map_cons, List.map_nil, eraseDups_concat, if_true, decide_true]
    · simp [hname]

theorem mem_ofFiles {files : List CrawledFile} {p n : String} :
    p ∈ (ofFiles files).findD n [] ↔ ∃ f ∈ files, p = f.path ∧ n ∈ f.flow.graph.functions := by
  rw [findD_ofFiles, declaring, List.mem_eraseDups]
  simp only [List.mem_map, List.mem_filter, decide_eq_true_eq, and_assoc, eq_comm (a := p),
    and_comm (a := n ∈ _)]

end NameIndex

namespace Graph

theorem mem_functions {g : Graph} {id : NodeId} :
    id ∈ g.functions ↔ id ∈ g ∧ NodeId.isDecision id = false := by
  simp [functions, Table.mem_iff]

end Graph

namespace CrawlGraph
open NodeId
variable {index : NameIndex} {files : List CrawledFile} {key : NodeId}

def nodes (files : List CrawledFile) : List (CrawledFile × NodeId × List Edge) :=
  files.flatMap fun f => f.flow.graph.entries.map (f, ·)

theorem mem_nodes {f : CrawledFile} {id : NodeId} {es : List Edge} :
    (f, id, es) ∈ nodes files ↔ f ∈ files ∧ f.flow.graph.find? id = some es := by
  simp only [nodes, List.mem_flatMap, List.mem_map, Prod.mk.injEq]
  constructor
  · rintro ⟨f', hf, entry, hentry, rfl, rfl⟩
    exact ⟨hf, Table.mem_entries_iff.mp hentry⟩
  · rintro ⟨hf, hes⟩
    exact ⟨f, hf, (id, es), Table.mem_entries_iff.mpr hes, rfl, rfl⟩

theorem exists_nodes {q : CrawledFile → NodeId → Prop} :
    (∃ x ∈ nodes files, q x.1 x.2.1) ↔ ∃ f ∈ files, ∃ id ∈ f.flow.graph, q f id := by
  constructor
  · rintro ⟨⟨f, id, es⟩, hnode, h⟩
    obtain ⟨hf, hes⟩ := mem_nodes.mp hnode
    exact ⟨f, hf, id, Table.mem_of_find? hes, h⟩
  · rintro ⟨f, hf, id, hid, h⟩
    obtain ⟨es, hes⟩ := Table.mem_iff_find?.mp hid
    exact ⟨(f, id, es), mem_nodes.mpr ⟨hf, hes⟩, h⟩

theorem merge_eq_foldl (index : NameIndex) (files : List CrawledFile) :
    merge index files = (nodes files).foldl (fun c x => addNode index x.1 c x.2) empty := by
  unfold merge nodes
  rw [List.foldl_flatMap]
  simp only [List.foldl_map]
  rfl

theorem edges_addNode (index : NameIndex) (c : CrawlGraph) (f : CrawledFile)
    (node : NodeId × List Edge) (key : NodeId) :
    (addNode index f c node).graph.edges key =
      c.graph.edges key ++
        if inFile f.path node.1 = key then node.2.flatMap (index.resolve f.path) else [] := by
  unfold addNode Graph.edges Table.findD
  rw [Table.find?_alter]
  by_cases h : inFile f.path node.1 = key
  · subst h
    simp
  · simp [h, Ne.symm h]

/-- The edges of a key are what the edges of its nodes become, node by node in their order. -/
theorem edges_merge (index : NameIndex) (files : List CrawledFile) (key : NodeId) :
    (merge index files).graph.edges key = (nodes files).flatMap fun x =>
      if inFile x.1.path x.2.1 = key then x.2.2.flatMap (index.resolve x.1.path) else [] := by
  rw [merge_eq_foldl]
  suffices h : ∀ (xs : List (CrawledFile × NodeId × List Edge)) (c : CrawlGraph),
      (xs.foldl (fun c x => addNode index x.1 c x.2) c).graph.edges key =
        c.graph.edges key ++ xs.flatMap fun x =>
          if inFile x.1.path x.2.1 = key then x.2.2.flatMap (index.resolve x.1.path) else [] from
    h (nodes files) empty
  intro xs
  induction xs with
  | nil => simp
  | cons x rest ih =>
    intro c
    rw [List.foldl_cons, ih, edges_addNode, List.flatMap_cons, List.append_assoc]

theorem mem_edges_merge {e : Edge} :
    e ∈ (merge index files).graph.edges key ↔
      ∃ f ∈ files, ∃ id, inFile f.path id = key ∧
        ∃ inner ∈ f.flow.graph.edges id, e ∈ index.resolve f.path inner := by
  rw [edges_merge, List.mem_flatMap]
  constructor
  · rintro ⟨⟨f, id, es⟩, hnode, he⟩
    split at he
    · rename_i hkey
      obtain ⟨inner, hinner, he⟩ := List.mem_flatMap.mp he
      obtain ⟨hf, hes⟩ := mem_nodes.mp hnode
      exact ⟨f, hf, id, hkey, inner, by simpa [Graph.edges, Table.findD, hes] using hinner, he⟩
    · cases he
  · rintro ⟨f, hf, id, hkey, inner, hinner, he⟩
    obtain ⟨es, hes, hmem⟩ := Graph.mem_edges_iff.mp hinner
    refine ⟨(f, id, es), mem_nodes.mpr ⟨hf, Table.mem_entries_iff.mp hes⟩, ?_⟩
    rw [if_pos hkey]
    exact List.mem_flatMap.mpr ⟨inner, hmem, he⟩

theorem mem_merge :
    key ∈ (merge index files).graph ↔
      ∃ f ∈ files, ∃ id ∈ f.flow.graph, inFile f.path id = key := by
  have h := foldl_iff_exists (p := fun c : CrawlGraph => key ∈ c.graph)
    (q := fun x => inFile x.1.path x.2.1 = key) (f := fun c x => addNode index x.1 c x.2)
    (fun c x => by rw [addNode, Table.mem_alter, or_comm, eq_comm]) (nodes files) empty
  rw [merge_eq_foldl, h, or_iff_right (show key ∉ empty.graph from Table.not_mem_empty key)]
  exact exists_nodes (q := fun f id => inFile f.path id = key)

theorem mem_sources_addNode {c : CrawlGraph} {f : CrawledFile} {node : NodeId × List Edge} :
    key ∈ (addNode index f c node).sources ↔
      key ∈ c.sources ∨
        (isDecision node.1 = false ∧ node.1 ∈ f.flow.lines) ∧ inFile f.path node.1 = key := by
  unfold addNode
  dsimp only
  split
  · rename_i line hdecision hline
    rw [Table.mem_insert]
    simp [hdecision, Table.mem_of_find? hline, or_comm, eq_comm]
  · rename_i hnone
    refine (or_iff_left ?_).symm
    rintro ⟨⟨hdecision, hline⟩, _⟩
    obtain ⟨line, hline⟩ := Table.mem_iff_find?.mp hline
    exact hnone line hdecision hline

theorem mem_sources_merge :
    key ∈ (merge index files).sources ↔
      ∃ f ∈ files, ∃ id ∈ f.flow.graph,
        (isDecision id = false ∧ id ∈ f.flow.lines) ∧ inFile f.path id = key := by
  have h := foldl_iff_exists (p := fun c : CrawlGraph => key ∈ c.sources)
    (f := fun c x => addNode index x.1 c x.2) (fun _ _ => mem_sources_addNode) (nodes files) empty
  rw [merge_eq_foldl, h, or_iff_right (show key ∉ empty.sources from Table.not_mem_empty key)]
  exact exists_nodes
    (q := fun f id => (isDecision id = false ∧ id ∈ f.flow.lines) ∧ inFile f.path id = key)

end CrawlGraph

structure CrawledFile.Sound (f : CrawledFile) : Prop where
  path : '\x1f' ∉ f.path.toList
  flow : f.flow.Sound

/-- What a graph of many files and its sources owe to each other. -/
structure CrawlGraph.Sound (c : CrawlGraph) : Prop where
  closed : c.graph.Closed
  mem_sources_iff : ∀ id, id ∈ c.sources ↔ id ∈ c.graph ∧ NodeId.isDecision id = false
  label_iff : ∀ id, ∀ e ∈ c.graph.edges id,
    e.label = none ↔ NodeId.isDecision id = false ∨ NodeId.isDecision e.target = true

namespace CrawlGraph
open NodeId
variable {files : List CrawledFile}

theorem of_mem_resolve (hfiles : ∀ f ∈ files, f.Sound) {f : CrawledFile} (hf : f ∈ files)
    {id : NodeId} {inner e : Edge} (hinner : inner ∈ f.flow.graph.edges id)
    (he : e ∈ (NameIndex.ofFiles files).resolve f.path inner) :
    e.label = inner.label ∧ ∃ f' ∈ files, e.target = inFile f'.path inner.target ∧
      inner.target ∈ f'.flow.graph ∧ (isDecision inner.target = true → f' = f) := by
  unfold NameIndex.resolve at he
  split at he
  · rename_i hdecision
    obtain rfl := List.mem_singleton.mp he
    exact ⟨rfl, f, hf, rfl, (hfiles f hf).flow.decision_mem id inner hinner hdecision, fun _ => rfl⟩
  · rename_i hdecision
    obtain ⟨declaring, hdeclaring, rfl⟩ := List.mem_map.mp he
    obtain ⟨f', hf', rfl, hname⟩ := NameIndex.mem_ofFiles.mp hdeclaring
    exact ⟨rfl, f', hf', rfl, (Graph.mem_functions.mp hname).1, fun h => absurd h hdecision⟩

theorem sound_merge (hfiles : ∀ f ∈ files, f.Sound) : (merge (.ofFiles files) files).Sound where
  closed key e he := by
    obtain ⟨f, hf, id, _, inner, hinner, he⟩ := mem_edges_merge.mp he
    obtain ⟨_, f', hf', htarget, hmem, _⟩ := of_mem_resolve hfiles hf hinner he
    exact mem_merge.mpr ⟨f', hf', inner.target, hmem, htarget.symm⟩
  mem_sources_iff key := by
    rw [mem_sources_merge, mem_merge]
    constructor
    · rintro ⟨f, hf, id, hid, ⟨hdecision, _⟩, rfl⟩
      exact ⟨⟨f, hf, id, hid, rfl⟩, (isDecision_inFile (hfiles f hf).path id).trans hdecision⟩
    · rintro ⟨⟨f, hf, id, hid, rfl⟩, hdecision⟩
      have hid' : isDecision id = false := by
        rw [← hdecision, isDecision_inFile (hfiles f hf).path]
      exact ⟨f, hf, id, hid, ⟨hid', ((hfiles f hf).flow.mem_lines_iff id).mpr ⟨hid, hid'⟩⟩, rfl⟩
  label_iff key e he := by
    obtain ⟨f, hf, id, rfl, inner, hinner, he⟩ := mem_edges_merge.mp he
    obtain ⟨hlabel, f', hf', htarget, _⟩ := of_mem_resolve hfiles hf hinner he
    rw [hlabel, htarget, isDecision_inFile (hfiles f hf).path, isDecision_inFile (hfiles f' hf').path]
    exact (hfiles f hf).flow.label_iff id inner hinner

noncomputable def number (key : NodeId) : Nat :=
  Classical.epsilon fun n =>
    ∃ path shown, '\x1f' ∉ path.toList ∧ key = inFile path (.decision n shown)

theorem number_inFile {path : String} (hpath : '\x1f' ∉ path.toList) (n : Nat) (shown : String) :
    number (inFile path (.decision n shown)) = n := by
  obtain ⟨path', shown', hpath', heq⟩ :=
    Classical.epsilon_spec (p := fun m => ∃ path' shown', '\x1f' ∉ path'.toList ∧
      inFile path (.decision n shown) = inFile path' (.decision m shown'))
      ⟨n, path, shown, hpath, rfl⟩
  exact (inFile_decision_inj hpath hpath' heq).2.1.symm

theorem ranked_merge (hfiles : ∀ f ∈ files, f.Sound) :
    (merge (.ofFiles files) files).graph.Ranked := by
  refine ⟨number, ?_⟩
  intro key hkey e he htarget
  obtain ⟨f, hf, id, rfl, inner, hinner, he⟩ := mem_edges_merge.mp he
  obtain ⟨_, f', hf', htarget', hmem, hsame⟩ := of_mem_resolve hfiles hf hinner he
  have hpath := (hfiles f hf).path
  rw [htarget', isDecision_inFile (hfiles f' hf').path] at htarget
  -- An edge between decisions stays within one file, where the numbers rise.
  obtain rfl := hsame htarget
  rw [isDecision_inFile hpath] at hkey
  obtain ⟨m, shown, rfl⟩ := (hfiles f' hf').flow.numbered id (Graph.mem_of_mem_edges hinner) hkey
  obtain ⟨n, shown', hn⟩ := (hfiles f' hf').flow.numbered inner.target hmem htarget
  rw [htarget', hn, number_inFile hpath, number_inFile hpath]
  exact (hfiles f' hf').flow.ascending m n shown shown' inner hinner hn

end CrawlGraph
end FlowAtlas
