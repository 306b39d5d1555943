import FlowAtlas.Proofs.Merge
import FlowAtlas.Proofs.Pruning

/-! Resolving names between files. An edge of a file goes on to its own decision, or to each file that
declares its target, whatever the files hold; so no edge of the merged graph dangles. -/

namespace FlowAtlas

theorem flatMap_filter {α β : Type} (p : α → Bool) (f : α → List β) (l : List α) :
    (l.filter p).flatMap f = l.flatMap fun a => if p a then f a else [] := by
  induction l with
  | nil => rfl
  | cons a rest ih => cases h : p a <;> simp [h, ih]

theorem NameIndex.mem_declaring {files : List CrawledFile} {path name : String} :
    path ∈ declaring files name ↔
      ∃ f ∈ files, f.path = path ∧ name ∈ f.flow.graph ∧ NodeId.isDecision name = false := by
  rw [← findD_ofFiles, mem_ofFiles]
  simp only [Graph.mem_functions, eq_comm (a := path)]

theorem NameIndex.declaring_of_function {name : String} (hname : NodeId.isDecision name = false)
    (files : List CrawledFile) :
    declaring files name =
      ((files.filter fun f => f.flow.graph.contains name).map CrawledFile.path).eraseDups := by
  have hdeclares : (fun f : CrawledFile => decide (name ∈ f.flow.graph.functions)) =
      fun f => f.flow.graph.contains name := by
    funext f
    simp [Graph.mem_functions, Table.contains, hname]
  rw [declaring, hdeclares]

namespace CrawlGraph
open NodeId
variable {files : List CrawledFile}

/-- What an edge of a file becomes: an edge to the same decision, or one to each declaring file. -/
def resolved (files : List CrawledFile) (path : String) (e : Edge) : List Edge :=
  if isDecision e.target then [⟨inFile path e.target, e.label⟩]
  else ((files.filter fun f => f.flow.graph.contains e.target).map CrawledFile.path).eraseDups.map
    fun declaring => ⟨inFile declaring e.target, e.label⟩

theorem resolve_ofFiles (files : List CrawledFile) (path : String) (e : Edge) :
    (NameIndex.ofFiles files).resolve path e = resolved files path e := by
  unfold NameIndex.resolve resolved
  split
  · rfl
  · rename_i hdecision
    rw [NameIndex.findD_ofFiles, NameIndex.declaring_of_function (by simpa using hdecision)]

theorem isDecision_inFile_of_isDecision {id : NodeId} (h : isDecision id = true) (path : String) :
    isDecision (inFile path id) = true := by
  rw [isDecision_iff] at h ⊢
  simp [inFile, h]

theorem inner_or_mem_of_mem_edges_merge {key : NodeId} {e : Edge}
    (he : e ∈ (merge (.ofFiles files) files).graph.edges key) :
    (∃ f ∈ files, ∃ id, ∃ inner ∈ f.flow.graph.edges id,
      isDecision inner.target = true ∧ e.target = inFile f.path inner.target) ∨
    e.target ∈ (merge (.ofFiles files) files).graph := by
  obtain ⟨f, hf, id, _, inner, hinner, he⟩ := mem_edges_merge.mp he
  unfold NameIndex.resolve at he
  split at he
  · rename_i hdecision
    obtain rfl := List.mem_singleton.mp he
    exact .inl ⟨f, hf, id, inner, hinner, hdecision, rfl⟩
  · obtain ⟨path, hpath, rfl⟩ := List.mem_map.mp he
    rw [NameIndex.findD_ofFiles] at hpath
    obtain ⟨f', hf', rfl, hmem, _⟩ := NameIndex.mem_declaring.mp hpath
    exact .inr (mem_merge.mpr ⟨f', hf', inner.target, hmem, rfl⟩)

theorem decision_or_mem_of_mem_edges_merge {key : NodeId} {e : Edge}
    (he : e ∈ (merge (.ofFiles files) files).graph.edges key) :
    isDecision e.target = true ∨ e.target ∈ (merge (.ofFiles files) files).graph := by
  refine (inner_or_mem_of_mem_edges_merge he).imp_left ?_
  rintro ⟨f, _, _, inner, _, hdecision, htarget⟩
  rw [htarget]
  exact isDecision_inFile_of_isDecision hdecision f.path

theorem closed_merge (hdecisions : ∀ f ∈ files, ∀ id, ∀ e ∈ f.flow.graph.edges id,
      isDecision e.target = true → e.target ∈ f.flow.graph) :
    (merge (.ofFiles files) files).graph.Closed := by
  intro key e he
  rcases inner_or_mem_of_mem_edges_merge he with ⟨f, hf, id, inner, hinner, hdecision, htarget⟩ | h
  · rw [htarget]
    exact mem_merge.mpr ⟨f, hf, inner.target, hdecisions f hf id inner hinner hdecision, rfl⟩
  · exact h

/-- Every key has, node by node in the order of the crawl, what the edges of its nodes become, and
dropping what dangles changes nothing. -/
theorem merge_exact (files : List CrawledFile) :
    (∀ key, key ∈ (merge (.ofFiles files) files).graph ↔
      ∃ x ∈ nodes files, inFile x.1.path x.2.1 = key) ∧
    (∀ key, (merge (.ofFiles files) files).graph.edges key =
      ((nodes files).filter fun x => inFile x.1.path x.2.1 = key).flatMap fun x =>
        x.2.2.flatMap (resolved files x.1.path)) ∧
    (merge (.ofFiles files) files).graph.dropDangling = (merge (.ofFiles files) files).graph := by
  refine ⟨fun key => ?_, fun key => ?_, ?_⟩
  · rw [mem_merge]
    exact (exists_nodes (q := fun f id => inFile f.path id = key)).symm
  · have hresolve : ∀ x : CrawledFile × NodeId × List Edge,
        (NameIndex.ofFiles files).resolve x.1.path = resolved files x.1.path :=
      fun x => funext (resolve_ofFiles files x.1.path)
    rw [edges_merge, flatMap_filter]
    simp only [hresolve, decide_eq_true_eq]
  · exact Graph.dropDangling_eq _ fun _ _ => decision_or_mem_of_mem_edges_merge

end CrawlGraph
end FlowAtlas
