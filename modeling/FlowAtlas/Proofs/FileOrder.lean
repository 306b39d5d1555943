import FlowAtlas.Proofs.AddedFile
import FlowAtlas.Proofs.DeadEnds

/-! The order of the files of a crawl. Another order of the files gives the nodes, and the edges of each node,
in another order, and nothing else: what dies when decisions are pruned depends on the edges alone, and each
function keeps its source. -/

namespace FlowAtlas

namespace Graph

/-- Two graphs with the same keys and, for every key, the same edges, each in some order. -/
structure SameUpToOrder (g h : Graph) : Prop where
  mem_iff : ∀ id, id ∈ g ↔ id ∈ h
  edges : ∀ id, (g.edges id).Perm (h.edges id)

namespace SameUpToOrder
variable {g h : Graph} {id : NodeId}

theorem symm (hsame : g.SameUpToOrder h) : h.SameUpToOrder g :=
  ⟨fun id => (hsame.mem_iff id).symm, fun id => (hsame.edges id).symm⟩

theorem keys (hsame : g.SameUpToOrder h) : g.keys.Perm h.keys :=
  (List.perm_ext_iff_of_nodup g.nodup h.nodup).mpr hsame.mem_iff

theorem dies (hsame : g.SameUpToOrder h) (hdies : Dies g id) : Dies h id := by
  induction hdies with
  | @intro id hid hdecision _ ih =>
    refine .intro ((hsame.mem_iff id).mp hid) hdecision fun e he => ?_
    exact ih e ((hsame.edges id).mem_iff.mpr he)

theorem dies_iff (hsame : g.SameUpToOrder h) : Dies g id ↔ Dies h id :=
  ⟨hsame.dies, hsame.symm.dies⟩

theorem prune (hsame : g.SameUpToOrder h) : g.prune.graph.SameUpToOrder h.prune.graph := by
  have hmem : ∀ id, id ∈ g.prune.graph ↔ id ∈ h.prune.graph := by
    intro id
    rw [mem_prune, mem_prune, hsame.mem_iff, hsame.dies_iff]
  refine ⟨hmem, fun id => ?_⟩
  by_cases hid : id ∈ g.prune.graph
  · have hkept : (fun e : Edge => g.prune.graph.contains e.target) =
        fun e => h.prune.graph.contains e.target := by
      funext e
      simp only [Table.contains, hmem]
    rw [edges_prune hid, edges_prune ((hmem id).mp hid), hkept]
    exact (hsame.edges id).filter _
  · have hnone : ∀ {k : Graph}, id ∉ k → k.edges id = [] := fun hk =>
      List.eq_nil_iff_forall_not_mem.mpr fun e he => hk (mem_of_mem_edges he)
    rw [hnone hid, hnone (mt (hmem id).mpr hid)]

theorem removed (hsame : g.SameUpToOrder h) : g.prune.removed = h.prune.removed := by
  rw [removed_prune, removed_prune]
  simp only [hsame.mem_iff, hsame.prune.mem_iff]

end SameUpToOrder
end Graph

namespace CrawlGraph
open NodeId
variable {files files' : List CrawledFile}

section Perm
variable (hperm : files.Perm files')
include hperm

theorem nodes_perm : (nodes files).Perm (nodes files') :=
  hperm.flatMap_right _

variable (hpaths : (files.map CrawledFile.path).Nodup)
include hpaths

theorem resolved_perm (path : String) (e : Edge) :
    (resolved files path e).Perm (resolved files' path e) := by
  have hpaths' : (files'.map CrawledFile.path).Nodup := (hperm.map _).nodup_iff.mp hpaths
  rw [resolved_of_nodup hpaths, resolved_of_nodup hpaths']
  split
  · exact .refl _
  · exact (hperm.filter _).map _

theorem merge_perm : (merge (.ofFiles files) files).graph.SameUpToOrder
    (merge (.ofFiles files') files').graph where
  mem_iff key := by
    rw [mem_merge, mem_merge]
    simp only [hperm.mem_iff]
  edges key := by
    rw [edges_merge, edges_merge]
    refine (nodes_perm hperm).flatMap fun x _ => ?_
    split
    · refine List.Perm.flatMap (.refl _) fun e _ => ?_
      rw [resolve_ofFiles, resolve_ofFiles]
      exact resolved_perm hperm hpaths x.1.path e
    · exact .refl _

theorem sources_perm (hseparable : ∀ f ∈ files, Separable f.path) (key : NodeId) :
    (merge (.ofFiles files) files).sources.find? key =
      (merge (.ofFiles files') files').sources.find? key := by
  have hpaths' : (files'.map CrawledFile.path).Nodup := (hperm.map _).nodup_iff.mp hpaths
  have hseparable' : ∀ f ∈ files', Separable f.path := fun f hf =>
    hseparable f (hperm.mem_iff.mpr hf)
  ext site
  rw [find?_sources_merge hpaths hseparable, find?_sources_merge hpaths' hseparable']
  exact ((nodes_perm hperm).filterMap site?).mem_iff

end Perm
end CrawlGraph

namespace Crawl
open CrawlGraph

/-- The same files in another order give the same keys, as many pruned decisions, for every key the same edges
and the same sources; only the order of keys, and of the edges of a key, may be another one. -/
theorem assemble_perm {files files' : List CrawledFile} (hperm : files.Perm files')
    (hpaths : (files.map CrawledFile.path).Nodup)
    (hseparable : ∀ f ∈ files, NodeId.Separable f.path) :
    (assemble files).1.graph.keys.Perm (assemble files').1.graph.keys ∧
    (assemble files).1.removed = (assemble files').1.removed ∧
    (∀ key, ((assemble files).1.graph.edges key).Perm ((assemble files').1.graph.edges key)) ∧
    ∀ key, (assemble files).2.find? key = (assemble files').2.find? key := by
  have hmerged := merge_perm hperm hpaths
  rw [assemble_eq_prune, assemble_eq_prune]
  exact ⟨hmerged.prune.keys, hmerged.removed, hmerged.prune.edges,
    sources_perm hperm hpaths hseparable⟩

theorem assemble_perm_sample :
    (assemble [sampleFile "a.rs", sampleFile "b.rs"]).1.graph.edges "a.rs::_decision_1\x1fif x" =
      [⟨"a.rs::g", some "True"⟩, ⟨"b.rs::g", some "True"⟩] ∧
    (assemble [sampleFile "b.rs", sampleFile "a.rs"]).1.graph.edges "a.rs::_decision_1\x1fif x" =
      [⟨"b.rs::g", some "True"⟩, ⟨"a.rs::g", some "True"⟩] ∧
    ((assemble [sampleFile "a.rs", sampleFile "b.rs"]).1.graph.edges "a.rs::_decision_1\x1fif x").Perm
      ((assemble [sampleFile "b.rs", sampleFile "a.rs"]).1.graph.edges "a.rs::_decision_1\x1fif x") ∧
    (assemble [sampleFile "a.rs", sampleFile "b.rs"]).2.find? "b.rs::f" =
      (assemble [sampleFile "b.rs", sampleFile "a.rs"]).2.find? "b.rs::f" := by
  have hseparable : ∀ f ∈ [sampleFile "a.rs", sampleFile "b.rs"], NodeId.Separable f.path := by
    simp only [List.mem_cons, List.not_mem_nil, or_false, forall_eq_or_imp, forall_eq]
    exact ⟨⟨by decide, by decide⟩, ⟨by decide, by decide⟩⟩
  obtain ⟨_, _, hedges, hsources⟩ := assemble_perm (.swap (sampleFile "b.rs") (sampleFile "a.rs") [])
    (by decide) hseparable
  exact ⟨by decide +kernel, by decide +kernel, hedges _, hsources "b.rs::f"⟩

end Crawl
end FlowAtlas
