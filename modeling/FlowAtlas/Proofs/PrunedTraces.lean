import FlowAtlas.Proofs.Pruning
import FlowAtlas.Proofs.Tracing
import Mathlib.Data.List.Sort
import Mathlib.Data.Prod.Lex
import Mathlib.Data.String.Basic

/-! Traces after pruning. Whatever leads to a node that stays, stays as well, with the edge between them. So
pruning takes no path to such a node away, and a trace that ends at one comes out the same. -/

namespace FlowAtlas

namespace Trace

theorem pairLe_iff {a b : NodeId × NodeId} : pairLe a b = true ↔ toLex a ≤ toLex b := by
  rw [Prod.Lex.toLex_le_toLex]
  unfold pairLe
  by_cases h : a.1 = b.1
  · simp [h]
  · simp [h, le_iff_lt_or_eq]

theorem mergeSort_pairLe_eq_of_perm {l l' : List (NodeId × NodeId)} (h : l.Perm l') :
    l.mergeSort pairLe = l'.mergeSort pairLe := by
  have hsorted : ∀ l : List (NodeId × NodeId),
      (l.mergeSort pairLe).Pairwise fun a b => pairLe a b = true := by
    intro l
    apply List.pairwise_mergeSort
    · intro a b c hab hbc
      rw [pairLe_iff] at hab hbc ⊢
      exact hab.trans hbc
    · intro a b
      rw [Bool.or_eq_true, pairLe_iff, pairLe_iff]
      exact le_total (toLex a) (toLex b)
  have hperm : (l.mergeSort pairLe).Perm (l'.mergeSort pairLe) :=
    ((l.mergeSort_perm pairLe).trans h).trans (l'.mergeSort_perm pairLe).symm
  apply hperm.eq_of_pairwise _ (hsorted l) (hsorted l')
  intro a b _ _ hab hba
  rw [pairLe_iff] at hab hba
  exact toLex.injective (le_antisymm hab hba)

theorem ofEdges_eq_of_perm {source : NodeId} {steps steps' : List (NodeId × NodeId)} {status : String}
    (h : steps.Perm steps') : ofEdges source steps status = ofEdges source steps' status := by
  have hnodes : (source :: steps.map Prod.snd).eraseDups.Perm
      (source :: steps'.map Prod.snd).eraseDups := by
    rw [List.perm_ext_iff_of_nodup (nodup_eraseDups _) (nodup_eraseDups _)]
    intro id
    rw [List.mem_eraseDups, List.mem_eraseDups]
    exact ((h.map Prod.snd).cons source).mem_iff
  unfold ofEdges
  rw [sortTexts_eq_of_perm hnodes, mergeSort_pairLe_eq_of_perm h]

end Trace

namespace Graph
variable {g h : Graph} {a b source sink : NodeId} {path : List NodeId}

theorem tracedPaths_congr
    (hpaths : ∀ path, h.SimplePath source sink path ↔ g.SimplePath source sink path) :
    h.tracedPaths source sink = g.tracedPaths source sink := by
  have heq : h.SimplePath source sink = g.SimplePath source sink := by
    funext path
    exact propext (hpaths path)
  rcases h.tracedPaths_cases source sink with ⟨hnone, hh⟩ | ⟨steps, hcollects, hh⟩
  · rcases g.tracedPaths_cases source sink with ⟨_, hg⟩ | ⟨steps', hcollects', _⟩
    · rw [hh, hg]
    · obtain ⟨path, hpath⟩ := hcollects'.isSome_iff.mp rfl
      exact absurd ((hpaths path).mpr hpath) (hnone path)
  · rw [heq] at hcollects
    rcases g.tracedPaths_cases source sink with ⟨hnone, _⟩ | ⟨steps', hcollects', hg⟩
    · obtain ⟨path, hpath⟩ := hcollects.isSome_iff.mp rfl
      exact absurd hpath (hnone path)
    · have hperm : steps.Perm steps' := by
        rw [List.perm_ext_iff_of_nodup (hcollects.nodup steps rfl) (hcollects'.nodup steps' rfl)]
        intro step
        exact (hcollects.mem_iff steps rfl step.1 step.2).trans
          (hcollects'.mem_iff steps' rfl step.1 step.2).symm
      rw [hh, hg, Trace.ofEdges_eq_of_perm hperm]

theorem leads_prune_iff :
    g.prune.graph.Leads a b ↔ g.Leads a b ∧ a ∈ g.prune.graph ∧ b ∈ g.prune.graph := by
  unfold Leads
  constructor
  · intro hleads
    obtain ⟨e, he, rfl⟩ := hleads
    obtain ⟨he, ha, hb⟩ := mem_edges_prune.mp he
    exact ⟨⟨e, he, rfl⟩, ha, hb⟩
  · intro hleads
    obtain ⟨⟨e, he, rfl⟩, ha, hb⟩ := hleads
    exact ⟨e, mem_edges_prune.mpr ⟨he, ha, hb⟩, rfl⟩

/-- An edge leaves a key only, and from a dying decision it leads to another one. -/
theorem mem_prune_of_leads (hleads : g.Leads a b) (hb : b ∈ g.prune.graph) : a ∈ g.prune.graph := by
  obtain ⟨e, he, rfl⟩ := hleads
  have hlives : ¬ Dies g e.target := (mem_prune.mp hb).2
  exact mem_prune.mpr ⟨mem_of_mem_edges he, fun hdies => hlives (hdies.target he)⟩

theorem mem_prune_of_isChain (hsteps : path.IsChain g.Leads) (hlast : path.getLast? = some sink)
    (hsink : sink ∈ g.prune.graph) : ∀ id ∈ path, id ∈ g.prune.graph := by
  apply hsteps.backwards_induction
  · exact fun a b => mem_prune_of_leads
  · intro hne
    rwa [List.getLast_of_getLast?_eq_some hlast]

theorem simplePath_prune_iff (hsink : sink ∈ g.prune.graph) :
    g.prune.graph.SimplePath source sink path ↔ g.SimplePath source sink path := by
  constructor
  · intro hpath
    have hsteps : path.IsChain g.Leads := hpath.steps.imp fun a b h => (leads_prune_iff.mp h).1
    exact ⟨hpath.head, hpath.last, hsteps, hpath.nodup⟩
  · intro hpath
    have hkept := mem_prune_of_isChain hpath.steps hpath.last hsink
    have hsteps : path.IsChain g.prune.graph.Leads :=
      hpath.steps.imp_of_mem_imp fun a b ha hb h => leads_prune_iff.mpr ⟨h, hkept a ha, hkept b hb⟩
    exact ⟨hpath.head, hpath.last, hsteps, hpath.nodup⟩

/-- Pruning changes no trace to a node that stays, whatever it starts from. -/
theorem tracedPaths_prune (source : NodeId) (hsink : sink ∈ g.prune.graph) :
    g.prune.graph.tracedPaths source sink = g.tracedPaths source sink ∧
      (Relation.ReflTransGen g.prune.graph.Leads source sink ↔
        Relation.ReflTransGen g.Leads source sink) := by
  have hpaths : ∀ path, g.prune.graph.SimplePath source sink path ↔ g.SimplePath source sink path :=
    fun _ => simplePath_prune_iff hsink
  refine ⟨tracedPaths_congr hpaths, ?_⟩
  rw [← exists_simplePath_iff, ← exists_simplePath_iff]
  exact exists_congr hpaths

theorem tracedPaths_prune_sample :
    let loop := NodeId.decision 1 "while x"
    let branch := NodeId.decision 2 "if y"
    let g : Graph := .ofList [("f", [{ target := loop }]),
      (loop, [{ target := branch }, { target := "h", label := "Loop" }]), (branch, []),
      ("h", [{ target := "f" }, { target := "k" }])]
    "h" ∈ g.prune.graph ∧ branch ∈ g ∧ branch ∉ g.prune.graph ∧
      g.prune.graph.tracedPaths "f" "h" = g.tracedPaths "f" "h" ∧
      (Relation.ReflTransGen g.prune.graph.Leads "f" "h" ↔ Relation.ReflTransGen g.Leads "f" "h") := by
  intro loop branch g
  have hsink : "h" ∈ g.prune.graph := by decide +kernel
  exact ⟨hsink, by decide +kernel, by decide +kernel, tracedPaths_prune "f" hsink⟩

end Graph
end FlowAtlas
