import FlowAtlas.Levels
import FlowAtlas.Proofs.Tracing

/-! Chains of callers. Each chain is counted by its calls, and an edge from a node to itself is none. Where no
cycle comes in, a chain repeats no node, so the longest chains have a length and start at a root. -/

namespace FlowAtlas.Graph
variable {g : Graph} {a b c id top : NodeId} {n : Nat}

def Calls (g : Graph) (a b : NodeId) : Prop :=
  a ≠ b ∧ g.Leads a b

structure IsRoot (g : Graph) (id : NodeId) : Prop where
  mem : id ∈ g.nodeIds
  uncalled : ∀ c, ¬ g.Calls c id

/-- A walk leads to the node from a root. -/
def Reached (g : Graph) (id : NodeId) : Prop :=
  ∃ root, g.IsRoot root ∧ Relation.ReflTransGen g.Leads root id

/-- A chain of `n` calls leads from `top` down to the node. -/
inductive Descends (g : Graph) (top : NodeId) : Nat → NodeId → Prop
  | refl : Descends g top 0 top
  | call {n : Nat} {a b : NodeId} (above : Descends g top n a) (call : g.Calls a b) :
      Descends g top (n + 1) b

/-- Neither the node nor what calls it, directly or not, lies on a cycle. -/
def Unlooped (g : Graph) (id : NodeId) : Prop :=
  ∀ c, Relation.ReflTransGen g.Calls c id → ¬ Relation.TransGen g.Calls c c

theorem mem_callers : a ∈ g.callers b ↔ g.Calls a b := by
  simp only [callers, Calls, Leads, mem_edges_iff, List.mem_map, List.mem_filter, decide_eq_true_eq]
  constructor
  · intro h
    obtain ⟨⟨caller, es⟩, ⟨hentry, hne, e, he, htarget⟩, rfl⟩ := h
    exact ⟨hne, e, ⟨es, hentry, he⟩, htarget⟩
  · intro h
    obtain ⟨hne, e, ⟨es, hentry, he⟩, htarget⟩ := h
    exact ⟨(a, es), ⟨hentry, hne, e, he, htarget⟩, rfl⟩

theorem isRoot_iff : g.IsRoot id ↔ id ∈ g.nodeIds ∧ g.callers id = [] := by
  rw [List.eq_nil_iff_forall_not_mem]
  simp only [mem_callers]
  exact ⟨fun h => ⟨h.mem, h.uncalled⟩, fun h => ⟨h.1, h.2⟩⟩

theorem Leads.mem_nodeIds (h : g.Leads a b) : a ∈ g.nodeIds ∧ b ∈ g.nodeIds := by
  obtain ⟨e, he, htarget⟩ := h
  rw [Graph.mem_nodeIds, Graph.mem_nodeIds, mem_mentioned, mem_mentioned]
  exact ⟨.inl (mem_of_mem_edges he), .inr ⟨a, e, he, htarget⟩⟩

theorem Calls.mem_nodeIds (h : g.Calls a b) : a ∈ g.nodeIds ∧ b ∈ g.nodeIds :=
  h.2.mem_nodeIds

namespace Descends

theorem head (hcall : g.Calls a b) (h : g.Descends b n c) : g.Descends a (n + 1) c := by
  induction h with
  | refl => exact .call .refl hcall
  | call _ hlast ih => exact .call ih hlast

theorem top_mem (h : g.Descends top n id) (hid : id ∈ g.nodeIds) : top ∈ g.nodeIds := by
  induction h with
  | refl => exact hid
  | call _ hcall ih => exact ih hcall.mem_nodeIds.1

theorem reaches (h : g.Descends top n id) : Relation.ReflTransGen g.Leads top id := by
  induction h with
  | refl => exact .refl
  | call _ hcall ih => exact ih.tail hcall.2

end Descends

theorem SimplePath.descends {path : List NodeId} (h : g.SimplePath a b path) :
    ∃ n, path.length = n + 1 ∧ g.Descends a n b := by
  induction path generalizing a with
  | nil => cases h.head
  | cons c rest ih =>
    by_cases hne : a = b
    · subst hne
      rw [h.eq_singleton]
      exact ⟨0, rfl, .refl⟩
    · obtain ⟨id, rest', heq, hleads, hfresh, hrest⟩ := (simplePath_iff_of_ne hne).mp h
      cases heq
      obtain ⟨n, hlength, hn⟩ := ih hrest
      have hcall : g.Calls c id := by
        refine ⟨fun heq => hfresh ?_, hleads⟩
        rw [heq]
        exact List.mem_of_head? hrest.head
      exact ⟨n + 1, congrArg (· + 1) hlength, hn.head hcall⟩

namespace Unlooped

theorem caller (h : g.Unlooped b) (hcall : g.Calls a b) : g.Unlooped a :=
  fun c hc => h c (hc.tail hcall)

theorem simplePath (h : g.Unlooped id) (hchain : g.Descends top n id) :
    ∃ path, g.SimplePath top id path ∧ path.length = n + 1 ∧
      ∀ c ∈ path, Relation.ReflTransGen g.Calls c id := by
  induction hchain with
  | refl =>
    refine ⟨[top], g.simplePath_singleton top, rfl, fun c hc => ?_⟩
    rw [List.mem_singleton.mp hc]
  | @call n a b _ hcall ih =>
    obtain ⟨path, hpath, hlength, habove⟩ := ih (h.caller hcall)
    have hfresh : b ∉ path := fun hb =>
      h b .refl (Relation.TransGen.tail' (habove b hb) hcall)
    refine ⟨path ++ [b], hpath.concat hcall.2 hfresh, ?_, fun c hc => ?_⟩
    · rw [List.length_append, hlength]
      rfl
    · rcases List.mem_append.mp hc with hc | hc
      · exact (habove c hc).tail hcall
      · rw [List.mem_singleton.mp hc]

theorem chain_le (h : g.Unlooped id) (hchain : g.Descends top n id) : n ≤ g.nodeIds.length := by
  obtain ⟨path, hpath, hlength, _⟩ := h.simplePath hchain
  have hle := hpath.length_le
  omega

/-- A chain that starts below another node can start there, so one that cannot grow starts at a root. -/
theorem exists_root (h : g.Unlooped id) (hid : id ∈ g.nodeIds) (hchain : g.Descends top n id) :
    ∃ root m, g.IsRoot root ∧ n ≤ m ∧ g.Descends root m id := by
  induction hk : g.nodeIds.length - n generalizing top n with
  | zero =>
    refine ⟨top, n, ⟨hchain.top_mem hid, fun c hcall => ?_⟩, le_refl n, hchain⟩
    have hle := h.chain_le (hchain.head hcall)
    omega
  | succ k ih =>
    by_cases hcalled : ∃ c, g.Calls c top
    · obtain ⟨c, hcall⟩ := hcalled
      obtain ⟨root, m, hroot, hm, hlonger⟩ := ih (hchain.head hcall) (by omega)
      exact ⟨root, m, hroot, Nat.le_of_succ_le hm, hlonger⟩
    · exact ⟨top, n, ⟨hchain.top_mem hid, not_exists.mp hcalled⟩, le_refl n, hchain⟩

end Unlooped

theorem unlooped_of_acyclic (h : ∀ id, ¬ Relation.TransGen g.Calls id id) (id : NodeId) :
    g.Unlooped id :=
  fun c _ => h c

end FlowAtlas.Graph
