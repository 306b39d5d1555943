import FlowAtlas.Crawl.Prune
import FlowAtlas.Proofs.Merge
import Mathlib.Data.Finset.Lattice.Fold

/-! What pruning leaves. The rounds take away the least set of decisions all of whose edges go into the
set. In a closed graph whose decisions form no cycle, these are the decisions that lead to no function. -/

namespace FlowAtlas.Graph

/-- A decision from which nothing but decisions of this kind can be reached. -/
inductive Dies (g : Graph) : NodeId → Prop
  | intro {id : NodeId} (mem : id ∈ g) (decision : NodeId.isDecision id = true)
      (edges : ∀ e ∈ g.edges id, Dies g e.target) : Dies g id

/-- A node from which edges through decisions lead to a function that is a key. -/
inductive LeadsToFunction (g : Graph) : NodeId → Prop
  | call {id : NodeId} {e : Edge} (edge : e ∈ g.edges id) (mem : e.target ∈ g)
      (function : NodeId.isDecision e.target = false) : LeadsToFunction g id
  | nested {id : NodeId} {e : Edge} (edge : e ∈ g.edges id)
      (decision : NodeId.isDecision e.target = true) (below : LeadsToFunction g e.target) :
      LeadsToFunction g id

variable {g : Graph} {gone : List NodeId} {id : NodeId}

theorem Dies.mem (h : Dies g id) : id ∈ g := by
  cases h
  assumption

theorem Dies.decision (h : Dies g id) : NodeId.isDecision id = true := by
  cases h
  assumption

theorem Dies.target (h : Dies g id) {e : Edge} (he : e ∈ g.edges id) : Dies g e.target := by
  cases h with
  | intro _ _ hedges => exact hedges e he

theorem mem_without : id ∈ g.without gone ↔ id ∈ g ∧ id ∉ gone := by
  rw [without, Table.mem_mapValues, Table.mem_filter, Table.mem_iff_find?]
  simp

theorem edges_without :
    (g.without gone).edges id =
      if id ∈ gone then [] else (g.edges id).filter fun e => !gone.contains e.target := by
  unfold edges Table.findD without
  rw [Table.find?_mapValues, Table.find?_filter]
  by_cases h : id ∈ gone <;> cases g.find? id <;> simp [h, Option.filter]

theorem mem_edges_without {e : Edge} :
    e ∈ (g.without gone).edges id ↔ e ∈ g.edges id ∧ id ∉ gone ∧ e.target ∉ gone := by
  rw [edges_without]
  split <;> simp [*]

theorem without_without (g : Graph) (a b : List NodeId) :
    (g.without a).without b = g.without (a ++ b) := by
  refine Table.ext_entries ?_
  simp only [without, Table.mapValues, Table.filter, List.filter_map, List.map_map,
    List.filter_filter, Function.comp_def, List.contains_append, Bool.not_or]
  simp only [Bool.and_comm]

theorem mem_emptyDecisions :
    id ∈ g.emptyDecisions ↔ id ∈ g ∧ NodeId.isDecision id = true ∧ g.edges id = [] := by
  simp only [emptyDecisions, List.mem_map, List.mem_filter, Bool.and_eq_true, List.isEmpty_iff]
  constructor
  · rintro ⟨⟨id, es⟩, ⟨hentry, hdecision, rfl⟩, rfl⟩
    have hfind := Table.mem_entries_iff.mp hentry
    exact ⟨Table.mem_of_find? hfind, hdecision, by simp [edges, Table.findD, hfind]⟩
  · rintro ⟨hmem, hdecision, hedges⟩
    obtain ⟨es, hes⟩ := Table.mem_iff_find?.mp hmem
    obtain rfl : es = [] := by simpa [edges, Table.findD, hes] using hedges
    exact ⟨(id, []), ⟨Table.mem_entries_iff.mpr hes, hdecision, rfl⟩, rfl⟩

theorem dies_of_mem_emptyDecisions (h : id ∈ g.emptyDecisions) : Dies g id := by
  obtain ⟨hmem, hdecision, hedges⟩ := mem_emptyDecisions.mp h
  exact .intro hmem hdecision (by simp [hedges])

theorem dies_without_emptyDecisions :
    Dies (g.without g.emptyDecisions) id ↔ Dies g id ∧ id ∉ g.emptyDecisions := by
  constructor
  · intro h
    induction h with
    | @intro id hmem hdecision _ ih =>
      obtain ⟨hmem, hgone⟩ := mem_without.mp hmem
      refine ⟨.intro hmem hdecision fun e he => ?_, hgone⟩
      by_cases htarget : e.target ∈ g.emptyDecisions
      · exact dies_of_mem_emptyDecisions htarget
      · exact (ih e (mem_edges_without.mpr ⟨he, hgone, htarget⟩)).1
  · rintro ⟨h, hgone⟩
    induction h with
    | intro hmem hdecision _ ih =>
      refine .intro (mem_without.mpr ⟨hmem, hgone⟩) hdecision fun e he => ?_
      obtain ⟨he, _, htarget⟩ := mem_edges_without.mp he
      exact ih e he htarget

theorem not_dies_of_quiet (hquiet : g.emptyDecisions = []) : ¬ Dies g id := by
  intro h
  induction h with
  | @intro id hmem hdecision _ ih =>
    -- A dying decision would have an edge to another one, so it has none.
    have hedges : g.edges id = [] := List.eq_nil_iff_forall_not_mem.mpr fun e he => ih e he
    have : id ∈ g.emptyDecisions := mem_emptyDecisions.mpr ⟨hmem, hdecision, hedges⟩
    rw [hquiet] at this
    cases this

theorem nodup_emptyDecisions (g : Graph) : g.emptyDecisions.Nodup :=
  g.nodup.sublist (List.filter_sublist.map _)

theorem size_without_lt (hgone : g.emptyDecisions ≠ []) :
    (g.without g.emptyDecisions).size < g.size := by
  obtain ⟨id, hid⟩ := List.exists_mem_of_ne_nil _ hgone
  obtain ⟨es, hes⟩ := Table.mem_iff_find?.mp (mem_emptyDecisions.mp hid).1
  simp only [without, Table.size, Table.mapValues, Table.filter, List.length_map]
  refine List.length_filter_lt_length_iff_exists.mpr ⟨(id, es), Table.mem_entries_iff.mpr hes, ?_⟩
  simpa using hid

theorem pruneRounds_of_quiet (hquiet : g.emptyDecisions = []) (n : Nat) :
    pruneRounds n g = ⟨g, 0⟩ := by
  cases n with
  | zero => rfl
  | succ n => simp only [pruneRounds, hquiet, List.isEmpty_nil, if_true]

theorem pruneRounds_succ {n : Nat} (hgone : g.emptyDecisions ≠ []) :
    pruneRounds (n + 1) g =
      ⟨(pruneRounds n (g.without g.emptyDecisions)).graph,
        g.emptyDecisions.length + (pruneRounds n (g.without g.emptyDecisions)).removed⟩ := by
  simp only [pruneRounds, List.isEmpty_iff, hgone, if_false]

/-- With more rounds than keys, the rounds take away exactly the dying decisions. -/
theorem pruneRounds_eq_without {n : Nat} (hn : g.size < n) :
    ∃ gone : List NodeId, gone.Nodup ∧ (∀ id, id ∈ gone ↔ Dies g id) ∧
      pruneRounds n g = ⟨g.without gone, gone.length⟩ := by
  induction n generalizing g with
  | zero => cases hn
  | succ n ih =>
    by_cases hquiet : g.emptyDecisions = []
    · refine ⟨[], .nil, fun id => ?_, ?_⟩
      · simpa using not_dies_of_quiet hquiet
      · rw [pruneRounds_of_quiet hquiet, List.length_nil]
        congr
        exact Table.ext_entries (by simp [without, Table.mapValues, Table.filter])
    · have hsize : (g.without g.emptyDecisions).size < n :=
        lt_of_lt_of_le (size_without_lt hquiet) (Nat.le_of_lt_succ hn)
      obtain ⟨gone, hnodup, hgone, heq⟩ := ih hsize
      refine ⟨g.emptyDecisions ++ gone, ?_, fun id => ?_, ?_⟩
      · refine List.nodup_append'.mpr ⟨g.nodup_emptyDecisions, hnodup, fun id hid hid' => ?_⟩
        exact (dies_without_emptyDecisions.mp ((hgone id).mp hid')).2 hid
      · rw [List.mem_append, hgone, dies_without_emptyDecisions]
        by_cases hid : id ∈ g.emptyDecisions
        · simp [hid, dies_of_mem_emptyDecisions hid]
        · simp [hid]
      · rw [pruneRounds_succ hquiet, heq, without_without, List.length_append]

theorem mem_dropOutside : id ∈ g.dropOutside ↔ id ∈ g :=
  Table.mem_mapValues

theorem edges_dropOutside :
    g.dropOutside.edges id = (g.edges id).filter fun e => g.contains e.target := by
  unfold edges Table.findD dropOutside
  rw [Table.find?_mapValues]
  cases g.find? id <;> rfl

theorem exists_prune_eq (g : Graph) :
    ∃ gone : List NodeId, gone.Nodup ∧ (∀ id, id ∈ gone ↔ Dies g id) ∧
      pruneRounds (g.size + 1) g = ⟨g.without gone, gone.length⟩ ∧
      g.prune = ⟨(g.without gone).dropOutside, gone.length⟩ := by
  obtain ⟨gone, hnodup, hgone, hrounds⟩ := pruneRounds_eq_without (Nat.lt_succ_self g.size)
  refine ⟨gone, hnodup, hgone, hrounds, ?_⟩
  rw [prune, hrounds]

theorem mem_prune : id ∈ g.prune.graph ↔ id ∈ g ∧ ¬ Dies g id := by
  obtain ⟨gone, _, hgone, _, hprune⟩ := g.exists_prune_eq
  simp only [hprune, mem_dropOutside, mem_without, hgone]

theorem edges_prune (hid : id ∈ g.prune.graph) :
    g.prune.graph.edges id = (g.edges id).filter fun e => g.prune.graph.contains e.target := by
  obtain ⟨gone, _, _, _, hprune⟩ := g.exists_prune_eq
  have hkept : id ∉ gone := by
    rw [hprune, mem_dropOutside, mem_without] at hid
    exact hid.2
  rw [hprune, edges_dropOutside, edges_without, if_neg hkept, List.filter_filter]
  refine List.filter_congr fun e _ => ?_
  rw [Bool.eq_iff_iff]
  simp [Table.contains, mem_dropOutside, mem_without]

theorem mem_edges_prune {e : Edge} :
    e ∈ g.prune.graph.edges id ↔
      e ∈ g.edges id ∧ id ∈ g.prune.graph ∧ e.target ∈ g.prune.graph := by
  constructor
  · intro he
    have hid : id ∈ g.prune.graph := mem_of_mem_edges he
    rw [edges_prune hid, List.mem_filter, Table.contains, decide_eq_true_eq] at he
    exact ⟨he.1, hid, he.2⟩
  · rintro ⟨he, hid, htarget⟩
    rw [edges_prune hid, List.mem_filter, Table.contains, decide_eq_true_eq]
    exact ⟨he, htarget⟩

theorem function_mem_prune (hid : NodeId.isDecision id = false) : id ∈ g.prune.graph ↔ id ∈ g := by
  rw [mem_prune, and_iff_left_iff_imp]
  intro _ hdies
  rw [hdies.decision] at hid
  cases hid

theorem closed_prune (g : Graph) : g.prune.graph.Closed :=
  fun _ _ he => (mem_edges_prune.mp he).2.2

theorem LeadsToFunction.not_dies (h : LeadsToFunction g id) : ¬ Dies g id := by
  induction h with
  | call hedge _ hfunction =>
    intro hdies
    rw [(hdies.target hedge).decision] at hfunction
    cases hfunction
  | nested hedge _ _ ih => exact fun hdies => ih (hdies.target hedge)

theorem leadsToFunction_of_not_dies (hclosed : g.Closed) (hranked : g.Ranked) (hid : id ∈ g)
    (hdecision : NodeId.isDecision id = true) (h : ¬ Dies g id) : LeadsToFunction g id := by
  obtain ⟨rank, hrank⟩ := hranked
  have hbound : ∀ id ∈ g, rank id ≤ g.keys.toFinset.sup rank := fun id hid =>
    Finset.le_sup (List.mem_toFinset.mpr hid)
  -- The edges between decisions climb towards the highest rank, so they end in a function.
  induction hn : g.keys.toFinset.sup rank - rank id using Nat.strongRecOn generalizing id with
  | _ n ih =>
    subst hn
    have hedge : ∃ e ∈ g.edges id, ¬ Dies g e.target := by
      by_contra hall
      exact h (.intro hid hdecision (by simpa using hall))
    obtain ⟨e, he, htarget⟩ := hedge
    have hmem := hclosed id e he
    cases hkind : NodeId.isDecision e.target with
    | false => exact .call he hmem hkind
    | true =>
      have hlt := hrank id hdecision e he hkind
      have hle := hbound e.target hmem
      exact .nested he hkind (ih _ (by omega) hmem hkind htarget rfl)

theorem leadsToFunction_iff (hclosed : g.Closed) (hranked : g.Ranked) (hid : id ∈ g)
    (hdecision : NodeId.isDecision id = true) : LeadsToFunction g id ↔ id ∈ g.prune.graph := by
  rw [mem_prune, and_iff_right hid]
  exact ⟨LeadsToFunction.not_dies, leadsToFunction_of_not_dies hclosed hranked hid hdecision⟩

theorem LeadsToFunction.prune (h : LeadsToFunction g id) : LeadsToFunction g.prune.graph id := by
  induction h with
  | @call id e hedge hmem hfunction =>
    have hleft : e.target ∈ g.prune.graph := (function_mem_prune hfunction).mpr hmem
    have hid : id ∈ g.prune.graph :=
      mem_prune.mpr ⟨mem_of_mem_edges hedge, (LeadsToFunction.call hedge hmem hfunction).not_dies⟩
    exact .call (mem_edges_prune.mpr ⟨hedge, hid, hleft⟩) hleft hfunction
  | @nested id e hedge hdecision hbelow ih =>
    have hleft : e.target ∈ g.prune.graph := by
      cases ih with
      | call hedge' => exact mem_of_mem_edges hedge'
      | nested hedge' => exact mem_of_mem_edges hedge'
    have hid : id ∈ g.prune.graph :=
      mem_prune.mpr ⟨mem_of_mem_edges hedge,
        (LeadsToFunction.nested hedge hdecision hbelow).not_dies⟩
    exact .nested (mem_edges_prune.mpr ⟨hedge, hid, hleft⟩) hdecision ih

theorem mapValues_filter_eq {g : Graph} {p : Edge → Bool} (h : ∀ id, ∀ e ∈ g.edges id, p e = true) :
    g.mapValues (fun _ es => es.filter p) = g := by
  refine Table.ext_entries ?_
  have hkept : ∀ entry ∈ g.entries, (entry.1, entry.2.filter p) = entry := by
    rintro ⟨id, es⟩ hentry
    have hall : ∀ e ∈ es, p e = true := fun e he => h id e (mem_edges_iff.mpr ⟨es, hentry, he⟩)
    rw [List.filter_eq_self.mpr hall]
  exact (List.map_congr_left hkept).trans (List.map_id _)

theorem dropDangling_eq (g : Graph)
    (h : ∀ id, ∀ e ∈ g.edges id, NodeId.isDecision e.target = true ∨ e.target ∈ g) :
    g.dropDangling = g :=
  mapValues_filter_eq fun id e he => by
    rw [Bool.or_eq_true, Table.contains, decide_eq_true_eq]
    exact h id e he

theorem Closed.dropDangling_eq (hclosed : g.Closed) : g.dropDangling = g :=
  g.dropDangling_eq fun id e he => .inr (hclosed id e he)

end FlowAtlas.Graph
