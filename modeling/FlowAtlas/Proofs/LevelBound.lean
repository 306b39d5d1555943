import FlowAtlas.Proofs.ChainLevels
import FlowAtlas.Proofs.ReachedLevels
import Mathlib

/-! How deep levels get where a root leads into a cycle. A pass lowers the deepest node by no more than one
level for each node whose depth can change, which a root's and an unreached node's cannot. Some graphs use
this up: in them each pass runs once around a cycle. -/

namespace FlowAtlas.Graph
variable {g : Graph} {c id root : NodeId} {k n : Nat}

structure Still (g : Graph) (id : NodeId) : Prop where
  mem : id ∈ g.nodeIds
  unreached : ∀ c, g.Calls c id → ¬ g.Reached c

theorem IsRoot.still (h : g.IsRoot id) : g.Still id :=
  ⟨h.mem, fun c hcall _ => h.uncalled c hcall⟩

theorem IsRoot.unlooped (h : g.IsRoot id) : g.Unlooped id := by
  intro c hc hcycle
  obtain rfl | ⟨b, _, hcall⟩ := hc.cases_tail
  · obtain ⟨b, _, hcall⟩ := Relation.TransGen.tail'_iff.mp hcycle
    exact h.uncalled b hcall
  · exact h.uncalled b hcall

theorem still_of_not_reached (hid : id ∈ g.nodeIds) (h : ¬ g.Reached id) : g.Still id := by
  refine ⟨hid, fun c hcall hreached => h ?_⟩
  obtain ⟨root, hroot, hwalk⟩ := hreached
  exact ⟨root, hroot, hwalk.tail hcall.2⟩

section Still
variable {still : List NodeId} (hstill : ∀ id ∈ still, g.Still id)
include hstill

theorem still_add_le (hnodup : still.Nodup) :
    (g.nodeIds.filter (· ∉ still)).length + still.length ≤ g.nodeIds.length := by
  have hapart : (g.nodeIds.filter (· ∉ still)).Disjoint still := by
    intro id hrest hid
    exact of_decide_eq_true (List.mem_filter.mp hrest).2 hid
  have hids : g.nodeIds.Nodup := nodup_sortTexts_eraseDups _
  have hsubset : g.nodeIds.filter (· ∉ still) ++ still ⊆ g.nodeIds := by
    intro id hid
    rcases List.mem_append.mp hid with hid | hid
    · exact (List.mem_filter.mp hid).1
    · exact (hstill id hid).mem
  rw [← List.length_append]
  exact (List.subperm_of_subset ((hids.filter _).append hnodup hapart) hsubset).length_le

end Still

namespace Depths
variable {d : Depths}

def AtMost (d : Depths) (k : Nat) : Prop :=
  ∀ id n, d.depth? id = some n → n ≤ k

theorem AtMost.raise (h : d.AtMost k) (id : NodeId) (callers : List NodeId) :
    (d.raise id callers).AtMost (k + 1) := by
  have hkept : d.AtMost (k + 1) := fun x m hm => Nat.le_succ_of_le (h x m hm)
  obtain ⟨_, heq⟩ | ⟨n, hn, _, heq⟩ := d.raise_cases id callers
  · rwa [heq]
  · intro x m hm
    rw [heq, depth?_insert] at hm
    by_cases hx : x = id
    · rw [if_pos hx] at hm
      cases hm
      obtain ⟨c, _, m, hdepth, rfl⟩ := exists_of_candidate? hn
      exact Nat.succ_le_succ (h c m hdepth)
    · rw [if_neg hx] at hm
      exact hkept x m hm

theorem Sound.raise_still (h : d.Sound g) (hstill : g.Still id) :
    d.raise id (g.callers id) = d := by
  obtain ⟨_, heq⟩ | ⟨n, hn, _, _⟩ := d.raise_cases id (g.callers id)
  · exact heq
  · obtain ⟨c, hc, m, hdepth, _⟩ := exists_of_candidate? hn
    obtain ⟨root, hroot, hchain⟩ := h c m hdepth
    exact absurd ⟨root, hroot, hchain.reaches⟩ (hstill.unreached c (mem_callers.mp hc))

section Still
variable {still : List NodeId} (hstill : ∀ id ∈ still, g.Still id)
include hstill

theorem atMost_pass (hsound : d.Sound g) (h : d.AtMost k) :
    (d.pass g.rows).AtMost (k + (g.nodeIds.filter (· ∉ still)).length) := by
  unfold rows
  generalize g.nodeIds = ids
  induction ids generalizing d k with
  | nil => exact h
  | cons id rest ih =>
    have hraised : (d.raise id (g.callers id)).Sound g := sound_raise hsound id
    by_cases hid : id ∈ still
    · rw [List.filter_cons_of_neg (by simpa using hid)]
      apply ih hraised
      rwa [hsound.raise_still (hstill id hid)]
    · rw [List.filter_cons_of_pos (by simpa using hid), List.length_cons, ← Nat.add_assoc,
        Nat.add_right_comm]
      exact ih hraised (h.raise id (g.callers id))

theorem atMost_depthsAfter (n : Nat) :
    (g.depthsAfter n).AtMost (n * (g.nodeIds.filter (· ∉ still)).length) := by
  induction n with
  | zero =>
    intro id m hm
    rw [(depth?_start.mp hm).2, Nat.zero_mul]
  | succ n ih =>
    rw [depthsAfter_succ, Nat.succ_mul]
    exact atMost_pass hstill (g.sound_depthsAfter n) ih

theorem depth_le (hnodup : still.Nodup)
    (h : (g.relaxation g.nodeIds).depths.depth? id = some n) :
    n ≤ (g.nodeIds.length + 2) * (g.nodeIds.length - still.length) := by
  rw [depths_relaxation] at h
  have hbound := atMost_depthsAfter hstill _ id n h
  have hcount := still_add_le hstill hnodup
  exact hbound.trans (Nat.mul_le_mul_left _ (Nat.le_sub_of_add_le hcount))

end Still

/-- In one pass a chain of calls is followed for as long as its ids are in order. -/
theorem AtLeast.pass_chain {d : Depths} {chain ids : List NodeId} (h : d.AtLeast c n)
    (hsub : chain.Sublist ids) (hchain : (c :: chain).IsChain g.Calls)
    (hlast : (c :: chain).getLast? = some id) :
    (d.pass (ids.map fun id => (id, g.callers id))).AtLeast id (n + chain.length) := by
  induction hsub generalizing d c n with
  | slnil =>
    cases hlast
    exact h
  | @cons chain ids a _ ih => exact ih (h.raise a _) hchain hlast
  | @cons_cons chain ids a _ ih =>
    obtain ⟨hcall, hrest⟩ := List.isChain_cons_cons.mp hchain
    have hraised : (d.raise a (g.callers a)).AtLeast a (n + 1) := atLeast_raise (mem_callers.mpr hcall) h
    rw [List.length_cons, Nat.add_comm chain.length, ← Nat.add_assoc]
    exact ih hraised hrest (by rwa [List.getLast?_cons_cons] at hlast)

end Depths

theorem level_le {level : Nat} (h : (g.levels g.nodeIds).find? id = some level) :
    level ≤ (g.nodeIds.length + 2) * (g.nodeIds.length - 1) := by
  have hid : id ∈ g.nodeIds := mem_levels.mp (Table.mem_of_find? h)
  by_cases hreached : g.Reached id
  · have hdepth := reached_level_iff.mp ⟨hreached, h⟩
    obtain ⟨root, hroot, _⟩ := hreached
    exact Depths.depth_le (List.forall_mem_singleton.mpr hroot.still) (List.nodup_singleton root) hdepth
  · rw [find?_levels_of_not_reached hid hreached] at h
    cases h
    obtain ⟨_, heq⟩ | ⟨deepest, ⟨⟨x, hx, hdeepest⟩, _⟩, heq⟩ := g.fallback_cases
    · rw [heq]
      exact Nat.zero_le _
    · -- The level of the rest is one more, which the unreached node itself makes up for.
      have hdepth := reached_level_iff.mp ⟨hx, hdeepest⟩
      obtain ⟨root, hroot, _⟩ := hx
      have hne : root ≠ id := fun heq => hreached ⟨root, hroot, heq ▸ .refl⟩
      have hstill : ∀ x ∈ [root, id], g.Still x := List.forall_mem_cons.mpr
        ⟨hroot.still, List.forall_mem_singleton.mpr (still_of_not_reached hid hreached)⟩
      have hnodup : [root, id].Nodup := List.nodup_cons.mpr
        ⟨by rwa [List.mem_singleton], List.nodup_singleton id⟩
      have hpair : 2 ≤ g.nodeIds.length := Nat.le_of_add_left_le (still_add_le hstill hnodup)
      have hbound : deepest ≤ (g.nodeIds.length + 2) * (g.nodeIds.length - 2) :=
        Depths.depth_le hstill hnodup hdepth
      obtain ⟨m, hm⟩ := Nat.exists_eq_add_of_le' hpair
      rw [hm, Nat.add_sub_cancel] at hbound
      rw [heq, hm, Nat.add_succ_sub_one, Nat.mul_succ]
      omega

def spiralId (i : Nat) : NodeId :=
  String.ofList (List.replicate i 'a')

/-- `n` nodes in a row, the last of which calls the second. -/
def spiral (n : Nat) : Graph :=
  .ofList ((List.range n).map fun i =>
    (spiralId i, [{ target := spiralId (if i + 1 = n then 1 else i + 1) }]))

section Spiral
variable {i j : Nat}

theorem spiralId_inj : spiralId i = spiralId j ↔ i = j := by
  simp [spiralId, String.ofList_inj]

theorem spiralId_le (h : i ≤ j) : spiralId i ≤ spiralId j := by
  obtain ⟨m, rfl⟩ := Nat.exists_eq_add_of_le h
  have hlonger : (spiralId (i + m)).toList = (spiralId i).toList ++ List.replicate m 'a' := by
    unfold spiralId
    rw [String.toList_ofList, String.toList_ofList, List.replicate_add]
  have hle := @List.le_append_left Char _ _ (spiralId i).toList (List.replicate m 'a')
  rw [← hlonger] at hle
  exact hle

theorem nodup_spiralIds (n : Nat) : ((List.range n).map spiralId).Nodup :=
  List.nodup_range.map fun _ _ => spiralId_inj.mp

theorem mem_spiral : id ∈ spiral n ↔ id ∈ (List.range n).map spiralId := by
  have hfst : ∀ f : Nat → List Edge,
      ((List.range n).map fun i => (spiralId i, f i)).map Prod.fst = (List.range n).map spiralId := by
    intro f
    rw [List.map_map]
    rfl
  rw [Table.mem_iff, spiral, Table.keys_ofList, hfst]
  rw [hfst]
  exact nodup_spiralIds n

theorem edges_spiral (hi : i < n) :
    (spiral n).edges (spiralId i) = [{ target := spiralId (if i + 1 = n then 1 else i + 1) }] := by
  have hfound : (spiral n).find? (spiralId i) =
      some [{ target := spiralId (if i + 1 = n then 1 else i + 1) }] := by
    apply Table.find?_ofList_of_unique
    · exact List.mem_map.mpr ⟨i, List.mem_range.mpr hi, rfl⟩
    · intro es hes
      obtain ⟨j, _, heq⟩ := List.mem_map.mp hes
      obtain ⟨hid, rfl⟩ := Prod.mk.inj heq
      rw [spiralId_inj.mp hid]
  rw [edges, Table.findD, hfound, Option.getD_some]

theorem leads_spiral : (spiral n).Leads c id ↔
    ∃ i < n, c = spiralId i ∧ id = spiralId (if i + 1 = n then 1 else i + 1) := by
  constructor
  · intro h
    obtain ⟨e, he, rfl⟩ := h
    obtain ⟨i, hi, rfl⟩ := List.mem_map.mp (mem_spiral.mp (mem_of_mem_edges he))
    rw [edges_spiral (List.mem_range.mp hi)] at he
    exact ⟨i, List.mem_range.mp hi, rfl, congrArg Edge.target (List.mem_singleton.mp he)⟩
  · intro h
    obtain ⟨i, hi, rfl, rfl⟩ := h
    unfold Leads
    rw [edges_spiral hi]
    exact ⟨_, List.mem_singleton_self _, rfl⟩

theorem nodeIds_spiral (hn : 2 ≤ n) : (spiral n).nodeIds = (List.range n).map spiralId := by
  have hmem : ∀ id, id ∈ (spiral n).nodeIds ↔ id ∈ (List.range n).map spiralId := by
    intro id
    rw [Graph.mem_nodeIds, mem_mentioned, mem_spiral]
    refine or_iff_left_of_imp fun h => ?_
    obtain ⟨c, hleads⟩ := h
    obtain ⟨i, hi, _, rfl⟩ := leads_spiral.mp hleads
    apply List.mem_map_of_mem
    rw [List.mem_range]
    split <;> omega
  have hsorted : ((List.range n).map spiralId).Pairwise (· ≤ ·) :=
    List.pairwise_map.mpr (List.pairwise_lt_range.imp fun h => spiralId_le h.le)
  have hperm := (List.perm_ext_iff_of_nodup (nodup_sortTexts_eraseDups _) (nodup_spiralIds n)).mpr hmem
  exact hperm.eq_of_pairwise (fun _ _ _ _ => String.le_antisymm) (pairwise_sortTexts _) hsorted

theorem calls_spiral (hi : i + 1 < n) : (spiral n).Calls (spiralId i) (spiralId (i + 1)) := by
  refine ⟨fun heq => Nat.succ_ne_self i (spiralId_inj.mp heq).symm, leads_spiral.mpr ?_⟩
  exact ⟨i, Nat.lt_of_succ_lt hi, rfl, by rw [if_neg (Nat.ne_of_lt hi)]⟩

theorem calls_back_spiral (hn : 2 ≤ n) : (spiral (n + 1)).Calls (spiralId n) (spiralId 1) := by
  refine ⟨fun heq => Nat.ne_of_gt hn (spiralId_inj.mp heq), leads_spiral.mpr ?_⟩
  exact ⟨n, Nat.lt_succ_self n, rfl, by rw [if_pos rfl]⟩

theorem isRoot_spiral (hn : 2 ≤ n) : (spiral n).IsRoot (spiralId 0) := by
  constructor
  · rw [nodeIds_spiral hn]
    exact List.mem_map_of_mem (List.mem_range.mpr (Nat.zero_lt_of_lt hn))
  · intro c hcall
    obtain ⟨i, _, _, heq⟩ := leads_spiral.mp hcall.2
    have hzero := spiralId_inj.mp heq
    split at hzero <;> omega

/-- From the last node, as from the root, the chain of calls runs through all others in order. -/
theorem pass_spiral {d : Depths} {m : Nat} (hn : 2 ≤ n)
    (hc : (spiral (n + 1)).Calls c (spiralId 1)) (h : d.AtLeast c m) :
    (d.pass (spiral (n + 1)).rows).AtLeast (spiralId n) (m + n) := by
  have hids : (spiral (n + 1)).nodeIds = spiralId 0 :: (List.range' 1 n).map spiralId := by
    rw [nodeIds_spiral (Nat.le_succ_of_le hn), List.range_eq_range', List.range'_succ, List.map_cons]
  have hsteps : ((List.range' 1 n).map spiralId).IsChain (spiral (n + 1)).Calls := by
    rw [List.isChain_map]
    refine (List.isChain_range' 1 n 1).imp_of_mem_imp fun i j _ hj heq => ?_
    subst heq
    rw [List.mem_range'_1] at hj
    exact calls_spiral (by omega)
  have hne : n ≠ 0 := Nat.ne_zero_of_lt hn
  have hchain : (c :: (List.range' 1 n).map spiralId).IsChain (spiral (n + 1)).Calls := by
    refine List.isChain_cons.mpr ⟨fun a ha => ?_, hsteps⟩
    rw [List.head?_map, List.head?_range', if_neg hne] at ha
    cases ha
    exact hc
  have hlast : (c :: (List.range' 1 n).map spiralId).getLast? = some (spiralId n) := by
    rw [List.getLast?_cons, List.getLast?_map, List.getLast?_range', if_neg hne,
      Nat.add_sub_cancel_left]
    rfl
  have hpassed := h.pass_chain (List.sublist_cons_self (spiralId 0) _) hchain hlast
  rw [List.length_map, List.length_range', ← hids] at hpassed
  exact hpassed

theorem depthsAfter_spiral (hn : 2 ≤ n) (k : Nat) :
    ((spiral (n + 1)).depthsAfter (k + 1)).AtLeast (spiralId n) ((k + 1) * n) := by
  induction k with
  | zero =>
    have hroot : ((spiral (n + 1)).depthsAfter 0).AtLeast (spiralId 0) 0 :=
      ⟨0, depth?_start.mpr ⟨isRoot_spiral (Nat.le_succ_of_le hn), rfl⟩, le_refl 0⟩
    have hpassed := pass_spiral hn (calls_spiral (by omega)) hroot
    rw [depthsAfter_succ, Nat.succ_mul, Nat.zero_mul]
    exact hpassed
  | succ k ih =>
    rw [depthsAfter_succ, Nat.succ_mul]
    exact pass_spiral hn (calls_back_spiral hn) ih

theorem level_spiral (hn : 2 ≤ n) :
    ((spiral (n + 1)).levels (spiral (n + 1)).nodeIds).find? (spiralId n) = some ((n + 3) * n) := by
  have hlength : (spiral (n + 1)).nodeIds.length = n + 1 := by
    rw [nodeIds_spiral (Nat.le_succ_of_le hn), List.length_map, List.length_range]
  have hdeep := depthsAfter_spiral hn (n + 2)
  have hrounds := (spiral (n + 1)).depths_relaxation
  rw [hlength] at hrounds
  rw [← hrounds] at hdeep
  obtain ⟨level, hlevel, hle⟩ := hdeep
  have hbound := level_le (find?_levels hlevel)
  rw [hlength, Nat.add_sub_cancel] at hbound
  rw [find?_levels hlevel, Nat.le_antisymm hbound hle]

end Spiral

theorem level_lt_of_unlooped {level : Nat} (hid : id ∈ g.nodeIds) (h : g.Unlooped id)
    (hlevel : (g.levels g.nodeIds).find? id = some level) : level < g.nodeIds.length := by
  obtain ⟨level', hlevel', ⟨top, hchain⟩, _⟩ := level_of_unlooped hid h
  obtain rfl := Option.some.inj (hlevel'.symm.trans hlevel)
  obtain ⟨path, hpath, hlength, habove⟩ := h.simplePath hchain
  have hids : path ⊆ g.nodeIds := by
    intro c hc
    obtain rfl | ⟨b, hcall, _⟩ := (habove c hc).cases_head
    · exact hid
    · exact hcall.mem_nodeIds.1
  have hle := (List.subperm_of_subset hpath.nodup hids).length_le
  rwa [hlength] at hle

/-- Each of the passes, which are two more than the ids, adds at most one level for every id but one, so that
no level exceeds the product, and from three ids on there are graphs that reach it. The level of a node that
no cycle is above, or runs through, is less than the number of ids. -/
theorem levels_bounded :
    (∀ (g : Graph) (id : NodeId) (level : Nat), (g.levels g.nodeIds).find? id = some level →
      level ≤ (g.nodeIds.length + 2) * (g.nodeIds.length - 1) ∧
      (g.Unlooped id → level < g.nodeIds.length)) ∧
    ∀ n, 3 ≤ n → ∃ (g : Graph) (id : NodeId), g.nodeIds.length = n ∧
      (g.levels g.nodeIds).find? id = some ((n + 2) * (n - 1)) := by
  constructor
  · intro g id level h
    have hid : id ∈ g.nodeIds := mem_levels.mp (Table.mem_of_find? h)
    exact ⟨level_le h, fun hunlooped => level_lt_of_unlooped hid hunlooped h⟩
  · intro n hn
    obtain ⟨m, rfl⟩ := Nat.exists_eq_add_of_le' (Nat.one_le_of_lt hn)
    refine ⟨spiral (m + 1), spiralId m, ?_, level_spiral (Nat.le_of_succ_le_succ hn)⟩
    rw [nodeIds_spiral (Nat.le_of_succ_le hn), List.length_map, List.length_range]

def loopedGraph : Graph :=
  .ofList [("a", [{ target := "b" }]), ("b", [{ target := "c" }]), ("c", [{ target := "b" }])]

theorem levels_bounded_loopedGraph :
    (loopedGraph.levels loopedGraph.nodeIds).find? "c" = some 10 ∧ 10 ≤ (3 + 2) * (3 - 1) ∧
    (loopedGraph.levels loopedGraph.nodeIds).find? "a" = some 0 ∧ loopedGraph.Unlooped "a" ∧ 0 < 3 ∧
    3 ≤ 3 ∧ ∃ (g : Graph) (id : NodeId), g.nodeIds.length = 3 ∧
      (g.levels g.nodeIds).find? id = some ((3 + 2) * (3 - 1)) := by
  have hids : loopedGraph.nodeIds = ["a", "b", "c"] := by cbv
  have hc : (loopedGraph.levels loopedGraph.nodeIds).find? "c" = some 10 := by cbv
  have ha : (loopedGraph.levels loopedGraph.nodeIds).find? "a" = some 0 := by cbv
  have hcallers : loopedGraph.callers "a" = [] := by cbv
  have hunlooped : loopedGraph.Unlooped "a" :=
    IsRoot.unlooped (isRoot_iff.mpr ⟨hids ▸ List.mem_cons_self, hcallers⟩)
  have hbound := levels_bounded.1 loopedGraph
  rw [hids] at hbound hc ha
  rw [hids]
  exact ⟨hc, (hbound "c" 10 hc).1, ha, hunlooped, (hbound "a" 0 ha).2 hunlooped, le_refl 3,
    levels_bounded.2 3 (le_refl 3)⟩

/-- The number of passes is no bound: in five of them the cycle takes its last node down two levels each. -/
theorem level_gt_passes : loopedGraph.nodeIds.length + 2 = 5 ∧
    (loopedGraph.levels loopedGraph.nodeIds).find? "c" = some 10 := by
  constructor <;> cbv

end FlowAtlas.Graph
