import FlowAtlas.Proofs.Relaxation
import Mathlib.Order.Bounds.Defs

/-! Levels in the presence of cycles. What a root reaches lies at least as deep as any path to it is long. All
else lies together, one level below the deepest of these, and a warning says whether there is any. -/

namespace FlowAtlas.Graph
variable {g : Graph} {x : NodeId} {n : Nat}

theorem reached_level_iff :
    g.Reached x ∧ (g.levels g.nodeIds).find? x = some n ↔
      (g.relaxation g.nodeIds).depths.depth? x = some n := by
  constructor
  · intro h
    obtain ⟨hreached, hlevel⟩ := h
    obtain ⟨m, hm⟩ := exists_depth?_iff.mpr hreached
    obtain rfl := Option.some.inj ((find?_levels hm).symm.trans hlevel)
    exact hm
  · intro h
    exact ⟨exists_depth?_iff.mp ⟨n, h⟩, find?_levels h⟩

theorem mem_filterMap_values {d : Depths} : n ∈ d.values.filterMap id ↔ ∃ x, d.depth? x = some n := by
  simp only [Table.values, List.mem_filterMap, List.mem_map, Depths.depth?, Option.join_eq_some_iff,
    ← Table.mem_entries_iff]
  constructor
  · intro h
    obtain ⟨_, ⟨⟨x, depth⟩, hentry, rfl⟩, hdepth⟩ := h
    exact ⟨x, hdepth ▸ hentry⟩
  · intro h
    obtain ⟨x, hentry⟩ := h
    exact ⟨some n, ⟨(x, some n), hentry, rfl⟩, rfl⟩

theorem fallback_cases (g : Graph) :
    (∀ x, ¬ g.Reached x) ∧ (g.relaxation g.nodeIds).fallback = 0 ∨
      ∃ deepest, IsGreatest {n | ∃ x, g.Reached x ∧ (g.levels g.nodeIds).find? x = some n} deepest ∧
        (g.relaxation g.nodeIds).fallback = deepest + 1 := by
  simp only [reached_level_iff, ← mem_filterMap_values]
  unfold Relaxation.fallback
  cases hmax : ((g.relaxation g.nodeIds).depths.values.filterMap id).max? with
  | none =>
    refine .inl ⟨fun x hreached => ?_, rfl⟩
    obtain ⟨n, hn⟩ := exists_depth?_iff.mpr hreached
    have hmem := mem_filterMap_values.mpr ⟨x, hn⟩
    rw [List.max?_eq_none_iff.mp hmax] at hmem
    cases hmem
  | some deepest =>
    obtain ⟨hmem, hle⟩ := List.max?_eq_some_iff.mp hmax
    exact .inr ⟨deepest, ⟨hmem, hle⟩, rfl⟩

theorem mem_unresolved :
    x ∈ (g.relaxation g.nodeIds).unresolved ↔ x ∈ g.nodeIds ∧ ¬ g.Reached x := by
  rw [← find?_depths_eq_some_none_iff, ← Table.mem_entries_iff]
  simp only [Relaxation.unresolved, List.mem_map, List.mem_filter]
  constructor
  · intro h
    obtain ⟨⟨y, depth⟩, ⟨hmem, hnone⟩, rfl⟩ := h
    obtain rfl : depth = none := Option.isNone_iff_eq_none.mp hnone
    exact hmem
  · intro h
    exact ⟨(x, none), ⟨h, rfl⟩, rfl⟩

theorem warns_iff {r : Relaxation} {verbose : Bool} :
    (∃ line ∈ r.log verbose, "HierarchyLeveler Warning".toList <+: line.toList) ↔
      r.unresolved ≠ [] := by
  have hwarning : ∀ rest : String,
      "HierarchyLeveler Warning".toList <+: ("HierarchyLeveler Warning: " ++ rest).toList := by
    intro rest
    rw [String.toList_append]
    exact List.IsPrefix.trans (by decide) (List.prefix_append _ _)
  have hfinished : ∀ rest : String, ¬ "HierarchyLeveler Warning".toList <+:
      ("HierarchyLeveler: Relaxation finished after " ++ rest).toList := by
    intro rest h
    rw [String.toList_append] at h
    have hshort := List.prefix_of_prefix_length_le h (List.prefix_append _ _) (by decide)
    revert hshort
    decide
  unfold Relaxation.log
  simp only [List.isEmpty_iff, List.mem_append, String.append_assoc]
  constructor
  · intro h hnone
    obtain ⟨line, hline, hprefix⟩ := h
    rw [if_pos hnone] at hline
    cases verbose with
    | false => simp at hline
    | true =>
      obtain rfl : line = _ := by simpa using hline
      exact hfinished _ hprefix
  · intro hsome
    rw [if_neg hsome]
    exact ⟨_, .inr (List.mem_singleton_self _), hwarning _⟩

/-- Every id has one level. That of a node which a root reaches is no less than the length of any simple path
from a root to it. All other nodes share one level, one below the deepest of these, or the first if there are
none of these. The warning is given exactly if there are other nodes. -/
theorem levels_reached (g : Graph) :
    (g.levels g.nodeIds).keys = g.nodeIds ∧
    (∀ root path id, g.IsRoot root → g.SimplePath root id path →
      ∃ level, (g.levels g.nodeIds).find? id = some level ∧ path.length ≤ level + 1) ∧
    (∃ rest, (∀ id ∈ g.nodeIds, ¬ g.Reached id → (g.levels g.nodeIds).find? id = some rest) ∧
      ((∀ id, ¬ g.Reached id) ∧ rest = 0 ∨
        ∃ deepest, IsGreatest {n | ∃ id, g.Reached id ∧ (g.levels g.nodeIds).find? id = some n}
          deepest ∧ rest = deepest + 1)) ∧
    ∀ verbose, (∃ line ∈ (g.relaxation g.nodeIds).log verbose,
      "HierarchyLeveler Warning".toList <+: line.toList) ↔ ∃ id ∈ g.nodeIds, ¬ g.Reached id := by
  refine ⟨?_, ?_, ?_, ?_⟩
  · rw [keys_levels, sortTexts_eraseDups_nodeIds]
  · intro root path id hroot hpath
    obtain ⟨n, hlength, level, hlevel, hle⟩ := hpath.atLeast hroot
    exact ⟨level, find?_levels hlevel, by omega⟩
  · exact ⟨(g.relaxation g.nodeIds).fallback, fun _ => find?_levels_of_not_reached, g.fallback_cases⟩
  · intro verbose
    rw [warns_iff, ← List.isEmpty_eq_false_iff, List.isEmpty_eq_false_iff_exists_mem]
    simp only [mem_unresolved]

example :
    let g : Graph := .ofList [("root", [{ target := "leaf" }]), ("x", [{ target := "y" }]),
      ("y", [{ target := "x" }])]
    (g.levels g.nodeIds).entries = [("leaf", 1), ("root", 0), ("x", 2), ("y", 2)] := by
  cbv

end FlowAtlas.Graph
