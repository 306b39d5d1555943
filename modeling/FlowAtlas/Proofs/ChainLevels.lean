import FlowAtlas.Proofs.Relaxation
import Mathlib.Order.Bounds.Defs

/-! Levels where no cycle comes in. The level of a node is the length of the longest chain of callers above it,
whatever cycles there are elsewhere. Without any cycle the levels rise along every call, and the passes end
by themselves. -/

namespace FlowAtlas.Graph
variable {g : Graph} {a b id : NodeId} {m n : Nat}

theorem level_of_unlooped (hid : id ∈ g.nodeIds) (h : g.Unlooped id) :
    ∃ level, (g.levels g.nodeIds).find? id = some level ∧
      IsGreatest {n | ∃ top, g.Descends top n id} level := by
  have hfound : ∀ top n, g.Descends top n id →
      (g.relaxation g.nodeIds).depths.AtLeast id n := by
    intro top n hchain
    obtain ⟨root, m, hroot, hm, hlonger⟩ := h.exists_root hid hchain
    obtain ⟨level, hlevel, hle⟩ := atLeast_relaxation hroot hlonger (h.chain_le hlonger)
    exact ⟨level, hlevel, hm.trans hle⟩
  obtain ⟨level, hlevel, _⟩ := hfound id 0 .refl
  obtain ⟨root, _, hchain⟩ := exists_chain_of_depth? hlevel
  refine ⟨level, find?_levels hlevel, ⟨root, hchain⟩, ?_⟩
  intro n hn
  obtain ⟨top, hchain⟩ := hn
  obtain ⟨level', hlevel', hle⟩ := hfound top n hchain
  obtain rfl := Option.some.inj (hlevel.symm.trans hlevel')
  exact hle

section Acyclic
variable (hacyclic : ∀ id, ¬ Relation.TransGen g.Calls id id)
include hacyclic

theorem level_of_calls (hcall : g.Calls a b) :
    ∃ m n, (g.levels g.nodeIds).find? a = some m ∧ (g.levels g.nodeIds).find? b = some n ∧ m < n := by
  obtain ⟨ha, hb⟩ := hcall.mem_nodeIds
  obtain ⟨m, hm, ⟨top, hchain⟩, _⟩ := level_of_unlooped ha (unlooped_of_acyclic hacyclic a)
  obtain ⟨n, hn, _, hgreatest⟩ := level_of_unlooped hb (unlooped_of_acyclic hacyclic b)
  exact ⟨m, n, hm, hn, hgreatest ⟨top, hchain.call hcall⟩⟩

theorem level_of_caller (hcall : g.Calls a id) :
    ∃ c level, g.Calls c id ∧ (g.levels g.nodeIds).find? c = some level ∧
      (g.levels g.nodeIds).find? id = some (level + 1) := by
  obtain ⟨n, hn, ⟨top, hchain⟩, hgreatest⟩ :=
    level_of_unlooped hcall.mem_nodeIds.2 (unlooped_of_acyclic hacyclic id)
  have hone : 1 ≤ n := hgreatest ⟨a, .call .refl hcall⟩
  cases hchain with
  | refl => cases hone
  | @call k c _ above hlast =>
    obtain ⟨level, hlevel, _, hle⟩ :=
      level_of_unlooped hlast.mem_nodeIds.1 (unlooped_of_acyclic hacyclic c)
    obtain ⟨level', n, hlevel', hn', hlt⟩ := level_of_calls hacyclic hlast
    obtain rfl := Option.some.inj (hlevel.symm.trans hlevel')
    obtain rfl := Option.some.inj (hn.symm.trans hn')
    have hk : k ≤ level := hle ⟨top, above⟩
    have heq : k = level := Nat.le_antisymm hk (Nat.le_of_lt_succ hlt)
    exact ⟨c, level, hlast, hlevel, heq ▸ hn⟩

theorem quiet_relaxation :
    (g.relaxation g.nodeIds).quiet = true ∧
      (g.relaxation g.nodeIds).passes < g.nodeIds.length + 2 := by
  have hstill : g.depthsAfter (g.nodeIds.length + 1) = g.depthsAfter g.nodeIds.length := by
    rw [depthsAfter_succ]
    apply Depths.pass_eq_self
    intro row hrow n hn
    rw [(mem_rows.mp hrow).2] at hn
    obtain ⟨c, hc, m, hdepth, rfl⟩ := Depths.exists_of_candidate? hn
    obtain ⟨root, hroot, hchain⟩ := g.sound_depthsAfter _ c m hdepth
    have hlonger := hchain.call (mem_callers.mp hc)
    exact atLeast_depthsAfter hroot hlonger
      ((unlooped_of_acyclic hacyclic row.1).chain_le hlonger)
  have hcap : g.nodeIds.length < g.nodeIds.length + 2 := by omega
  obtain ⟨hquiet, hpasses⟩ := quiet_relax hcap hstill
  rw [relaxation_eq]
  exact ⟨hquiet, Nat.lt_succ_of_le hpasses⟩

end Acyclic

/-- A node that no cycle is above, or runs through, gets the length of the longest chain of callers that ends
in it. So without cycles every call goes down, every node that is called lies one below its deepest caller,
and the last pass is quiet and comes before the cap. -/
theorem levels_exact (g : Graph) :
    (∀ id ∈ g.nodeIds, g.Unlooped id → ∃ level, (g.levels g.nodeIds).find? id = some level ∧
      IsGreatest {n | ∃ top, g.Descends top n id} level) ∧
    ((∀ id, ¬ Relation.TransGen g.Calls id id) →
      (∀ a b, g.Calls a b → ∃ m n, (g.levels g.nodeIds).find? a = some m ∧
        (g.levels g.nodeIds).find? b = some n ∧ m < n) ∧
      (∀ id, (∃ c, g.Calls c id) → ∃ level,
        (g.levels g.nodeIds).find? id = some (level + 1) ∧
        IsGreatest {n | ∃ c, g.Calls c id ∧ (g.levels g.nodeIds).find? c = some n} level) ∧
      (g.relaxation g.nodeIds).quiet = true ∧
      (g.relaxation g.nodeIds).passes < g.nodeIds.length + 2) := by
  refine ⟨fun _ => level_of_unlooped, fun hacyclic => ?_⟩
  refine ⟨fun _ _ => level_of_calls hacyclic, ?_, quiet_relaxation hacyclic⟩
  intro id hcalled
  obtain ⟨a, hcall⟩ := hcalled
  obtain ⟨c, level, hlast, hlevel, hid⟩ := level_of_caller hacyclic hcall
  refine ⟨level, hid, ⟨c, hlast, hlevel⟩, ?_⟩
  intro n hn
  obtain ⟨c', hcall', hn⟩ := hn
  obtain ⟨n', m, hn', hm, hlt⟩ := level_of_calls hacyclic hcall'
  obtain rfl := Option.some.inj (hn.symm.trans hn')
  obtain rfl := Option.some.inj (hid.symm.trans hm)
  exact Nat.le_of_lt_succ hlt

example :
    let g : Graph := .ofList [("a", [{ target := "a" }, { target := "b" }, { target := "d" }]),
      ("b", [{ target := "c" }]), ("c", [{ target := "d" }])]
    (g.levels g.nodeIds).entries = [("a", 0), ("b", 1), ("c", 2), ("d", 3)] := by
  cbv

end FlowAtlas.Graph
