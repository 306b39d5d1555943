import FlowAtlas.Proofs.Levels
import FlowAtlas.Proofs.Callers
import Mathlib.Logic.Function.Iterate

/-! Depths while they are raised. Every depth is the length of a chain of callers that starts at a root, and
after some passes it is no less than that of any chain of as many calls, whatever the order in a pass. -/

namespace FlowAtlas.Graph

namespace Depths
variable {d : Depths} {id x c : NodeId} {callers : List NodeId} {rows : List Row} {n : Nat}

def AtLeast (d : Depths) (id : NodeId) (n : Nat) : Prop :=
  ∃ m, d.depth? id = some m ∧ n ≤ m

theorem depth?_insert (d : Depths) (id : NodeId) (n : Nat) (x : NodeId) :
    Depths.depth? (d.insert id (some n)) x = if x = id then some n else d.depth? x := by
  unfold depth? Table.insert
  rw [Table.find?_alter]
  split <;> rfl

theorem exists_of_candidate? (h : d.candidate? callers = some n) :
    ∃ c ∈ callers, ∃ m, d.depth? c = some m ∧ m + 1 = n := by
  obtain ⟨m, hmax, rfl⟩ := Option.map_eq_some_iff.mp h
  obtain ⟨c, hc, hdepth⟩ := List.mem_filterMap.mp (List.max?_eq_some_iff.mp hmax).1
  exact ⟨c, hc, m, hdepth, rfl⟩

theorem candidate?_of_atLeast (hc : c ∈ callers) (h : d.AtLeast c n) :
    ∃ m, d.candidate? callers = some m ∧ n + 1 ≤ m := by
  obtain ⟨k, hdepth, hk⟩ := h
  have hmem : k ∈ callers.filterMap d.depth? := List.mem_filterMap.mpr ⟨c, hc, hdepth⟩
  obtain ⟨m, hm⟩ := Option.isSome_iff_exists.mp (List.isSome_max?_of_mem hmem)
  refine ⟨m + 1, by rw [candidate?, hm]; rfl, Nat.succ_le_succ (hk.trans ?_)⟩
  exact (List.max?_eq_some_iff.mp hm).2 k hmem

theorem raise_cases (d : Depths) (id : NodeId) (callers : List NodeId) :
    (∀ n, d.candidate? callers = some n → d.AtLeast id n) ∧ d.raise id callers = d ∨
      ∃ n, d.candidate? callers = some n ∧ (∀ m, d.depth? id = some m → m < n) ∧
        d.raise id callers = d.insert id (some n) := by
  unfold raise
  cases hn : d.candidate? callers with
  | none =>
    refine .inl ⟨?_, rfl⟩
    intro n h
    cases h
  | some n =>
    cases hm : d.depth? id with
    | none =>
      refine .inr ⟨n, rfl, ?_, rfl⟩
      intro m h
      cases h
    | some m =>
      by_cases hlt : m < n
      · refine .inr ⟨n, rfl, ?_, if_pos hlt⟩
        intro m' h
        cases h
        exact hlt
      · refine .inl ⟨?_, if_neg hlt⟩
        intro n' h
        cases h
        exact ⟨m, hm, Nat.le_of_not_lt hlt⟩

theorem AtLeast.raise (h : d.AtLeast x n) (id : NodeId) (callers : List NodeId) :
    (d.raise id callers).AtLeast x n := by
  obtain ⟨_, heq⟩ | ⟨k, _, hlt, heq⟩ := d.raise_cases id callers
  · rwa [heq]
  · rw [heq, AtLeast, depth?_insert]
    obtain ⟨m, hm, hle⟩ := h
    by_cases hx : x = id
    · rw [if_pos hx]
      exact ⟨k, rfl, hle.trans (hlt m (hx ▸ hm)).le⟩
    · rw [if_neg hx]
      exact ⟨m, hm, hle⟩

theorem AtLeast.pass (h : d.AtLeast x n) (rows : List Row) : (d.pass rows).AtLeast x n :=
  List.foldlRecOn (motive := fun d : Depths => d.AtLeast x n) rows _ h fun _ h row _ =>
    h.raise row.1 row.2

theorem atLeast_raise (hc : c ∈ callers) (h : d.AtLeast c n) :
    (d.raise id callers).AtLeast id (n + 1) := by
  obtain ⟨m, hm, hle⟩ := candidate?_of_atLeast hc h
  obtain ⟨hreached, heq⟩ | ⟨k, hk, _, heq⟩ := d.raise_cases id callers
  · obtain ⟨m', hdepth, hle'⟩ := hreached m hm
    rw [heq]
    exact ⟨m', hdepth, hle.trans hle'⟩
  · obtain rfl := Option.some.inj (hm.symm.trans hk)
    rw [heq, AtLeast, depth?_insert, if_pos rfl]
    exact ⟨m, rfl, hle⟩

theorem atLeast_pass {row : Row} (hrow : row ∈ rows) (hc : c ∈ row.2) (h : d.AtLeast c n) :
    (d.pass rows).AtLeast row.1 (n + 1) := by
  obtain ⟨before, after, rfl⟩ := List.append_of_mem hrow
  unfold pass
  rw [List.foldl_append, List.foldl_cons]
  exact (atLeast_raise hc (h.pass before)).pass after

theorem pass_eq_self (h : ∀ row ∈ rows, ∀ n, d.candidate? row.2 = some n → d.AtLeast row.1 n) :
    d.pass rows = d := by
  have hkept : ∀ row ∈ rows, d.raise row.1 row.2 = d := by
    intro row hrow
    obtain ⟨_, heq⟩ | ⟨n, hn, hlt, _⟩ := d.raise_cases row.1 row.2
    · exact heq
    · obtain ⟨m, hm, hle⟩ := h row hrow n hn
      exact absurd (hlt m hm) (Nat.not_lt.mpr hle)
  exact List.foldlRecOn (motive := fun d' => d' = d) rows _ rfl fun d' h' row hrow => by
    rw [h', hkept row hrow]

end Depths

section Relax
variable {rows : List Row} {d : Depths} {n k : Nat}

theorem relax_of_quiet (h : d.pass rows = d) : relax rows (n + 1) d = ⟨d, 1, true⟩ :=
  if_pos (congrArg Table.entries h)

theorem relax_of_ne (h : d.pass rows ≠ d) : relax rows (n + 1) d =
    { relax rows n (d.pass rows) with passes := (relax rows n (d.pass rows)).passes + 1 } :=
  if_neg fun heq => h (Table.ext_entries heq)

/-- To stop after a quiet pass makes no difference to the depths. -/
theorem depths_relax (rows : List Row) (n : Nat) (d : Depths) :
    (relax rows n d).depths = (Depths.pass rows)^[n] d := by
  induction n generalizing d with
  | zero => rfl
  | succ n ih =>
    by_cases h : d.pass rows = d
    · rw [relax_of_quiet h, Function.iterate_fixed h]
    · rw [relax_of_ne h, Function.iterate_succ_apply]
      exact ih (d.pass rows)

theorem quiet_relax (hk : k < n) (h : (Depths.pass rows)^[k + 1] d = (Depths.pass rows)^[k] d) :
    (relax rows n d).quiet = true ∧ (relax rows n d).passes ≤ k + 1 := by
  induction n generalizing d k with
  | zero => cases hk
  | succ n ih =>
    by_cases hd : d.pass rows = d
    · rw [relax_of_quiet hd]
      exact ⟨rfl, Nat.le_add_left 1 k⟩
    · cases k with
      | zero => exact absurd h hd
      | succ k =>
        obtain ⟨hquiet, hpasses⟩ := ih (Nat.lt_of_succ_lt_succ hk) h
        rw [relax_of_ne hd]
        exact ⟨hquiet, Nat.succ_le_succ hpasses⟩

end Relax

variable {g : Graph} {id root : NodeId} {n k : Nat}

def rows (g : Graph) : List Row :=
  g.nodeIds.map fun id => (id, g.callers id)

def depthsAfter (g : Graph) (n : Nat) : Depths :=
  (Depths.pass g.rows)^[n] (.start g.rows)

theorem mem_rows {row : Row} : row ∈ g.rows ↔ row.1 ∈ g.nodeIds ∧ row.2 = g.callers row.1 := by
  unfold rows
  rw [List.mem_map]
  constructor
  · intro h
    obtain ⟨id, hid, rfl⟩ := h
    exact ⟨hid, rfl⟩
  · intro h
    exact ⟨row.1, h.1, by rw [← h.2]⟩

theorem sortTexts_eraseDups_nodeIds (g : Graph) : sortTexts g.nodeIds.eraseDups = g.nodeIds := by
  have hnodup : g.nodeIds.Nodup := nodup_sortTexts_eraseDups _
  rw [eraseDups_of_nodup hnodup]
  exact sortTexts_eq_of_perm (sortTexts_perm _)

theorem relaxation_eq (g : Graph) :
    g.relaxation g.nodeIds = relax g.rows (g.nodeIds.length + 2) (.start g.rows) := by
  unfold relaxation
  rw [sortTexts_eraseDups_nodeIds]
  rfl

theorem depths_relaxation (g : Graph) :
    (g.relaxation g.nodeIds).depths = g.depthsAfter (g.nodeIds.length + 2) := by
  rw [relaxation_eq, depths_relax]
  rfl

theorem depthsAfter_succ (g : Graph) (n : Nat) :
    g.depthsAfter (n + 1) = (g.depthsAfter n).pass g.rows :=
  Function.iterate_succ_apply' _ _ _

theorem mem_start {depth : Option Nat} :
    (id, depth) ∈ g.rows.map (fun row => (row.1, if row.2.isEmpty then some 0 else none)) ↔
      id ∈ g.nodeIds ∧ depth = if (g.callers id).isEmpty then some 0 else none := by
  rw [List.mem_map]
  constructor
  · intro h
    obtain ⟨row, hrow, heq⟩ := h
    obtain ⟨hid, hcallers⟩ := mem_rows.mp hrow
    cases heq
    exact ⟨hid, by rw [hcallers]⟩
  · intro h
    obtain ⟨hid, rfl⟩ := h
    exact ⟨(id, g.callers id), mem_rows.mpr ⟨hid, rfl⟩, rfl⟩

theorem depth?_start : (Depths.start g.rows).depth? id = some n ↔ g.IsRoot id ∧ n = 0 := by
  rw [isRoot_iff, Depths.depth?, Option.join_eq_some_iff]
  constructor
  · intro h
    obtain ⟨hid, hdepth⟩ := mem_start.mp (Table.mem_of_find?_ofList h)
    by_cases hnone : g.callers id = []
    · rw [hnone] at hdepth
      cases hdepth
      exact ⟨⟨hid, hnone⟩, rfl⟩
    · rw [if_neg (mt List.isEmpty_iff.mp hnone)] at hdepth
      cases hdepth
  · intro h
    obtain ⟨⟨hid, hnone⟩, rfl⟩ := h
    have hdepth : some 0 = if (g.callers id).isEmpty then some 0 else none := by
      rw [hnone]
      rfl
    apply Table.find?_ofList_of_unique (mem_start.mpr ⟨hid, hdepth⟩)
    intro depth hgiven
    rw [hdepth]
    exact (mem_start.mp hgiven).2

/-- After `k` passes, every chain of at most `k` calls that starts at a root has been found. -/
theorem atLeast_depthsAfter (hroot : g.IsRoot root) (hchain : g.Descends root n id) (hk : n ≤ k) :
    (g.depthsAfter k).AtLeast id n := by
  induction k generalizing n id with
  | zero =>
    obtain rfl := Nat.le_zero.mp hk
    cases hchain
    exact ⟨0, depth?_start.mpr ⟨hroot, rfl⟩, le_refl 0⟩
  | succ k ih =>
    rw [depthsAfter_succ]
    cases hchain with
    | refl => exact (ih .refl (Nat.zero_le k)).pass g.rows
    | @call n a _ above hcall =>
      have habove : (g.depthsAfter k).AtLeast a n := ih above (Nat.le_of_succ_le_succ hk)
      have hrow : (id, g.callers id) ∈ g.rows := mem_rows.mpr ⟨hcall.mem_nodeIds.2, rfl⟩
      exact Depths.atLeast_pass hrow (mem_callers.mpr hcall) habove

def Depths.Sound (g : Graph) (d : Depths) : Prop :=
  ∀ id n, d.depth? id = some n → ∃ root, g.IsRoot root ∧ g.Descends root n id

theorem sound_raise {d : Depths} (h : d.Sound g) (id : NodeId) :
    (d.raise id (g.callers id)).Sound g := by
  obtain ⟨_, heq⟩ | ⟨n, hn, _, heq⟩ := d.raise_cases id (g.callers id)
  · rwa [heq]
  · intro x m hm
    rw [heq, Depths.depth?_insert] at hm
    by_cases hx : x = id
    · rw [if_pos hx] at hm
      cases hm
      obtain ⟨c, hc, m, hdepth, rfl⟩ := Depths.exists_of_candidate? hn
      obtain ⟨root, hroot, hchain⟩ := h c m hdepth
      rw [hx]
      exact ⟨root, hroot, hchain.call (mem_callers.mp hc)⟩
    · rw [if_neg hx] at hm
      exact h x m hm

theorem sound_pass {d : Depths} (h : d.Sound g) : (d.pass g.rows).Sound g :=
  List.foldlRecOn (motive := fun d : Depths => d.Sound g) g.rows _ h fun d hd row hrow => by
    rw [(mem_rows.mp hrow).2]
    exact sound_raise hd row.1

theorem sound_start (g : Graph) : (Depths.start g.rows).Sound g := by
  intro id n hdepth
  obtain ⟨hroot, rfl⟩ := depth?_start.mp hdepth
  exact ⟨id, hroot, .refl⟩

theorem sound_depthsAfter (g : Graph) (n : Nat) : (g.depthsAfter n).Sound g := by
  induction n with
  | zero => exact g.sound_start
  | succ n ih =>
    rw [depthsAfter_succ]
    exact sound_pass ih

theorem exists_chain_of_depth? (h : (g.relaxation g.nodeIds).depths.depth? id = some n) :
    ∃ root, g.IsRoot root ∧ g.Descends root n id := by
  rw [depths_relaxation] at h
  exact g.sound_depthsAfter _ id n h

theorem atLeast_relaxation (hroot : g.IsRoot root) (hchain : g.Descends root n id)
    (hn : n ≤ g.nodeIds.length) : (g.relaxation g.nodeIds).depths.AtLeast id n := by
  rw [depths_relaxation]
  exact atLeast_depthsAfter hroot hchain (Nat.le_add_right_of_le hn)

theorem SimplePath.atLeast {path : List NodeId} (h : g.SimplePath root id path) (hroot : g.IsRoot root) :
    ∃ n, path.length = n + 1 ∧ (g.relaxation g.nodeIds).depths.AtLeast id n := by
  obtain ⟨n, hlength, hchain⟩ := h.descends
  have hle := h.length_le
  exact ⟨n, hlength, atLeast_relaxation hroot hchain (by omega)⟩

theorem exists_depth?_iff :
    (∃ n, (g.relaxation g.nodeIds).depths.depth? id = some n) ↔ g.Reached id := by
  constructor
  · intro h
    obtain ⟨n, hn⟩ := h
    obtain ⟨root, hroot, hchain⟩ := exists_chain_of_depth? hn
    exact ⟨root, hroot, hchain.reaches⟩
  · intro h
    obtain ⟨root, hroot, hwalk⟩ := h
    obtain ⟨path, hpath⟩ := exists_simplePath_iff.mpr hwalk
    obtain ⟨_, _, n, hn, _⟩ := hpath.atLeast hroot
    exact ⟨n, hn⟩

theorem find?_levels (h : (g.relaxation g.nodeIds).depths.depth? id = some n) :
    (g.levels g.nodeIds).find? id = some n := by
  rw [levels, Relaxation.levels, Table.find?_mapValues, Option.join_eq_some_iff.mp h]
  rfl

theorem find?_depths_eq_some_none_iff :
    (g.relaxation g.nodeIds).depths.find? id = some none ↔ id ∈ g.nodeIds ∧ ¬ g.Reached id := by
  have hmem : id ∈ (g.relaxation g.nodeIds).depths ↔ id ∈ g.nodeIds := by
    rw [← mem_levels (g := g), levels, Relaxation.levels, Table.mem_mapValues]
  rw [← hmem, ← exists_depth?_iff, Table.mem_iff_find?]
  simp only [Depths.depth?, Option.join_eq_some_iff]
  cases (g.relaxation g.nodeIds).depths.find? id with
  | none => simp
  | some depth => cases depth <;> simp

theorem find?_levels_of_not_reached (hid : id ∈ g.nodeIds) (h : ¬ g.Reached id) :
    (g.levels g.nodeIds).find? id = some (g.relaxation g.nodeIds).fallback := by
  rw [levels, Relaxation.levels, Table.find?_mapValues,
    find?_depths_eq_some_none_iff.mpr ⟨hid, h⟩]
  rfl

end FlowAtlas.Graph
