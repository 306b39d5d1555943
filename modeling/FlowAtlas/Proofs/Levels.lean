import FlowAtlas.Levels
import FlowAtlas.Proofs.Table

/-! The levels of a graph are given to the listed ids, each once and in order. -/

namespace FlowAtlas

namespace Table
variable {κ ν : Type} [DecidableEq κ]

theorem keys_insert_of_mem {t : Table κ ν} {k : κ} (h : k ∈ t) (v : ν) :
    (t.insert k v).keys = t.keys :=
  (t.keys_alter k _).trans (if_pos h)

theorem keys_insert_of_not_mem {t : Table κ ν} {k : κ} (h : k ∉ t) (v : ν) :
    (t.insert k v).keys = t.keys ++ [k] :=
  (t.keys_alter k _).trans (if_neg h)

theorem keys_ofList {entries : List (κ × ν)} (h : (entries.map Prod.fst).Nodup) :
    (ofList entries).keys = entries.map Prod.fst := by
  suffices hfold : ∀ t : Table κ ν, (t.keys ++ entries.map Prod.fst).Nodup →
      (entries.foldl (fun t entry => t.insert entry.1 entry.2) t).keys =
        t.keys ++ entries.map Prod.fst from hfold .empty h
  clear h
  induction entries with
  | nil => simp
  | cons entry rest ih =>
    intro t ht
    have hnew : entry.1 ∉ t := fun hmem =>
      (List.nodup_append.mp ht).2.2 entry.1 hmem entry.1 (by simp) rfl
    have hkeys := keys_insert_of_not_mem hnew entry.2
    rw [List.foldl_cons, ih _ (by simpa [hkeys] using ht), hkeys]
    simp

end Table

namespace Graph

theorem Depths.keys_raise {d : Depths} {id : NodeId} (h : id ∈ d) (callers : List NodeId) :
    (d.raise id callers).keys = d.keys := by
  unfold raise
  split
  · rfl
  · exact Table.keys_insert_of_mem h _
  · split
    · exact Table.keys_insert_of_mem h _
    · rfl

theorem Depths.keys_pass {rows : List Row} {d : Depths} (h : ∀ row ∈ rows, row.1 ∈ d) :
    (d.pass rows).keys = d.keys := by
  unfold pass
  induction rows generalizing d with
  | nil => rfl
  | cons row rest ih =>
    have hkeys := keys_raise (h row List.mem_cons_self) row.2
    rw [List.foldl_cons, ih, hkeys]
    intro row' hrow'
    rw [Table.mem_iff, hkeys]
    exact h row' (List.mem_cons_of_mem _ hrow')

theorem keys_relax {rows : List Row} {d : Depths} (h : ∀ row ∈ rows, row.1 ∈ d) (n : Nat) :
    (relax rows n d).depths.keys = d.keys := by
  induction n generalizing d with
  | zero => rfl
  | succ n ih =>
    unfold relax
    extract_lets next r
    have hnext : next.keys = d.keys := Depths.keys_pass h
    split
    · rfl
    · refine (ih fun row hrow => ?_).trans hnext
      rw [Table.mem_iff, hnext]
      exact h row hrow

theorem Depths.keys_start {rows : List Row} (h : (rows.map Prod.fst).Nodup) :
    (start rows).keys = rows.map Prod.fst := by
  unfold start
  rw [Table.keys_ofList]
  · simp [Function.comp_def]
  · simpa [Function.comp_def] using h

theorem nodup_sortTexts_eraseDups (ids : List NodeId) : (sortTexts ids.eraseDups).Nodup :=
  (sortTexts_perm _).nodup_iff.mpr (nodup_eraseDups ids)

theorem keys_levels (g : Graph) (ids : List NodeId) :
    (g.levels ids).keys = sortTexts ids.eraseDups := by
  unfold levels Relaxation.levels relaxation
  extract_lets listed rows
  have hrows : rows.map Prod.fst = listed := by simp [rows, Function.comp_def]
  have hnodup : (rows.map Prod.fst).Nodup := hrows ▸ nodup_sortTexts_eraseDups ids
  have hstart : (Depths.start rows).keys = listed := (Depths.keys_start hnodup).trans hrows
  rw [Table.keys_mapValues, keys_relax, hstart]
  intro row hrow
  rw [Table.mem_iff, hstart, ← hrows]
  exact List.mem_map_of_mem hrow

theorem mem_levels {g : Graph} {ids : List NodeId} {id : NodeId} : id ∈ g.levels ids ↔ id ∈ ids := by
  rw [Table.mem_iff, keys_levels, mem_sortTexts, List.mem_eraseDups]

end Graph
end FlowAtlas
