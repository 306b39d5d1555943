import FlowAtlas.Table
import Mathlib.Data.List.Induction

/-! Tables by their lookups. An entry is a key with what the table finds for it. -/

namespace FlowAtlas

theorem foldl_iff_exists {α β : Type} {f : β → α → β} {p : β → Prop} {q : α → Prop}
    (hstep : ∀ b a, p (f b a) ↔ p b ∨ q a) (xs : List α) (b : β) :
    p (xs.foldl f b) ↔ p b ∨ ∃ a ∈ xs, q a := by
  induction xs generalizing b with
  | nil => simp
  | cons a rest ih => simp only [List.foldl_cons, ih, hstep, List.mem_cons, exists_eq_or_imp,
      or_assoc]

namespace Table
variable {κ ν μ : Type} [DecidableEq κ]

theorem mem_entries_iff {t : Table κ ν} {k : κ} {v : ν} :
    (k, v) ∈ t.entries ↔ t.find? k = some v := by
  obtain ⟨es, hes⟩ := t
  simp only [find?]
  induction es with
  | nil => simp
  | cons e rest ih =>
    simp only [List.map_cons, List.nodup_cons] at hes
    by_cases hk : e.1 = k
    · subst hk
      have hrest : (e.1, v) ∉ rest := fun h => hes.1 (List.mem_map.mpr ⟨_, h, rfl⟩)
      simp [hrest, Prod.ext_iff, eq_comm]
    · have hne : (k, v) ≠ e := fun h => hk (congrArg Prod.fst h).symm
      simp [hk, hne, ih hes.2]

theorem mem_iff_find? {t : Table κ ν} {k : κ} : k ∈ t ↔ ∃ v, t.find? k = some v := by
  rw [mem_iff, keys, List.mem_map]
  constructor
  · rintro ⟨⟨k', v⟩, he, rfl⟩
    exact ⟨v, mem_entries_iff.mp he⟩
  · rintro ⟨v, hv⟩
    exact ⟨(k, v), mem_entries_iff.mpr hv, rfl⟩

theorem mem_of_find? {t : Table κ ν} {k : κ} {v : ν} (h : t.find? k = some v) : k ∈ t :=
  mem_iff_find?.mpr ⟨v, h⟩

omit [DecidableEq κ] in
@[simp] theorem not_mem_empty (k : κ) : k ∉ (empty : Table κ ν) :=
  List.not_mem_nil

omit [DecidableEq κ] in
@[simp] theorem mem_mapValues {f : κ → ν → μ} {t : Table κ ν} {k : κ} :
    k ∈ t.mapValues f ↔ k ∈ t := by
  simp only [mem_iff, keys_mapValues]

theorem find?_mapValues (f : κ → ν → μ) (t : Table κ ν) (k : κ) :
    (t.mapValues f).find? k = (t.find? k).map (f k) := by
  obtain ⟨es, hes⟩ := t
  simp only [find?, mapValues]
  induction es with
  | nil => rfl
  | cons e rest ih =>
    simp only [List.map_cons, List.nodup_cons] at hes
    by_cases hk : e.1 = k
    · subst hk
      simp
    · simpa [hk] using ih hes.2

theorem mem_filter {p : κ → ν → Bool} {t : Table κ ν} {k : κ} :
    k ∈ t.filter p ↔ ∃ v, t.find? k = some v ∧ p k v = true := by
  rw [mem_iff_find?]
  simp only [find?_filter, Option.filter_eq_some_iff]

omit [DecidableEq κ] in
theorem keys_filter (p : κ → Bool) (t : Table κ ν) :
    (t.filter fun k _ => p k).keys = t.keys.filter p := by
  simp only [keys, filter, List.filter_map, Function.comp_def]

@[simp] theorem mem_insert {t : Table κ ν} {k k' : κ} {v : ν} :
    k' ∈ t.insert k v ↔ k' = k ∨ k' ∈ t :=
  mem_alter

theorem find?_alter (t : Table κ ν) (k k' : κ) (f : Option ν → ν) :
    (t.alter k f).find? k' = if k' = k then some (f (t.find? k)) else t.find? k' := by
  by_cases h : k' = k
  · subst h
    simp
  · rw [find?_alter_of_ne h, if_neg h]

theorem find?_ofList (entries : List (κ × ν)) (k : κ) :
    (ofList entries).find? k = ((entries.filter fun e => e.1 = k).getLast?).map Prod.snd := by
  induction entries using List.reverseRecOn with
  | nil => rfl
  | append_singleton entries e ih =>
    have hsnoc : ofList (entries ++ [e]) = (ofList entries).insert e.1 e.2 := List.foldl_append
    rw [hsnoc, insert, find?_alter, ih, List.filter_append]
    by_cases hk : k = e.1
    · simp [hk]
    · have hne : ¬ e.1 = k := fun h => hk h.symm
      simp [hk, hne]

theorem find?_ofList_of_unique {entries : List (κ × ν)} {k : κ} {v : ν}
    (hmem : (k, v) ∈ entries) (hunique : ∀ v', (k, v') ∈ entries → v' = v) :
    (ofList entries).find? k = some v := by
  have hgiven : (k, v) ∈ entries.filter fun e => e.1 = k :=
    List.mem_filter.mpr ⟨hmem, decide_eq_true rfl⟩
  have hsome := List.getLast?_isSome.mpr (List.ne_nil_of_mem hgiven)
  obtain ⟨last, hlast⟩ := Option.isSome_iff_exists.mp hsome
  obtain ⟨hlastMem, hkey⟩ := List.mem_filter.mp (List.mem_of_getLast? hlast)
  obtain ⟨k', v'⟩ := last
  obtain rfl : k' = k := by simpa using hkey
  rw [find?_ofList, hlast, Option.map_some, hunique v' hlastMem]

theorem mem_of_find?_ofList {entries : List (κ × ν)} {k : κ} {v : ν}
    (h : (ofList entries).find? k = some v) : (k, v) ∈ entries := by
  rw [find?_ofList] at h
  obtain ⟨⟨k', v'⟩, hlast, rfl⟩ := Option.map_eq_some_iff.mp h
  obtain ⟨hmem, hkey⟩ := List.mem_filter.mp (List.mem_of_getLast? hlast)
  obtain rfl : k' = k := by simpa using hkey
  exact hmem

end Table
end FlowAtlas
