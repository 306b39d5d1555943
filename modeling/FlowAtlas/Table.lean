/-! Finite maps that keep their keys in the order of first appearance. Changing the value of a key
leaves it in its place; a new key comes last. -/

namespace FlowAtlas

structure Table (κ ν : Type) where
  entries : List (κ × ν)
  nodup : (entries.map Prod.fst).Nodup

namespace Table
variable {κ ν μ : Type}

def empty : Table κ ν :=
  ⟨[], .nil⟩

instance : Inhabited (Table κ ν) := ⟨empty⟩

def keys (t : Table κ ν) : List κ :=
  t.entries.map Prod.fst

def values (t : Table κ ν) : List ν :=
  t.entries.map Prod.snd

def size (t : Table κ ν) : Nat :=
  t.entries.length

def isEmpty (t : Table κ ν) : Bool :=
  t.entries.isEmpty

instance : Membership κ (Table κ ν) := ⟨fun t k => k ∈ t.keys⟩

theorem mem_iff {t : Table κ ν} {k : κ} : k ∈ t ↔ k ∈ t.keys := Iff.rfl

theorem ext_entries {s t : Table κ ν} (h : s.entries = t.entries) : s = t := by
  cases s; cases t; cases h; rfl

section Lookup
variable [DecidableEq κ]

instance (k : κ) (t : Table κ ν) : Decidable (k ∈ t) :=
  inferInstanceAs (Decidable (k ∈ t.keys))

def find? (t : Table κ ν) (k : κ) : Option ν :=
  (t.entries.find? fun e => e.1 = k).map Prod.snd

def findD (t : Table κ ν) (k : κ) (fallback : ν) : ν :=
  (t.find? k).getD fallback

def contains (t : Table κ ν) (k : κ) : Bool :=
  decide (k ∈ t)

def alterEntries (k : κ) (f : Option ν → ν) : List (κ × ν) → List (κ × ν)
  | [] => [(k, f none)]
  | e :: rest => if e.1 = k then (e.1, f (some e.2)) :: rest else e :: alterEntries k f rest

theorem map_fst_alterEntries (k : κ) (f : Option ν → ν) (es : List (κ × ν)) :
    (alterEntries k f es).map Prod.fst =
      if k ∈ es.map Prod.fst then es.map Prod.fst else es.map Prod.fst ++ [k] := by
  induction es with
  | nil => simp [alterEntries]
  | cons e rest ih =>
    simp only [alterEntries]
    by_cases he : e.1 = k
    · simp [he]
    · have hk : ¬ k = e.1 := fun h => he h.symm
      simp only [he, if_false, List.map_cons, ih, List.mem_cons, hk, false_or]
      split <;> simp

def alter (t : Table κ ν) (k : κ) (f : Option ν → ν) : Table κ ν where
  entries := alterEntries k f t.entries
  nodup := by
    rw [map_fst_alterEntries]
    split
    · exact t.nodup
    · rename_i hk
      refine List.nodup_append.mpr ⟨t.nodup, by simp, ?_⟩
      intro a ha b hb heq
      simp only [List.mem_singleton] at hb
      exact hk (hb ▸ heq ▸ ha)

def insert (t : Table κ ν) (k : κ) (v : ν) : Table κ ν :=
  t.alter k fun _ => v

def ensure (t : Table κ ν) (k : κ) (v : ν) : Table κ ν :=
  t.alter k fun old => old.getD v

def ofList (es : List (κ × ν)) : Table κ ν :=
  es.foldl (fun t e => t.insert e.1 e.2) empty

theorem keys_alter (t : Table κ ν) (k : κ) (f : Option ν → ν) :
    (t.alter k f).keys = if k ∈ t.keys then t.keys else t.keys ++ [k] :=
  map_fst_alterEntries k f t.entries

@[simp] theorem mem_alter {t : Table κ ν} {k k' : κ} {f : Option ν → ν} :
    k' ∈ t.alter k f ↔ k' = k ∨ k' ∈ t := by
  simp only [mem_iff, keys_alter]
  split
  · rename_i hk
    constructor
    · exact .inr
    · rintro (rfl | h)
      · exact hk
      · exact h
  · simp [or_comm]

theorem find?_alterEntries (k k' : κ) (f : Option ν → ν) (es : List (κ × ν)) :
    ((alterEntries k f es).find? fun e => e.1 = k').map Prod.snd =
      if k' = k then some (f ((es.find? fun e => e.1 = k).map Prod.snd))
      else (es.find? fun e => e.1 = k').map Prod.snd := by
  induction es with
  | nil => by_cases h : k' = k <;> simp [alterEntries, h, eq_comm]
  | cons e rest ih =>
    simp only [alterEntries]
    by_cases he : e.1 = k
    · subst he
      by_cases h : k' = e.1
      · simp [h]
      · have h' : ¬ e.1 = k' := fun h' => h h'.symm
        simp [h, h']
    · simp only [he, if_false]
      by_cases h' : e.1 = k'
      · have h : ¬ k' = k := fun h => he (h' ▸ h)
        simp [h, h']
      · simp [h', ih, he]

@[simp] theorem find?_alter_self (t : Table κ ν) (k : κ) (f : Option ν → ν) :
    (t.alter k f).find? k = some (f (t.find? k)) :=
  (find?_alterEntries k k f t.entries).trans (if_pos rfl)

theorem find?_alter_of_ne {t : Table κ ν} {k k' : κ} (h : k' ≠ k) (f : Option ν → ν) :
    (t.alter k f).find? k' = t.find? k' :=
  (find?_alterEntries k k' f t.entries).trans (if_neg h)

theorem find?_eq_none_iff {t : Table κ ν} {k : κ} : t.find? k = none ↔ k ∉ t := by
  simp only [find?, Option.map_eq_none_iff, List.find?_eq_none, decide_eq_true_eq, mem_iff, keys,
    List.mem_map, not_exists, not_and]

end Lookup

def filter (p : κ → ν → Bool) (t : Table κ ν) : Table κ ν where
  entries := t.entries.filter fun e => p e.1 e.2
  nodup := t.nodup.sublist (List.filter_sublist.map _)

def mapValues (f : κ → ν → μ) (t : Table κ ν) : Table κ μ where
  entries := t.entries.map fun e => (e.1, f e.1 e.2)
  nodup := by simpa [Function.comp_def] using t.nodup

@[simp] theorem keys_mapValues (f : κ → ν → μ) (t : Table κ ν) : (t.mapValues f).keys = t.keys := by
  simp [keys, mapValues, Function.comp_def]

theorem find?_filter [DecidableEq κ] (p : κ → ν → Bool) (t : Table κ ν) (k : κ) :
    (t.filter p).find? k = (t.find? k).filter (p k) := by
  obtain ⟨es, h⟩ := t
  simp only [find?, filter]
  induction es with
  | nil => rfl
  | cons e rest ih =>
    simp only [List.map_cons, List.nodup_cons] at h
    have ih := ih h.2
    by_cases hk : e.1 = k
    · subst hk
      have hrest : (rest.filter fun e' => p e'.1 e'.2).find? (fun e' => e'.1 = e.1) = none := by
        simp only [List.find?_eq_none, List.mem_filter, decide_eq_true_eq, and_imp]
        intro e' he' _ heq
        exact h.1 (List.mem_map.mpr ⟨e', he', heq⟩)
      by_cases hp : p e.1 e.2
      · simp [hp, Option.filter]
      · simp [hp, hrest, Option.filter]
    · rw [List.find?_cons_of_neg (by simpa using hk), ← ih]
      by_cases hp : p e.1 e.2
      · rw [List.filter_cons, if_pos hp, List.find?_cons_of_neg (by simpa using hk)]
      · rw [List.filter_cons, if_neg hp]

end Table
end FlowAtlas
