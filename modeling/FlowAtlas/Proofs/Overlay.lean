import FlowAtlas.Config.Merge

/-! Configurations laid over others, by the paths of keys that lead to their leaves. A leaf is any value but
a mapping. All leaves of the upper configuration are kept, and those of the lower one unless the upper one
has a leaf on the way to them or anything in their place. -/

namespace FlowAtlas.Value
variable {key key' : Key} {path : List Key} {v w x : Value} {o : Option Value}
  {fields old new : List (Key × Value)}

def isMap : Value → Bool
  | map _ => true
  | _ => false

def at? : List Key → Value → Option Value
  | [], v => some v
  | key :: path, map fields => (fieldOf? key fields).bind (at? path)
  | _ :: _, _ => none

def Leaf (v : Value) (path : List Key) (x : Value) : Prop :=
  v.at? path = some x ∧ x.isMap = false

def Distinct (fields : List (Key × Value)) : Prop :=
  fields.Pairwise fun f g => f.1.identity ≠ g.1.identity

instance (fields : List (Key × Value)) : Decidable (Distinct fields) :=
  inferInstanceAs (Decidable (List.Pairwise _ _))

/-- Nowhere in a value, lists apart, does a mapping bind a key twice. -/
inductive Proper : Value → Prop
  | leaf {v : Value} (h : v.isMap = false) : Proper v
  | map {fields : List (Key × Value)} (distinct : Distinct fields)
      (values : ∀ f ∈ fields, Proper f.2) : Proper (map fields)

/-- The leaves of a value that lie on a path, or what it has in place of the path, hide what was there. -/
def Hides (v : Value) (path : List Key) : Prop :=
  (∃ before leaf, before <+: path ∧ v.Leaf before leaf) ∨ v.at? path ≠ none

theorem fieldOf?_cons (f : Key × Value) (fields : List (Key × Value)) (key : Key) :
    fieldOf? key (f :: fields) = if f.1.identity = key.identity then some f.2 else fieldOf? key fields := by
  unfold fieldOf?
  rw [List.find?_cons]
  by_cases h : f.1.identity = key.identity
  · rw [Key.same_iff.mpr h, if_pos h]
    rfl
  · rw [Bool.eq_false_iff.mpr fun hsame => h (Key.same_iff.mp hsame), if_neg h]

theorem fieldOf?_congr (h : key.identity = key'.identity) (fields : List (Key × Value)) :
    fieldOf? key fields = fieldOf? key' fields := by
  unfold fieldOf? Key.same
  rw [h]

theorem fieldOf?_setField (key key' : Key) (v : Value) (fields : List (Key × Value)) :
    fieldOf? key' (setField key v fields) =
      if key.identity = key'.identity then some v else fieldOf? key' fields := by
  induction fields with
  | nil => exact fieldOf?_cons (key, v) [] key'
  | cons f rest ih =>
    rw [setField]
    by_cases h : f.1.identity = key.identity
    · rw [if_pos (Key.same_iff.mpr h), fieldOf?_cons, fieldOf?_cons, h]
      split <;> rfl
    · rw [if_neg fun hsame => h (Key.same_iff.mp hsame), fieldOf?_cons, fieldOf?_cons, ih]
      by_cases hkey : key.identity = key'.identity
      · rw [if_pos hkey, if_pos hkey, if_neg fun hf => h (hf.trans hkey.symm)]
      · rw [if_neg hkey, if_neg hkey]

theorem fieldOf?_eq_none_iff :
    fieldOf? key fields = none ↔ ∀ f ∈ fields, f.1.identity ≠ key.identity := by
  induction fields with
  | nil => exact iff_of_true rfl nofun
  | cons f rest ih =>
    rw [fieldOf?_cons, List.forall_mem_cons]
    by_cases h : f.1.identity = key.identity
    · simp [h]
    · simp [h, ih]

theorem mem_of_fieldOf? (h : fieldOf? key fields = some v) : ∃ f ∈ fields, f.2 = v := by
  unfold fieldOf? at h
  obtain ⟨f, hf, rfl⟩ := Option.map_eq_some_iff.mp h
  exact ⟨f, List.mem_of_find?_eq_some hf, rfl⟩

theorem fieldOf?_of_mem (hdistinct : Distinct fields) {f : Key × Value} (hf : f ∈ fields) :
    fieldOf? f.1 fields = some f.2 := by
  induction fields with
  | nil => cases hf
  | cons g rest ih =>
    obtain ⟨hg, hrest⟩ := List.pairwise_cons.mp hdistinct
    rw [fieldOf?_cons]
    rcases List.mem_cons.mp hf with rfl | hf
    · rw [if_pos rfl]
    · rw [if_neg (hg f hf), ih hrest hf]

theorem setField_eq_self (h : fieldOf? key fields = some v) : setField key v fields = fields := by
  induction fields with
  | nil => cases h
  | cons f rest ih =>
    rw [fieldOf?_cons] at h
    rw [setField]
    by_cases hkey : f.1.identity = key.identity
    · rw [if_pos hkey] at h
      rw [if_pos (Key.same_iff.mpr hkey), ← Option.some.inj h]
    · rw [if_neg hkey] at h
      rw [if_neg fun hsame => hkey (Key.same_iff.mp hsame), ih h]

theorem overlayFields_cons (f : Key × Value) (old rest : List (Key × Value)) :
    overlayFields old (f :: rest) =
      overlayFields (setField f.1 (overlay (fieldOf? f.1 old) f.2) old) rest := by
  rw [overlayFields]

theorem overlay_map (old new : List (Key × Value)) :
    overlay (some (map old)) (map new) = map (overlayFields old new) := by
  rw [overlay]

def Replaces (v : Value) (o : Option Value) : Prop :=
  v.isMap = true → ∀ b ∈ o, b.isMap = false

theorem overlay_of_replaces (h : v.Replaces o) : overlay o v = v := by
  rcases o with _ | b
  · cases v <;> rfl
  · cases v with
    | map new =>
      have hb := h rfl b rfl
      cases b with
      | map old => cases hb
      | _ => rfl
    | _ => cases b <;> rfl

theorem replaces_or_maps (v : Value) (o : Option Value) :
    v.Replaces o ∨ ∃ old new, o = some (map old) ∧ v = map new := by
  cases v with
  | map new =>
    rcases o with _ | b
    · exact .inl nofun
    · cases b with
      | map old => exact .inr ⟨old, new, rfl, rfl⟩
      | _ => exact .inl fun _ b hb => by cases hb; rfl
  | _ => exact .inl nofun

theorem fieldOf?_overlayFields_of_none (h : fieldOf? key new = none) (old : List (Key × Value)) :
    fieldOf? key (overlayFields old new) = fieldOf? key old := by
  induction new generalizing old with
  | nil => rfl
  | cons f rest ih =>
    have hforall := fieldOf?_eq_none_iff.mp h
    obtain ⟨hf, hrest⟩ := List.forall_mem_cons.mp hforall
    rw [overlayFields_cons, ih (fieldOf?_eq_none_iff.mpr hrest), fieldOf?_setField, if_neg hf]

theorem fieldOf?_overlayFields_of_some (hnew : Distinct new) (h : fieldOf? key new = some v)
    (old : List (Key × Value)) :
    fieldOf? key (overlayFields old new) = some (overlay (fieldOf? key old) v) := by
  induction new generalizing old with
  | nil => cases h
  | cons f rest ih =>
    obtain ⟨hf, hrest⟩ := List.pairwise_cons.mp hnew
    rw [overlayFields_cons]
    rw [fieldOf?_cons] at h
    by_cases hkey : f.1.identity = key.identity
    · rw [if_pos hkey] at h
      have hnone : fieldOf? key rest = none :=
        fieldOf?_eq_none_iff.mpr fun g hg hsame => hf g hg (hkey.trans hsame.symm)
      rw [fieldOf?_overlayFields_of_none hnone, fieldOf?_setField, if_pos hkey, Option.some.inj h,
        fieldOf?_congr hkey]
    · rw [if_neg hkey] at h
      rw [ih hrest h, fieldOf?_setField, if_neg hkey]

theorem at?_cons (key : Key) (path : List Key) (fields : List (Key × Value)) :
    (map fields).at? (key :: path) = (fieldOf? key fields).bind (at? path) := rfl

theorem isMap_overlay (o : Option Value) (v : Value) : (overlay o v).isMap = v.isMap := by
  rcases v.replaces_or_maps o with hreplaces | ⟨old, new, rfl, rfl⟩
  · rw [overlay_of_replaces hreplaces]
  · rw [overlay_map]
    rfl

theorem at?_overlay_of_some (hv : v.Proper) (o : Option Value) (h : v.at? path = some x) :
    (overlay o v).at? path = some (overlay (o.bind (at? path)) x) := by
  induction path generalizing v o with
  | nil =>
    cases h
    cases o <;> rfl
  | cons key path ih =>
    rcases v.replaces_or_maps o with hreplaces | ⟨old, new, rfl, rfl⟩
    · -- Nothing of the lower value lies on the path.
      have hnone : o.bind (at? (key :: path)) = none := by
        cases hv' : v.isMap with
        | false =>
          cases v with
          | map fields => cases hv'
          | _ => cases h
        | true =>
          rcases o with _ | b
          · rfl
          · have hb := hreplaces hv' b rfl
            cases b with
            | map fields => cases hb
            | _ => rfl
      have hself : overlay none x = x := overlay_of_replaces nofun
      rw [overlay_of_replaces hreplaces, hnone, h, hself]
    · obtain ⟨w, hw, hat⟩ := Option.bind_eq_some_iff.mp h
      cases hv with
      | leaf h => cases h
      | map distinct values =>
        obtain ⟨f, hf, rfl⟩ := mem_of_fieldOf? hw
        rw [overlay_map, at?_cons, fieldOf?_overlayFields_of_some distinct hw]
        exact ih (values f hf) (fieldOf? key old) hat

theorem at?_overlay_of_none (hv : v.Proper) (o : Option Value) (h : v.at? path = none) :
    (overlay o v).at? path = none ∨ (overlay o v).at? path = o.bind (at? path) := by
  induction path generalizing v o with
  | nil => cases h
  | cons key path ih =>
    rcases v.replaces_or_maps o with hreplaces | ⟨old, new, rfl, rfl⟩
    · rw [overlay_of_replaces hreplaces]
      exact .inl h
    · rw [overlay_map, at?_cons]
      cases hnew : fieldOf? key new with
      | none =>
        rw [fieldOf?_overlayFields_of_none hnew]
        exact .inr rfl
      | some w =>
        rw [at?_cons, hnew] at h
        cases hv with
        | leaf h => cases h
        | map distinct values =>
          obtain ⟨f, hf, rfl⟩ := mem_of_fieldOf? hnew
          rw [fieldOf?_overlayFields_of_some distinct hnew]
          exact ih (values f hf) (fieldOf? key old) h

/-- What holds of the lower value at a path, and of a value with that below it if it holds of the value
itself, holds at the path of the merged value if it does in the upper one. -/
theorem forall_at?_overlay_iff (hv : v.Proper) {p : Value → Prop} (hold : ∀ b ∈ o.bind (at? path), p b)
    (hp : ∀ x, p (overlay (o.bind (at? path)) x) ↔ p x) :
    (∀ y ∈ (overlay o v).at? path, p y) ↔ ∀ x ∈ v.at? path, p x := by
  cases hat : v.at? path with
  | some x =>
    rw [at?_overlay_of_some hv o hat]
    simp [hp x]
  | none =>
    refine iff_of_true (fun y hy => ?_) nofun
    rcases at?_overlay_of_none hv o hat with hnone | hlower
    · rw [hnone] at hy
      cases hy
    · exact hold y (hlower ▸ hy)

theorem forall_at?_overlay_leaf_iff (hv : v.Proper) {p : Value → Prop}
    (hold : ∀ b ∈ o.bind (at? path), b.isMap = false ∧ p b) :
    (∀ y ∈ (overlay o v).at? path, p y) ↔ ∀ x ∈ v.at? path, p x := by
  refine forall_at?_overlay_iff hv (fun b hb => (hold b hb).2) fun x => ?_
  rw [overlay_of_replaces fun _ b hb => (hold b hb).1]

theorem leaf_cons_iff :
    (map fields).Leaf (key :: path) x ↔ ∃ v ∈ fieldOf? key fields, v.Leaf path x := by
  rw [Leaf, at?_cons, Option.bind_eq_some_iff]
  constructor
  · rintro ⟨⟨v, hv, hat⟩, hleaf⟩
    exact ⟨v, hv, hat, hleaf⟩
  · rintro ⟨v, hv, hat, hleaf⟩
    exact ⟨⟨v, hv, hat⟩, hleaf⟩

theorem leaf_cons (h : fieldOf? key fields = some v) :
    (map fields).Leaf (key :: path) x ↔ v.Leaf path x := by
  simp [leaf_cons_iff, h]

theorem not_leaf_of_unbound (h : fieldOf? key fields = none) : ¬(map fields).Leaf (key :: path) x := by
  simp [leaf_cons_iff, h]

theorem ne_nil_of_leaf (h : (map fields).Leaf path x) : path ≠ [] := by
  rintro rfl
  obtain ⟨hat, hleaf⟩ := h
  cases hat
  cases hleaf

theorem eq_nil_of_leaf (hv : v.isMap = false) (h : v.Leaf path x) : path = [] := by
  rcases path with _ | ⟨key, path⟩
  · rfl
  · obtain ⟨hat, -⟩ := h
    cases v with
    | map fields => cases hv
    | _ => cases hat

theorem hides_of_leaf (hv : v.isMap = false) (path : List Key) : v.Hides path :=
  .inl ⟨[], v, List.nil_prefix, rfl, hv⟩

theorem hides_nil (v : Value) : v.Hides [] :=
  .inr nofun

theorem hides_cons (h : fieldOf? key fields = some v) :
    (map fields).Hides (key :: path) ↔ v.Hides path := by
  have hat : (map fields).at? (key :: path) = v.at? path := by rw [at?_cons, h]; rfl
  rw [Hides, Hides, hat]
  refine or_congr_left ⟨?_, ?_⟩
  · rintro ⟨before, leaf, hbefore, hleaf⟩
    rcases before with _ | ⟨first, before⟩
    · exact absurd rfl (ne_nil_of_leaf hleaf)
    · obtain ⟨rfl, hrest⟩ := List.cons_prefix_cons.mp hbefore
      exact ⟨before, leaf, hrest, (leaf_cons h).mp hleaf⟩
  · rintro ⟨before, leaf, hbefore, hleaf⟩
    exact ⟨key :: before, leaf, List.cons_prefix_cons.mpr ⟨rfl, hbefore⟩, (leaf_cons h).mpr hleaf⟩

theorem not_hides_of_unbound (h : fieldOf? key fields = none) : ¬(map fields).Hides (key :: path) := by
  have hat : (map fields).at? (key :: path) = none := by rw [at?_cons, h]; rfl
  rintro (⟨before, leaf, hbefore, hleaf⟩ | hsome)
  · rcases before with _ | ⟨first, before⟩
    · exact ne_nil_of_leaf hleaf rfl
    · obtain ⟨rfl, -⟩ := List.cons_prefix_cons.mp hbefore
      exact not_leaf_of_unbound h hleaf
  · exact hsome hat

theorem hides_of_replaces (h : v.Replaces o) {b : Value} (hb : b ∈ o) (hleaf : b.Leaf path x) :
    v.Hides path := by
  cases hv : v.isMap with
  | false => exact hides_of_leaf hv path
  | true =>
    rw [eq_nil_of_leaf (h hv b hb) hleaf]
    exact v.hides_nil

/-- The leaves of a value laid over another are its own and those of the other that it does not hide. The
path is followed from its first key on. -/
theorem leaf_overlay_iff (hv : v.Proper) (o : Option Value) :
    (overlay o v).Leaf path x ↔ v.Leaf path x ∨ (∃ b ∈ o, b.Leaf path x) ∧ ¬v.Hides path := by
  induction path generalizing v o with
  | nil =>
    have hhides : ¬¬v.Hides [] := not_not_intro v.hides_nil
    rw [or_iff_left fun h => hhides h.2]
    rcases v.replaces_or_maps o with hreplaces | ⟨old, new, rfl, rfl⟩
    · rw [overlay_of_replaces hreplaces]
    · rw [overlay_map]
      exact iff_of_false (fun h => ne_nil_of_leaf h rfl) fun h => ne_nil_of_leaf h rfl
  | cons key path ih =>
    rcases v.replaces_or_maps o with hreplaces | ⟨old, new, rfl, rfl⟩
    · rw [overlay_of_replaces hreplaces, or_iff_left]
      rintro ⟨⟨b, hb, hleaf⟩, hnot⟩
      exact hnot (hides_of_replaces hreplaces hb hleaf)
    · have hlower : (∃ b ∈ some (map old), b.Leaf (key :: path) x) ↔
          ∃ b ∈ fieldOf? key old, b.Leaf path x := by
        rw [← leaf_cons_iff]
        simp
      rw [overlay_map, hlower]
      cases hnew : fieldOf? key new with
      | none =>
        rw [leaf_cons_iff, fieldOf?_overlayFields_of_none hnew, or_iff_right (not_leaf_of_unbound hnew),
          and_iff_left (not_hides_of_unbound hnew)]
      | some w =>
        cases hv with
        | leaf h => cases h
        | map distinct values =>
          obtain ⟨f, hf, rfl⟩ := mem_of_fieldOf? hnew
          have hmerged := fieldOf?_overlayFields_of_some distinct hnew old
          rw [leaf_cons hmerged, leaf_cons hnew, hides_cons hnew]
          exact ih (values f hf) (fieldOf? key old)

theorem overlayFields_eq_self
    (h : ∀ f ∈ new, ∃ w, fieldOf? f.1 old = some w ∧ overlay (some w) f.2 = w) :
    overlayFields old new = old := by
  induction new with
  | nil => rfl
  | cons f rest ih =>
    obtain ⟨hf, hrest⟩ := List.forall_mem_cons.mp h
    obtain ⟨w, hw, hsame⟩ := hf
    rw [overlayFields_cons, hw, hsame, setField_eq_self hw, ih hrest]

theorem overlay_overlay (hv : v.Proper) (o : Option Value) :
    overlay (some (overlay o v)) v = overlay o v := by
  induction hv generalizing o with
  | @leaf v h =>
    have hreplaces : ∀ o, v.Replaces o := fun o hmap => by rw [h] at hmap; cases hmap
    rw [overlay_of_replaces (hreplaces _), overlay_of_replaces (hreplaces _)]
  | @map fields distinct values ih =>
    rcases (map fields).replaces_or_maps o with hreplaces | ⟨old, -, rfl, -⟩
    · rw [overlay_of_replaces hreplaces, overlay_map, overlayFields_eq_self]
      intro f hf
      have hself := ih f hf none
      rw [overlay_of_replaces (o := none) fun _ => nofun] at hself
      exact ⟨f.2, fieldOf?_of_mem distinct hf, hself⟩
    · rw [overlay_map, overlay_map, overlayFields_eq_self]
      intro f hf
      exact ⟨_, fieldOf?_overlayFields_of_some distinct (fieldOf?_of_mem distinct hf) old,
        ih f hf (fieldOf? f.1 old)⟩

/-- A configuration laid over another has all its own leaves, and of the other the leaves at whose place it
has nothing and above which it has no leaf. It has no more leaves, and laying the same configuration over
it again changes nothing. -/
theorem overlay_exact (base : List (Key × Value)) {user : List (Key × Value)} (huser : (map user).Proper) :
    let merged := overlay (some (map base)) (map user)
    let hidden path := (map user).at? path ≠ none ∨
      ∃ before ≠ [], before <+: path ∧ ∃ x, (map user).Leaf before x
    (∀ path x, (map user).Leaf path x → merged.Leaf path x) ∧
      (∀ path x, (map base).Leaf path x → merged.Leaf path x ∨ hidden path) ∧
      (∀ path x, merged.Leaf path x →
        (map user).Leaf path x ∨ (map base).Leaf path x ∧ ¬hidden path) ∧
      overlay (some merged) (map user) = merged := by
  intro merged hidden
  have hhidden : ∀ path, hidden path ↔ (map user).Hides path := by
    intro path
    rw [Hides, or_comm]
    refine or_congr_right ⟨?_, ?_⟩
    · rintro ⟨before, -, hbefore, x, hleaf⟩
      exact ⟨before, x, hbefore, hleaf⟩
    · rintro ⟨before, x, hbefore, hleaf⟩
      exact ⟨before, ne_nil_of_leaf hleaf, hbefore, x, hleaf⟩
  have hleaf : ∀ path x, merged.Leaf path x ↔
      (map user).Leaf path x ∨ (map base).Leaf path x ∧ ¬hidden path := by
    intro path x
    rw [hhidden, leaf_overlay_iff huser]
    simp
  refine ⟨fun path x h => (hleaf path x).mpr (.inl h), fun path x h => ?_,
    fun path x => (hleaf path x).mp, overlay_overlay huser _⟩
  by_cases hpath : hidden path
  · exact .inr hpath
  · exact .inl ((hleaf path x).mpr (.inr ⟨h, hpath⟩))

def sampleLower : List (Key × Value) :=
  [("a", map [("x", int 1), ("y", null)]), ("b", text "t"), ("c", map [("z", bool true)])]

def sampleUpper : List (Key × Value) :=
  [("a", map [("x", list [])]), ("b", map []), ("c", null)]

theorem proper_sampleUpper : (map sampleUpper).Proper := by
  refine .map (by decide) fun f hf => ?_
  rcases List.mem_cons.mp hf with rfl | hf
  · refine .map (List.pairwise_singleton _ _) fun g hg => ?_
    rw [List.mem_singleton.mp hg]
    exact .leaf rfl
  rcases List.mem_cons.mp hf with rfl | hf
  · exact .map .nil nofun
  · rw [List.mem_singleton.mp hf]
    exact .leaf rfl

theorem overlay_exact_sample :
    (map sampleUpper).Proper ∧
      let merged := overlay (some (map sampleLower)) (map sampleUpper)
      merged = map [("a", map [("x", list []), ("y", null)]), ("b", map []), ("c", null)] ∧
        merged.Leaf ["a", "x"] (list []) ∧
        (merged.Leaf ["b"] (text "t") ∨ (map sampleUpper).at? ["b"] ≠ none ∨
          ∃ before ≠ [], before <+: [.text "b"] ∧ ∃ x, (map sampleUpper).Leaf before x) ∧
        overlay (some merged) (map sampleUpper) = merged := by
  obtain ⟨hupper, hlower, -, hagain⟩ := overlay_exact sampleLower proper_sampleUpper
  exact ⟨proper_sampleUpper, rfl, hupper ["a", "x"] (list []) ⟨rfl, rfl⟩,
    hlower ["b"] (text "t") ⟨rfl, rfl⟩, hagain⟩

end FlowAtlas.Value
