import FlowAtlas.Text.Search
import Mathlib.Data.List.Infix

/-! Where a text is cut. A cut exists exactly if the part occurs in the text, and then it is the only one
that leaves both pieces around the part with no occurrence further to the left. -/

namespace FlowAtlas.Text
variable {part s before after : List Char}

/-- The two pieces around an occurrence of the part, of which no other begins further to the left. -/
structure FirstCut (part s before after : List Char) : Prop where
  joined : s = before ++ part ++ after
  first : ∀ x y, s = x ++ part ++ y → before.length ≤ x.length

theorem FirstCut.isInfix (h : FirstCut part s before after) : part <:+: s :=
  ⟨before, after, h.joined.symm⟩

theorem FirstCut.unique {before' after' : List Char} (h : FirstCut part s before after)
    (h' : FirstCut part s before' after') : before = before' ∧ after = after' := by
  have hlength : before.length = before'.length :=
    Nat.le_antisymm (h.first before' after' h'.joined) (h'.first before after h.joined)
  have hjoined : before ++ part ++ after = before' ++ part ++ after' := h.joined.symm.trans h'.joined
  have hparts := List.append_inj hjoined (by simp [hlength])
  exact ⟨List.append_cancel_right hparts.1, hparts.2⟩

theorem FirstCut.of_append
    (h : ∀ x c y, before = x ++ c → part ++ y = c ++ part ++ after → c = []) :
    FirstCut part (before ++ part ++ after) before after := by
  refine ⟨rfl, fun x y hs => ?_⟩
  rw [List.append_assoc, List.append_assoc] at hs
  rcases List.append_eq_append_iff.mp hs with ⟨c, rfl, -⟩ | ⟨c, hbefore, hpart⟩
  · simp
  · have hc : c = [] := h x c y hbefore (by rw [hpart, List.append_assoc])
    simp [hbefore, hc]

theorem FirstCut.of_notMem {c : Char} (h : c ∉ before) :
    FirstCut [c] (before ++ c :: after) before after := by
  rw [List.append_cons]
  apply FirstCut.of_append
  intro x d y hbefore hpart
  cases d with
  | nil => rfl
  | cons a d =>
    obtain ⟨rfl, -⟩ := List.cons.inj hpart
    exact absurd (hbefore ▸ List.mem_append_right x List.mem_cons_self) h

/-- What stands before and after the first occurrence of a separator is determined. -/
theorem append_cons_inj {c : Char} {x y u v : List Char} (hx : c ∉ x) (hy : c ∉ y)
    (h : x ++ c :: u = y ++ c :: v) : x = y ∧ u = v := by
  have hright : FirstCut [c] (x ++ c :: u) y v := h ▸ FirstCut.of_notMem hy
  exact (FirstCut.of_notMem hx).unique hright

theorem isSome_cutChars_iff : (cutChars part s).isSome = true ↔ part <:+: s := by
  induction s with
  | nil =>
    rw [cutChars, List.infix_nil]
    cases part <;> simp
  | cons c rest ih =>
    rw [cutChars, List.infix_cons_iff, ← ih, ← List.isPrefixOf_iff_prefix]
    by_cases hstart : part.isPrefixOf (c :: rest) = true
    · simp [hstart]
    · simp [hstart]

theorem length_le_of_cutChars (h : cutChars part s = some (before, after)) {x y : List Char}
    (hs : s = x ++ part ++ y) : before.length ≤ x.length := by
  induction s generalizing before x with
  | nil =>
    simp only [cutChars] at h
    split at h
    · cases h
      exact Nat.zero_le _
    · cases h
  | cons c rest ih =>
    simp only [cutChars] at h
    split at h
    · cases h
      exact Nat.zero_le _
    · rename_i hstart
      obtain ⟨⟨b, a⟩, hcut, hpieces⟩ := Option.map_eq_some_iff.mp h
      obtain ⟨rfl, rfl⟩ := Prod.mk.inj hpieces
      -- An occurrence at the very beginning would have been taken at once.
      cases x with
      | nil => exact absurd (List.isPrefixOf_iff_prefix.mpr ⟨y, hs.symm⟩) hstart
      | cons d x =>
        have hrest : rest = x ++ part ++ y := (List.cons.inj hs).2
        exact Nat.succ_le_succ (ih hcut hrest)

theorem cutChars_eq_some_iff : cutChars part s = some (before, after) ↔ FirstCut part s before after := by
  have hfirst : ∀ {b a}, cutChars part s = some (b, a) → FirstCut part s b a := fun h =>
    ⟨append_of_cutChars h, fun _ _ => length_le_of_cutChars h⟩
  refine ⟨hfirst, fun h => ?_⟩
  obtain ⟨⟨b, a⟩, hcut⟩ := Option.isSome_iff_exists.mp (isSome_cutChars_iff.mpr h.isInfix)
  obtain ⟨rfl, rfl⟩ := (hfirst hcut).unique h
  exact hcut

theorem occursIn_iff {part s : String} : occursIn part s = true ↔ part.toList <:+: s.toList :=
  isSome_cutChars_iff

theorem cut_eq_some_iff {part s before after : String} :
    cut part s = some (before, after) ↔
      FirstCut part.toList s.toList before.toList after.toList := by
  rw [← cutChars_eq_some_iff, cut, Option.map_eq_some_iff]
  constructor
  · intro h
    obtain ⟨⟨b, a⟩, hcut, hpieces⟩ := h
    obtain ⟨rfl, rfl⟩ := Prod.mk.inj hpieces
    rw [hcut, String.toList_ofList, String.toList_ofList]
  · intro h
    exact ⟨_, h, Prod.ext String.ofList_toList String.ofList_toList⟩

theorem cut_eq_none_iff {part s : String} : cut part s = none ↔ ¬ part.toList <:+: s.toList := by
  rw [← isSome_cutChars_iff, cut, Option.map_eq_none_iff, Bool.not_eq_true, Option.isSome_eq_false_iff,
    Option.isNone_iff_eq_none]

end FlowAtlas.Text
