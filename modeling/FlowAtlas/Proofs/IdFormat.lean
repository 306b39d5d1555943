import FlowAtlas.Proofs.FirstOccurrence
import FlowAtlas.Proofs.NodeId

/-! The format of the ids in a graph of many files. An id is taken apart into a path and the id within the
file exactly if the two join to it and the path is separable, so the ids of files with such paths can be
read back, whatever names and display texts they hold. -/

namespace FlowAtlas.NodeId

/-- A path that every id of its file gives back: no mark stands in it, and none begins at its end. -/
structure Separable (path : String) : Prop where
  unmarked : ¬ fileMark.toList <:+: path.toList
  ending : path.toList.getLast? ≠ some ':'

theorem toList_fileMark : fileMark.toList = [':', ':'] := rfl

theorem Separable.eq_nil {path : String} (h : Separable path) {before c x y : List Char}
    (hpath : path.toList = before ++ c) (hmark : fileMark.toList ++ x = c ++ fileMark.toList ++ y) :
    c = [] := by
  rw [toList_fileMark] at hmark
  match c with
  | [] => rfl
  | [a] =>
    obtain ⟨rfl, _⟩ := List.cons.inj hmark
    exact absurd (by rw [hpath, List.getLast?_concat]) h.ending
  | a :: b :: rest =>
    obtain ⟨rfl, hrest⟩ := List.cons.inj hmark
    obtain ⟨rfl, _⟩ := List.cons.inj hrest
    exact absurd ⟨before, rest, by rw [hpath, List.append_assoc]; rfl⟩ h.unmarked

theorem separable_of_firstCut {path : String} {id bare : List Char}
    (h : Text.FirstCut fileMark.toList id path.toList bare) : Separable path := by
  have hid := h.joined
  constructor
  · intro hmark
    obtain ⟨x, y, hpath⟩ := hmark
    have hearlier : path.toList.length ≤ x.length := by
      apply h.first x (y ++ fileMark.toList ++ bare)
      simp only [hid, ← hpath, List.append_assoc]
    have hlength : path.toList.length = x.length + 2 + y.length := by
      rw [← hpath, toList_fileMark, List.length_append, List.length_append]
      rfl
    omega
  · intro hcolon
    obtain ⟨x, hpath⟩ := List.getLast?_eq_some_iff.mp hcolon
    -- The colon at the end and the first one of the mark would make a mark of their own.
    have hearlier : path.toList.length ≤ x.length := by
      apply h.first x (':' :: bare)
      rw [hid, hpath, toList_fileMark]
      simp
    rw [hpath, List.length_append] at hearlier
    exact absurd hearlier (Nat.not_succ_le_self x.length)

theorem splitFile_eq_some_iff {id path bare : String} :
    splitFile id = (some path, bare) ↔ Separable path ∧ inFile path bare = id := by
  constructor
  · intro h
    have hcut : Text.cut fileMark id = some (path, bare) := by
      unfold splitFile at h
      split at h
      · cases h
      · cases h
        assumption
    have hfirst := Text.cut_eq_some_iff.mp hcut
    refine ⟨separable_of_firstCut hfirst, String.toList_inj.mp ?_⟩
    rw [hfirst.joined, inFile, String.toList_append, String.toList_append]
  · rintro ⟨hpath, rfl⟩
    have hcut : Text.cut fileMark (inFile path bare) = some (path, bare) := by
      rw [Text.cut_eq_some_iff, inFile, String.toList_append, String.toList_append]
      apply Text.FirstCut.of_append
      exact fun x c y => hpath.eq_nil
    rw [splitFile, hcut]

theorem splitFile_cases (id : NodeId) :
    (fileMark.toList <:+: id.toList ∧ ∃ path bare, splitFile id = (some path, bare)) ∨
      (¬ fileMark.toList <:+: id.toList ∧ splitFile id = (none, id)) := by
  cases hcut : Text.cut fileMark id with
  | none => exact .inr ⟨Text.cut_eq_none_iff.mp hcut, by rw [splitFile, hcut]⟩
  | some pieces =>
    obtain ⟨path, bare⟩ := pieces
    exact .inl ⟨(Text.cut_eq_some_iff.mp hcut).isInfix, path, bare, by rw [splitFile, hcut]⟩

theorem inFile_inj {p q : String} {x y : NodeId} (hp : Separable p) (hq : Separable q)
    (h : inFile p x = inFile q y) : p = q ∧ x = y := by
  have hleft : splitFile (inFile p x) = (some p, x) := splitFile_eq_some_iff.mpr ⟨hp, rfl⟩
  have hright : splitFile (inFile p x) = (some q, y) := splitFile_eq_some_iff.mpr ⟨hq, h.symm⟩
  cases hleft.symm.trans hright
  exact ⟨rfl, rfl⟩

theorem display_of_firstCut {id shown : String} {before : List Char}
    (h : Text.FirstCut displayMark.toList id.toList before shown.toList) : display id = shown := by
  have hcut : Text.cut displayMark id = some (String.ofList before, shown) :=
    Text.cut_eq_some_iff.mpr (by rwa [String.toList_ofList])
  rw [display, hcut]

theorem display_inFile_decision {path : String} (hpath : '\x1f' ∉ path.toList) (n : Nat)
    (shown : String) : display (inFile path (decision n shown)) = shown := by
  have hid : (inFile path (decision n shown)).toList =
      path.toList ++ (fileMark.toList ++ ("_decision".toList ++ '_' :: Nat.toDigits 10 n)) ++
        '\x1f' :: shown.toList := by
    simp only [inFile, String.toList_append, toList_decision, List.append_assoc, List.cons_append]
  apply display_of_firstCut
  rw [hid]
  exact Text.FirstCut.of_notMem (mark_notMem_stem hpath n)

/-- Reading an id gives back the path and the id within the file exactly if the path is separable, and what is
read of an id with a mark in it joins to the id again. So ids of separable paths are equal only if paths and
ids within the files are. If the separator is not in the path, the id of a decision shows the display text,
and path, number and display text are determined by it. -/
theorem format_exact :
    (∀ path bare, splitFile (inFile path bare) = (some path, bare) ↔ Separable path) ∧
      (∀ id, fileMark.toList <:+: id.toList →
        ∃ path bare, splitFile id = (some path, bare) ∧ inFile path bare = id) ∧
      (∀ p q x y, Separable p → Separable q → inFile p x = inFile q y → p = q ∧ x = y) ∧
      (∀ path n shown, '\x1f' ∉ path.toList → display (inFile path (decision n shown)) = shown) ∧
      ∀ p q m n s t, '\x1f' ∉ p.toList → '\x1f' ∉ q.toList →
        inFile p (decision m s) = inFile q (decision n t) → p = q ∧ m = n ∧ s = t := by
  refine ⟨fun path bare => ?_, fun id hmark => ?_, fun p q x y hp hq h => inFile_inj hp hq h,
    fun path n shown hpath => display_inFile_decision hpath n shown,
    fun p q m n s t hp hq h => inFile_decision_inj hp hq h⟩
  · rw [splitFile_eq_some_iff, and_iff_left rfl]
  · rcases splitFile_cases id with ⟨-, path, bare, hsplit⟩ | ⟨hunmarked, -⟩
    · exact ⟨path, bare, hsplit, (splitFile_eq_some_iff.mp hsplit).2⟩
    · exact absurd hmark hunmarked

theorem format_exact_sample :
    Separable "a:b.rs" ∧ splitFile (inFile "a:b.rs" ":f") = (some "a:b.rs", ":f") ∧
      fileMark.toList <:+: "a:::f".toList ∧
      (∃ path bare, splitFile "a:::f" = (some path, bare) ∧ inFile path bare = "a:::f") ∧
      '\x1f' ∉ "a:b.rs".toList ∧
      display (inFile "a:b.rs" (decision 3 "match Kind::A\x1f")) = "match Kind::A\x1f" := by
  have hpath : Separable "a:b.rs" := ⟨by decide +kernel, by decide +kernel⟩
  have hmark : fileMark.toList <:+: "a:::f".toList := by decide +kernel
  have hfree : '\x1f' ∉ "a:b.rs".toList := by decide +kernel
  exact ⟨hpath, (format_exact.1 "a:b.rs" ":f").mpr hpath, hmark, format_exact.2.1 "a:::f" hmark, hfree,
    format_exact.2.2.2.1 "a:b.rs" 3 "match Kind::A\x1f" hfree⟩

end FlowAtlas.NodeId
