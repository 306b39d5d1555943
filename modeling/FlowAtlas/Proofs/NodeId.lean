import FlowAtlas.NodeId
import FlowAtlas.Proofs.FirstOccurrence

/-! Reading node ids back. An id is a decision exactly if the unit separator occurs in it. If the path
of a file is free of the separator, the path, the number and the display text of a decision are all
determined by the id that the decision has in a graph of many files. -/

namespace FlowAtlas

namespace NodeId

theorem isDecision_iff {id : NodeId} : isDecision id = true ↔ '\x1f' ∈ id.toList :=
  Text.occursIn_iff.trans (List.singleton_infix_iff '\x1f' id.toList)

theorem isDecision_eq_false_iff {id : NodeId} : isDecision id = false ↔ '\x1f' ∉ id.toList := by
  rw [← Bool.not_eq_true, isDecision_iff]

theorem toList_decision (n : Nat) (shown : String) :
    (decision n shown).toList =
      "_decision".toList ++ '_' :: (Nat.toDigits 10 n ++ '\x1f' :: shown.toList) := by
  simp only [decision, displayMark, String.toList_append, Nat.toString_eq_ofList_toDigits,
    String.toList_ofList, List.append_assoc]
  rfl

@[simp] theorem isDecision_decision (n : Nat) (shown : String) :
    isDecision (decision n shown) = true := by
  rw [isDecision_iff, toList_decision]
  simp

theorem isDecision_inFile {path : String} (hpath : '\x1f' ∉ path.toList) (id : NodeId) :
    isDecision (inFile path id) = isDecision id := by
  have hmark : '\x1f' ∉ fileMark.toList := by decide
  rw [Bool.eq_iff_iff, isDecision_iff, isDecision_iff]
  simp [inFile, hpath, hmark]

theorem mark_notMem_toDigits (n : Nat) : '\x1f' ∉ Nat.toDigits 10 n := by
  intro h
  have := Nat.isDigit_of_mem_toDigits (by decide) (by decide) h
  exact absurd this (by decide)

theorem toDigits_inj {m n : Nat} (h : Nat.toDigits 10 m = Nat.toDigits 10 n) : m = n := by
  rw [← Nat.ofDigitChars_ten_toDigits (n := m), h, Nat.ofDigitChars_ten_toDigits]

/-- The number of a decision is the run of digits before the mark, however the text before it ends. -/
theorem number_inj {x y : List Char} {m n : Nat}
    (h : x ++ '_' :: Nat.toDigits 10 m = y ++ '_' :: Nat.toDigits 10 n) : x = y ∧ m = n := by
  have hrev := congrArg List.reverse h
  simp only [List.reverse_append, List.reverse_cons, List.append_assoc, List.cons_append,
    List.nil_append] at hrev
  obtain ⟨hdigits, hrest⟩ := Text.append_cons_inj
    (by simp [Nat.underscore_not_in_toDigits]) (by simp [Nat.underscore_not_in_toDigits]) hrev
  exact ⟨List.reverse_inj.mp hrest, toDigits_inj (List.reverse_inj.mp hdigits)⟩

theorem mark_notMem_stem {path : String} (hpath : '\x1f' ∉ path.toList) (n : Nat) :
    '\x1f' ∉ path.toList ++ (fileMark.toList ++ ("_decision".toList ++ '_' :: Nat.toDigits 10 n)) := by
  have hfile : '\x1f' ∉ fileMark.toList := by decide
  simp [hpath, hfile, mark_notMem_toDigits]

theorem inFile_decision_inj {p q : String} {m n : Nat} {s t : String} (hp : '\x1f' ∉ p.toList)
    (hq : '\x1f' ∉ q.toList) (h : inFile p (decision m s) = inFile q (decision n t)) :
    p = q ∧ m = n ∧ s = t := by
  have hlist := congrArg String.toList h
  simp only [inFile, String.toList_append, toList_decision, List.append_assoc] at hlist
  -- The first separator of each id is the one before the display text.
  obtain ⟨hbefore, hshown⟩ := Text.append_cons_inj (mark_notMem_stem hp m) (mark_notMem_stem hq n)
    (by simpa only [List.append_assoc, List.cons_append] using hlist)
  obtain ⟨hpath, hnumber⟩ := number_inj
    (x := p.toList ++ (fileMark.toList ++ "_decision".toList))
    (y := q.toList ++ (fileMark.toList ++ "_decision".toList))
    (by simpa only [List.append_assoc] using hbefore)
  exact ⟨String.toList_inj.mp (List.append_cancel_right hpath), hnumber,
    String.toList_inj.mp hshown⟩

theorem decision_inj {m n : Nat} {s t : String} (h : decision m s = decision n t) :
    m = n ∧ s = t :=
  (inFile_decision_inj (p := "") (q := "") (by decide) (by decide) (congrArg (inFile "") h)).2

end NodeId
end FlowAtlas
