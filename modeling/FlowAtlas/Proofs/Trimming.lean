import Mathlib.Data.List.DropRight
import FlowAtlas.Text.Blank
import FlowAtlas.Text.Search

/-! Texts that are trimmed, and the beginnings and endings of texts. A trimmed text is one whose first and
last character are not blank, so blanks around it are all that trimming takes away. -/

namespace FlowAtlas.Text
section
variable {a b cs : List Char}

structure Trimmed (cs : List Char) : Prop where
  head : ∀ c ∈ cs.head?, isBlank c = false
  last : ∀ c ∈ cs.getLast?, isBlank c = false

theorem trimLeft_append (ha : ∀ c ∈ a, isBlank c) (cs : List Char) :
    trimLeft (a ++ cs) = trimLeft cs :=
  List.dropWhile_append_of_pos ha

theorem trimRight_append (hb : ∀ c ∈ b, isBlank c) (cs : List Char) :
    trimRight (cs ++ b) = trimRight cs := by
  have hreverse : ∀ c ∈ b.reverse, isBlank c := fun c hc => hb c (List.mem_reverse.mp hc)
  rw [trimRight, List.reverse_append, List.dropWhile_append_of_pos hreverse, trimRight]

theorem trimLeft_eq_self (h : ∀ c ∈ cs.head?, isBlank c = false) : trimLeft cs = cs := by
  cases cs with
  | nil => rfl
  | cons c rest => exact trimLeft_cons_of_not_blank (h c rfl) rest

theorem trimRight_eq_self (h : ∀ c ∈ cs.getLast?, isBlank c = false) : trimRight cs = cs := by
  apply List.rdropWhile_eq_self_iff.mpr
  intro hne hblank
  rw [h _ (List.getLast?_eq_some_getLast hne)] at hblank
  cases hblank

theorem head_trimLeft (cs : List Char) : ∀ c ∈ (trimLeft cs).head?, isBlank c = false := by
  intro c hc
  have hnot := List.head?_dropWhile_not isBlank cs
  rw [show List.dropWhile isBlank cs = trimLeft cs from rfl, Option.mem_def.mp hc] at hnot
  exact hnot

theorem last_trimRight (cs : List Char) : ∀ c ∈ (trimRight cs).getLast?, isBlank c = false := by
  intro c hc
  apply head_trimLeft cs.reverse
  rwa [trimRight, List.getLast?_reverse] at hc

theorem trimmed_trimChars (cs : List Char) : Trimmed (trimChars cs) := by
  refine ⟨fun c hc => head_trimLeft cs c ?_, last_trimRight (trimLeft cs)⟩
  obtain ⟨blanks, hblanks⟩ := List.rdropWhile_prefix isBlank (trimLeft cs)
  rw [← hblanks]
  exact List.mem_head?_append_of_mem_head? hc

theorem trimmed_iff : Trimmed cs ↔ trimChars cs = cs := by
  constructor
  · intro h
    rw [trimChars, trimLeft_eq_self h.head, trimRight_eq_self h.last]
  · intro h
    exact h ▸ trimmed_trimChars cs

theorem trimChars_around (ha : ∀ c ∈ a, isBlank c) (hb : ∀ c ∈ b, isBlank c) (h : Trimmed cs) :
    trimChars (a ++ cs ++ b) = cs := by
  rw [trimChars, List.append_assoc, trimLeft_append ha]
  cases cs with
  | nil =>
    have hnone : trimLeft b = [] := List.dropWhile_eq_nil_iff.mpr hb
    rw [List.nil_append, hnone]
    rfl
  | cons c rest =>
    rw [List.cons_append, trimLeft_cons_of_not_blank (h.head c rfl), ← List.cons_append,
      trimRight_append hb, trimRight_eq_self h.last]

end

variable {a b s t : String}

@[simp] theorem toList_trim (s : String) : (trim s).toList = trimChars s.toList :=
  String.toList_ofList

theorem trim_trim (s : String) : trim (trim s) = trim s := by
  apply String.toList_inj.mp
  rw [toList_trim, toList_trim, trimmed_iff.mp (trimmed_trimChars s.toList)]

theorem startsWith_iff : startsWith s t = true ↔ ∃ rest, s = t ++ rest := by
  rw [startsWith, List.isPrefixOf_iff_prefix]
  constructor
  · rintro ⟨rest, h⟩
    refine ⟨String.ofList rest, String.toList_inj.mp ?_⟩
    rw [String.toList_append, String.toList_ofList, h]
  · rintro ⟨rest, rfl⟩
    rw [String.toList_append]
    exact List.prefix_append _ _

theorem endsWith_iff : endsWith s t = true ↔ ∃ rest, s = rest ++ t := by
  rw [endsWith, List.isSuffixOf_iff_suffix]
  constructor
  · rintro ⟨rest, h⟩
    refine ⟨String.ofList rest, String.toList_inj.mp ?_⟩
    rw [String.toList_append, String.toList_ofList, h]
  · rintro ⟨rest, rfl⟩
    rw [String.toList_append]
    exact List.suffix_append _ _

theorem dropStart_append (t rest : String) : dropStart (t ++ rest) t.length = rest := by
  rw [dropStart, String.toList_append, ← String.length_toList, List.drop_left, String.ofList_toList]

theorem dropEnd_append (rest t : String) : dropEnd (rest ++ t) t.length = rest := by
  rw [dropEnd, String.toList_append, List.length_append, ← String.length_toList, Nat.add_sub_cancel,
    List.take_left, String.ofList_toList]

theorem trimmed_of_trim_eq (h : trim s = s) : Trimmed s.toList :=
  trimmed_iff.mpr (by rw [← toList_trim, h])

theorem trim_eq_of_trimmed (h : Trimmed s.toList) : trim s = s := by
  rw [trim, trimmed_iff.mp h, String.ofList_toList]

theorem trim_around (ha : isAllBlank a = true) (hb : isAllBlank b = true) (h : trim s = s) :
    trim (a ++ s ++ b) = s := by
  rw [trim, String.toList_append, String.toList_append,
    trimChars_around (List.all_eq_true.mp ha) (List.all_eq_true.mp hb) (trimmed_of_trim_eq h),
    String.ofList_toList]

theorem toList_ne_nil (h : s ≠ "") : s.toList ≠ [] := fun hnil => h (String.toList_inj.mp hnil)

theorem trim_between (hs : trim s = s) (hsne : s ≠ "") (ht : trim t = t) (htne : t ≠ "")
    (middle : String) : trim (s ++ middle ++ t) = s ++ middle ++ t := by
  apply trim_eq_of_trimmed
  constructor
  · rw [String.append_assoc, String.toList_append, List.head?_append_of_ne_nil _ (toList_ne_nil hsne)]
    exact (trimmed_of_trim_eq hs).head
  · rw [String.toList_append, List.getLast?_append_of_ne_nil _ (toList_ne_nil htne)]
    exact (trimmed_of_trim_eq ht).last

theorem isAllBlank_of_trim (h : trim s = "") : isAllBlank s = true := by
  have hnil : trimChars s.toList = [] := by rw [← toList_trim, h]; rfl
  have hrest : ∀ c ∈ trimLeft s.toList, isBlank c := List.rdropWhile_eq_nil_iff.mp hnil
  have hnone : trimLeft s.toList = [] := by
    rcases hleft : trimLeft s.toList with _ | ⟨c, rest⟩
    · rfl
    · have hhead := head_trimLeft s.toList c (by rw [hleft]; rfl)
      rw [hrest c (by rw [hleft]; exact List.mem_cons_self)] at hhead
      cases hhead
  exact List.all_eq_true.mpr (List.dropWhile_eq_nil_iff.mp hnone)

theorem eq_empty_of_trailing (h : ∀ c ∈ (s ++ b).toList.getLast?, isBlank c = false)
    (hb : isAllBlank b = true) : b = "" := by
  apply String.toList_inj.mp
  apply List.getLast?_eq_none_iff.mp
  apply Option.eq_none_iff_forall_ne_some.mpr
  intro c hc
  have hlast := h c (by rw [String.toList_append]; exact List.mem_getLast?_append_of_mem_getLast? hc)
  rw [List.all_eq_true.mp hb c (List.mem_of_getLast? hc)] at hlast
  cases hlast

theorem eq_empty_of_leading (h : trim (a ++ s) = a ++ s) (ha : isAllBlank a = true) : a = "" := by
  have htrimmed := trimmed_of_trim_eq h
  apply String.toList_inj.mp
  apply List.head?_eq_none_iff.mp
  apply Option.eq_none_iff_forall_ne_some.mpr
  intro c hc
  have hhead := htrimmed.head c (by rw [String.toList_append]; exact List.mem_head?_append_of_mem_head? hc)
  rw [List.all_eq_true.mp ha c (List.mem_of_head? hc)] at hhead
  cases hhead

theorem isAllBlank_append : isAllBlank (a ++ b) = true ↔ isAllBlank a = true ∧ isAllBlank b = true := by
  rw [isAllBlank, String.toList_append, List.all_append, Bool.and_eq_true]
  rfl

end FlowAtlas.Text
