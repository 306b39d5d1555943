/-! Lists without repetition and in order. -/

namespace FlowAtlas

theorem nodup_eraseDups {α : Type} [BEq α] [LawfulBEq α] : ∀ l : List α, l.eraseDups.Nodup
  | [] => .nil
  | a :: rest => by
    rw [List.eraseDups_cons, List.nodup_cons, List.mem_eraseDups]
    exact ⟨by simp, nodup_eraseDups _⟩
termination_by l => l.length
decreasing_by exact Nat.lt_succ_of_le (List.length_filter_le _ _)

theorem eraseDups_of_nodup {α : Type} [BEq α] [LawfulBEq α] {l : List α} (h : l.Nodup) :
    l.eraseDups = l := by
  induction l with
  | nil => rfl
  | cons a rest ih =>
    obtain ⟨ha, hrest⟩ := List.nodup_cons.mp h
    have hkept : (rest.filter fun b => !b == a) = rest := by
      refine List.filter_eq_self.mpr fun b hb => ?_
      have hne : b ≠ a := fun heq => ha (heq ▸ hb)
      simpa using hne
    rw [List.eraseDups_cons, hkept, ih hrest]

def sortTexts (l : List String) : List String :=
  l.mergeSort fun a b => decide (a ≤ b)

@[simp] theorem mem_sortTexts {a : String} {l : List String} : a ∈ sortTexts l ↔ a ∈ l :=
  List.mem_mergeSort

theorem sortTexts_perm (l : List String) : (sortTexts l).Perm l :=
  List.mergeSort_perm _ _

theorem pairwise_sortTexts (l : List String) : (sortTexts l).Pairwise (· ≤ ·) := by
  have h : (sortTexts l).Pairwise fun a b => decide (a ≤ b) = true :=
    List.pairwise_mergeSort
      (fun _ _ _ h₁ h₂ => by
        simp only [decide_eq_true_eq] at *
        exact String.le_trans h₁ h₂)
      (fun a b => by simpa using String.le_total a b) l
  exact h.imp fun h => by simpa using h

theorem sortTexts_eq_of_perm {l l' : List String} (h : l.Perm l') : sortTexts l = sortTexts l' := by
  have hperm : (sortTexts l).Perm (sortTexts l') :=
    ((sortTexts_perm l).trans h).trans (sortTexts_perm l').symm
  apply hperm.eq_of_pairwise _ (pairwise_sortTexts l) (pairwise_sortTexts l')
  exact fun _ _ _ _ => String.le_antisymm

def lexLe (le : String → String → Bool) : List String → List String → Bool
  | [], _ => true
  | _ :: _, [] => false
  | a :: as, b :: bs => if a = b then lexLe le as bs else le a b

end FlowAtlas
