import FlowAtlas.Text.Search

/-! Line breaks made one character. Nothing else changes, and parts of a text change by themselves unless the
cut goes through a break. -/

namespace FlowAtlas.Text

theorem mem_unifyBreaks {c : Char} {s : List Char} (h : c ∈ unifyBreaks s) :
    c = '\n' ∨ c ∈ s := by
  fun_induction unifyBreaks s with
  | case1 => exact .inr h
  | case2 rest ih =>
    rcases List.mem_cons.mp h with rfl | h
    · exact .inl rfl
    · exact (ih h).imp_right fun h => List.mem_cons_of_mem _ (List.mem_cons_of_mem _ h)
  | case3 d rest _ ih =>
    rcases List.mem_cons.mp h with rfl | h
    · by_cases hd : d = '\r'
      · exact .inl (by simp [hd])
      · exact .inr (by simp [hd])
    · exact (ih h).imp_right (List.mem_cons_of_mem _)

theorem unifyBreaks_cons {c : Char} {cs : List Char} (h : c = '\r' → cs.head? ≠ some '\n') :
    unifyBreaks (c :: cs) = (if c == '\r' then '\n' else c) :: unifyBreaks cs := by
  rw [unifyBreaks]
  rintro rest rfl rfl
  exact h rfl rfl

theorem getLast?_cons_of_some {α : Type} {a b : α} {xs : List α} (h : xs.getLast? = some b) :
    (a :: xs).getLast? = some b := by
  simp [List.getLast?_cons, h]

/-- Breaks are unified part by part, unless the cut goes through one. -/
theorem unifyBreaks_append {xs ys : List Char} (h : xs.getLast? = some '\r' → ys.head? ≠ some '\n') :
    unifyBreaks (xs ++ ys) = unifyBreaks xs ++ unifyBreaks ys := by
  fun_induction unifyBreaks xs with
  | case1 => rfl
  | case2 rest ih =>
    have hrest := ih fun hlast => h (getLast?_cons_of_some (getLast?_cons_of_some hlast))
    rw [List.cons_append, List.cons_append, unifyBreaks, hrest, List.cons_append]
  | case3 c rest hbreak ih =>
    have hrest := ih fun hlast => h (getLast?_cons_of_some hlast)
    have hhead : c = '\r' → (rest ++ ys).head? ≠ some '\n' := by
      rintro rfl
      cases rest with
      | nil => exact h rfl
      | cons d rest =>
        intro hd
        obtain rfl := Option.some.inj hd
        exact hbreak rest rfl rfl
    rw [List.cons_append, unifyBreaks_cons hhead, hrest, List.cons_append]

theorem length_unifyBreaks_le (cs : List Char) : (unifyBreaks cs).length ≤ cs.length := by
  fun_induction unifyBreaks cs with
  | case1 => exact Nat.le_refl 0
  | case2 rest ih =>
    simp only [List.length_cons]
    omega
  | case3 c rest hbreak ih => exact Nat.succ_le_succ ih

end FlowAtlas.Text
