import FlowAtlas.SyntaxTree

/-! Texts cut out of a source. Wherever a node lies, and even if it cuts through characters, the unit
separator occurs in its text only if it occurs in the source. -/

namespace FlowAtlas

namespace Text

theorem mem_of_mem_trimChars {c : Char} {cs : List Char} (h : c ∈ trimChars cs) : c ∈ cs := by
  have hleft : c ∈ trimLeft cs :=
    List.mem_reverse.mp ((List.dropWhile_sublist _).mem (List.mem_reverse.mp h))
  exact (List.dropWhile_sublist _).mem hleft

end Text

namespace Text.Utf8

theorem toNat_of_mem_encodeChar {c : Char} {b : UInt8} (h : b ∈ String.utf8EncodeChar c) :
    b.toNat = c.toNat ∨ 0x80 ≤ b.toNat := by
  have hbyte : ∀ n, b = UInt8.ofNat n → b.toNat = n % 256 := by
    rintro n rfl
    exact UInt8.toNat_ofNat'
  simp only [String.utf8EncodeChar] at h
  split at h
  · have hb := hbyte _ (List.mem_singleton.mp h)
    exact .inl (hb.trans (Nat.mod_eq_of_lt (by omega)))
  right
  split at h
  · simp only [List.mem_cons, List.not_mem_nil, or_false] at h
    rcases h with h | h <;> rw [hbyte _ h] <;> omega
  split at h
  · simp only [List.mem_cons, List.not_mem_nil, or_false] at h
    rcases h with h | h | h <;> rw [hbyte _ h] <;> omega
  · simp only [List.mem_cons, List.not_mem_nil, or_false] at h
    rcases h with h | h | h | h <;> rw [hbyte _ h] <;> omega

theorem separator_notMem_encode {s : String} (h : '\x1f' ∉ s.toList) : 0x1f ∉ encode s := by
  intro hmem
  obtain ⟨c, hc, hb⟩ := List.mem_flatMap.mp hmem
  rcases toNat_of_mem_encodeChar hb with heq | hle
  · have hsep : '\x1f' = c := Char.toNat_inj.mp heq
    exact h (hsep ▸ hc)
  · exact absurd hle (by decide)

def Partial.Long (p : Partial) : Prop :=
  0x80 ≤ p.low.toNat ∧
    (p.needed ≤ 1 ∧ 2 ≤ p.value ∨ 2 ≤ p.needed ∧ (1 ≤ p.value ∨ 0x90 ≤ p.low.toNat))

theorem long_of_start {b : UInt8} {p : Partial} (h : start b = .inr p) : p.Long := by
  have hle : ∀ a : UInt8, ¬b < a → a.toNat ≤ b.toNat := fun a h => Nat.le_of_not_lt h
  have hne : ∀ a : UInt8, b ≠ a → b.toNat ≠ a.toNat := fun a h heq => h (UInt8.toNat_inj.mp heq)
  unfold start at h
  split at h
  · cases h
  split at h
  · cases h
  have h2 := hle 0xC2 ‹_›
  split at h
  · cases h
    exact ⟨Nat.le_refl 0x80, .inl ⟨Nat.le_refl 1, Nat.le_sub_of_add_le h2⟩⟩
  have h3 := hle 0xE0 ‹_›
  split at h
  · cases h
    by_cases hb : b = 0xE0
    · subst hb
      exact ⟨by decide, .inr ⟨Nat.le_refl 2, .inr (by decide)⟩⟩
    · have hvalue : 1 ≤ b.toNat - 0xE0 :=
        Nat.le_sub_of_add_le (Nat.lt_of_le_of_ne h3 (hne _ hb).symm)
      exact ⟨by simp [hb], .inr ⟨Nat.le_refl 2, .inl hvalue⟩⟩
  have h4 := hle 0xF0 ‹_›
  split at h
  · cases h
    by_cases hb : b = 0xF0
    · subst hb
      exact ⟨by decide, .inr ⟨Nat.le_succ 2, .inr (by decide)⟩⟩
    · have hvalue : 1 ≤ b.toNat - 0xF0 :=
        Nat.le_sub_of_add_le (Nat.lt_of_le_of_ne h4 (hne _ hb).symm)
      exact ⟨by simp [hb], .inr ⟨Nat.le_succ 2, .inl hvalue⟩⟩
  · cases h

theorem Partial.Long.step {p : Partial} (h : p.Long) {b : UInt8} (hb : p.low ≤ b) :
    (p.needed ≤ 1 → 0x80 ≤ p.value * 64 + (b.toNat - 0x80)) ∧
      (¬p.needed ≤ 1 →
        Partial.Long ⟨p.seen ++ [b], p.value * 64 + (b.toNat - 0x80), p.needed - 1, 0x80, 0xBF⟩) := by
  have hlow : p.low.toNat ≤ b.toNat := hb
  obtain ⟨_, hrest⟩ := h
  refine ⟨fun hn => by omega, fun hn => ⟨Nat.le_refl 0x80, ?_⟩⟩
  simp only
  omega

theorem eq_of_ofNat_separator {n : Nat} (h : Char.ofNat n = '\x1f') : n = 0x1f := by
  by_cases hvalid : n.isValidChar
  · have hofNat : Char.ofNat n = .ofNatAux n hvalid := dif_pos hvalid
    exact congrArg Char.toNat (hofNat.symm.trans h)
  · have hofNat : Char.ofNat n = '\x00' := dif_neg hvalid
    exact absurd (hofNat.symm.trans h) (by decide)

theorem eq_of_start_separator {b : UInt8} {bs : List UInt8}
    (h : start b = .inl (.char '\x1f' bs)) : b = 0x1f := by
  unfold start at h
  split at h
  · simp only [Sum.inl.injEq, Piece.char.injEq] at h
    exact UInt8.toNat_inj.mp (eq_of_ofNat_separator h.1)
  · repeat' split at h
    all_goals cases h

theorem separator_mem_of_piecesFrom {open? : Option Partial} (ho : ∀ p ∈ open?, p.Long)
    {bs bytes : List UInt8} (h : .char '\x1f' bs ∈ piecesFrom open? bytes) : 0x1f ∈ bytes := by
  induction bytes generalizing open? with
  | nil => cases open? <;> simp [piecesFrom] at h
  | cons b rest ih =>
    -- After the byte `b` the reader is between characters, or `b` has begun one.
    have hfresh : .char '\x1f' bs ∈ piecesFrom none (b :: rest) → 0x1f ∈ b :: rest := by
      intro h
      simp only [piecesFrom] at h
      split at h
      · rename_i piece hstart
        rcases List.mem_cons.mp h with rfl | h
        · exact List.mem_cons.mpr (.inl (eq_of_start_separator hstart).symm)
        · exact List.mem_cons_of_mem b (ih (by simp) h)
      · rename_i p hstart
        refine List.mem_cons_of_mem b (ih ?_ h)
        rintro _ ⟨⟩
        exact long_of_start hstart
    cases open? with
    | none => exact hfresh h
    | some p =>
      have hp := ho p rfl
      simp only [piecesFrom] at h
      split at h
      · rename_i hrange
        obtain ⟨hlast, hnext⟩ := hp.step hrange.1
        split at h
        · rename_i hneeded
          rcases List.mem_cons.mp h with heq | h
          · simp only [Piece.char.injEq] at heq
            have := eq_of_ofNat_separator heq.1.symm
            have := hlast hneeded
            omega
          · exact List.mem_cons_of_mem b (ih (by simp) h)
        · rename_i hneeded
          refine List.mem_cons_of_mem b (ih ?_ h)
          rintro _ ⟨⟩
          exact hnext hneeded
      · rcases List.mem_cons.mp h with heq | h
        · cases heq
        · exact hfresh h

theorem separator_notMem_decodeLossy {bytes : List UInt8} (h : 0x1f ∉ bytes) :
    '\x1f' ∉ decodeLossy bytes := by
  intro hmem
  obtain ⟨piece, hpiece, hc⟩ := List.mem_map.mp hmem
  cases piece with
  | char c bs =>
    simp only at hc
    subst hc
    exact h (separator_mem_of_piecesFrom (by simp) hpiece)
  | illFormed bs reason =>
    have hc : '\uFFFD' = '\x1f' := hc
    exact absurd hc (by decide)

end Text.Utf8

namespace Source

theorem separator_notMem_text {src : Source} (h : 0x1f ∉ src.bytes) (t : SyntaxTree) :
    '\x1f' ∉ (src.text t).toList := by
  simp only [text, String.toList_ofList]
  intro hmem
  refine Text.Utf8.separator_notMem_decodeLossy ?_ (Text.mem_of_mem_trimChars hmem)
  exact fun hb => h (List.mem_of_mem_drop (List.mem_of_mem_take hb))

theorem separator_notMem_textOf {src : Source} (h : 0x1f ∉ src.bytes) (t : Option SyntaxTree) :
    '\x1f' ∉ (src.textOf t).toList := by
  cases t with
  | none => exact List.not_mem_nil
  | some t => exact separator_notMem_text h t

theorem separator_notMem_ofString {s : String} (h : '\x1f' ∉ s.toList) :
    0x1f ∉ (ofString s).bytes :=
  Text.Utf8.separator_notMem_encode h

end Source
end FlowAtlas
