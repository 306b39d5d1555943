import FlowAtlas.Outline.OfTree
import FlowAtlas.Proofs.OutlineFacts
import FlowAtlas.Proofs.SourceText

/-! Outlines of syntax trees are built from calls, functions, decisions and branches, and what each of
these steps keeps holds of them all. So the outline of a text without the unit separator is plain, and
without decisions nothing opens. -/

namespace FlowAtlas

namespace Outline

theorem Plain.append {a b : Outline} (ha : a.Plain) (hb : b.Plain) : (a.append b).Plain := by
  induction a with
  | done => exact hb
  | call callee rest ih => exact ⟨ha.1, ih ha.2⟩
  | function name line body rest _ ih => exact ⟨ha.1, ha.2.1, ih ha.2.2⟩
  | decision display body rest _ ih => exact ⟨ha.1, ih ha.2⟩
  | branch label body rest _ ih => exact ⟨ha.1, ha.2.1, ih ha.2.2⟩

theorem concat_induction {P : Outline → Prop} (hdone : P .done)
    (happend : ∀ a b, P a → P b → P (a.append b)) {os : List Outline} (h : ∀ o ∈ os, P o) :
    P (concat os) := by
  induction os with
  | nil => exact hdone
  | cons o rest ih =>
    exact happend _ _ (h o List.mem_cons_self) (ih fun o ho => h o (List.mem_cons_of_mem _ ho))

end Outline

namespace Grammar
variable {g : Grammar} {src : Source}

/-- What holds of the empty outline and is kept by every step that outlines are built with holds of the
outline of every tree. -/
theorem outline_induction {suppress : Bool} {P : Outline → Prop} (hdone : P .done)
    (happend : ∀ a b, P a → P b → P (a.append b))
    (hcall : ∀ t callee below, g.callee? src t = some callee → P below → P (.call callee below))
    (hfunction : ∀ parent t line body, P body →
      P (.function (g.functionName src parent t) line body .done))
    (hdecision : suppress = false → ∀ display body, P body → P (.decision display body .done))
    (hbranch : ∀ t construct v label body, v ∈ g.visits src t construct →
      v.setting = .branch label → P body → P (.branch label body .done))
    (parent : Option SyntaxTree) (t : SyntaxTree) : P (g.outline src suppress parent t) := by
  induction hn : t.size using Nat.strongRecOn generalizing parent t with
  | _ n ih =>
    subst hn
    have hchildren : P (.concat (t.children.map (g.outline src suppress (some t)))) := by
      refine Outline.concat_induction hdone happend fun o ho => ?_
      obtain ⟨c, hc, rfl⟩ := List.mem_map.mp ho
      exact ih _ (SyntaxTree.size_lt_of_mem_children hc) _ c rfl
    rw [outline_eq]
    split
    · exact hdone
    split
    · exact hfunction parent t _ _ hchildren
    split
    · rename_i construct hconstruct
      have hshown : suppress = false := by
        cases suppress with
        | false => rfl
        | true => simp [shownConstruct?] at hconstruct
      refine hdecision hshown _ _ (Outline.concat_induction hdone happend fun o ho => ?_)
      obtain ⟨v, hv, rfl⟩ := List.mem_map.mp ho
      have hbelow := ih _ (size_lt_of_mem_visits hv) (some v.parent) v.tree rfl
      unfold Visit.place
      split
      · exact hbelow
      · exact hbranch t construct v _ _ hv ‹_› hbelow
    · unfold withCall
      split
      · exact hchildren
      · exact hcall t _ _ ‹_› hchildren

theorem isSome_label_of_mem_visits (hlabel : g.choice.defaultLabel.isSome = true) {t : SyntaxTree}
    {construct : Construct} {v : Visit} (hv : v ∈ g.visits src t construct) {label : Option String}
    (h : v.setting = .branch label) : label.isSome = true := by
  have hchild : ∀ {setting : Setting} {parent : SyntaxTree} {child : Option SyntaxTree},
      v ∈ Visit.ofChild setting parent child → setting = .branch label := by
    intro setting parent child hmem
    obtain ⟨c, _, rfl⟩ := List.mem_map.mp hmem
    exact h
  cases construct with
  | conditional =>
    simp only [visits, IfRule.visits, List.mem_append, List.mem_flatMap] at hv
    rcases hv with (((hv | hv) | hv) | ⟨_, _, hv | hv⟩) | ⟨_, _, hv⟩ <;> cases hchild hv <;> rfl
  | loop =>
    obtain ⟨c, _, rfl⟩ := List.mem_map.mp hv
    simp only at h
    split at h
    · cases h
      rfl
    · cases h
  | choice =>
    simp only [visits, MatchRule.visits, List.mem_append, List.mem_flatMap] at hv
    rcases hv with hv | ⟨arm, _, hv⟩
    · cases hchild hv
    · obtain ⟨c, _, rfl⟩ := List.mem_map.mp hv
      cases h
      simp only [MatchRule.armLabel]
      split
      · exact hlabel
      · rfl

theorem isDecision_functionName (hsrc : 0x1f ∉ src.bytes) (parent : Option SyntaxTree)
    (t : SyntaxTree) : NodeId.isDecision (g.functionName src parent t) = false := by
  rw [NodeId.isDecision_eq_false_iff]
  unfold functionName
  extract_lets name
  have hname : '\x1f' ∉ name.toList := by
    simp only [name]
    split
    · exact Source.separator_notMem_textOf hsrc _
    split
    · exact List.not_mem_nil
    split
    · exact Source.separator_notMem_textOf hsrc _
    · exact List.not_mem_nil
  split
  · decide
  · exact hname

theorem separator_notMem_calleeName (hsrc : 0x1f ∉ src.bytes) (t : SyntaxTree) :
    '\x1f' ∉ (g.calleeName src t).toList := by
  unfold calleeName
  split
  · exact List.not_mem_nil
  · rename_i called _
    extract_lets last
    have hlast : '\x1f' ∉ last.toList := by
      simp only [last]
      split
      · exact Source.separator_notMem_textOf hsrc _
      split
      · exact Source.separator_notMem_textOf hsrc _
      · exact List.not_mem_nil
    split
    · exact Source.separator_notMem_text hsrc called
    · exact hlast

theorem isDecision_callee (hsrc : 0x1f ∉ src.bytes) {t : SyntaxTree} {callee : String}
    (h : g.callee? src t = some callee) : NodeId.isDecision callee = false := by
  simp only [callee?, Option.ite_none_right_eq_some, Option.ite_none_left_eq_some,
    Option.some.injEq] at h
  obtain ⟨_, _, rfl⟩ := h
  exact NodeId.isDecision_eq_false_iff.mpr (separator_notMem_calleeName hsrc t)

theorem plain_outline (hlabel : g.choice.defaultLabel.isSome = true) (hsrc : 0x1f ∉ src.bytes)
    (suppress : Bool) (parent : Option SyntaxTree) (t : SyntaxTree) :
    (g.outline src suppress parent t).Plain := by
  refine outline_induction (P := Outline.Plain) trivial (fun a b => .append) ?_ ?_ ?_ ?_ parent t
  · exact fun t callee below h hbelow => ⟨isDecision_callee hsrc h, hbelow⟩
  · exact fun parent t line body hbody => ⟨isDecision_functionName hsrc parent t, hbody, trivial⟩
  · exact fun _ display body hbody => ⟨hbody, trivial⟩
  · exact fun t construct v label body hv h hbody =>
      ⟨isSome_label_of_mem_visits hlabel hv h, hbody, trivial⟩

theorem decisions_outline_true (parent : Option SyntaxTree) (t : SyntaxTree) :
    (g.outline src true parent t).decisions = 0 := by
  refine outline_induction (P := fun o => o.decisions = 0) rfl ?_ ?_ ?_ (by simp) ?_ parent t
  · exact fun a b ha hb => by rw [Outline.decisions_append, ha, hb]
  · exact fun t callee below _ h => h
  · exact fun parent t line body h => h
  · exact fun t construct v label body _ _ h => h

end Grammar
end FlowAtlas
