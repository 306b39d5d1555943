import FlowAtlas.Proofs.IdFormat
import FlowAtlas.Trace

/-! The node that a text chooses: the id itself, else the first id that is named or shown as the text, else
the first that contains it. Names and display texts are looked up together, so a decision that is shown as the
text comes before a function with that name if its id does. -/

namespace FlowAtlas

theorem find?_eq_some_iff_least {p : String → Bool} {l : List String} (hl : l.Pairwise (· ≤ ·))
    {a : String} :
    l.find? p = some a ↔ a ∈ l ∧ p a = true ∧ ∀ b ∈ l, p b = true → a ≤ b := by
  have hleast : ∀ {a}, l.find? p = some a → a ∈ l ∧ p a = true ∧ ∀ b ∈ l, p b = true → a ≤ b := by
    intro a hfound
    obtain ⟨hp, before, after, rfl, hbefore⟩ := List.find?_eq_some_iff_append.mp hfound
    refine ⟨by simp, hp, fun b hb hpb => ?_⟩
    rcases List.mem_append.mp hb with hb | hb
    · have hnot := hbefore b hb
      rw [hpb] at hnot
      cases hnot
    · rcases List.mem_cons.mp hb with rfl | hb
      · exact String.le_refl _
      · have hafter := (List.pairwise_append.mp hl).2.1
        exact List.rel_of_pairwise_cons hafter hb
  refine ⟨hleast, fun ⟨ha, hp, hle⟩ => ?_⟩
  obtain ⟨b, hfound⟩ := Option.isSome_iff_exists.mp (List.find?_isSome.mpr ⟨a, ha, hp⟩)
  obtain ⟨hb, hpb, hleb⟩ := hleast hfound
  rw [hfound, String.le_antisymm (hleb a ha hp) (hle b hb hpb)]

namespace NodeId

def bare (id : NodeId) : NodeId :=
  (splitFile id).2

theorem bare_suffix (id : NodeId) : (bare id).toList <:+ id.toList := by
  rcases splitFile_cases id with ⟨-, path, rest, hsplit⟩ | ⟨-, hsplit⟩
  · have hid := (splitFile_eq_some_iff.mp hsplit).2
    rw [bare, hsplit, ← hid, inFile, String.toList_append]
    exact List.suffix_append _ _
  · rw [bare, hsplit]

theorem display_suffix (id : NodeId) : (display id).toList <:+ id.toList := by
  cases hcut : Text.cut displayMark id with
  | none => rw [display, hcut]
  | some pieces =>
    rw [display, hcut, (Text.cut_eq_some_iff.mp hcut).joined]
    exact List.suffix_append _ _

theorem display_bare_of_not_decision {id : NodeId} (h : isDecision id = false) :
    display (bare id) = bare id := by
  have hunmarked : ¬ displayMark.toList <:+: (bare id).toList := by
    intro hmark
    have hdecision : isDecision id = true :=
      Text.occursIn_iff.mpr (hmark.trans (bare_suffix id).isInfix)
    rw [h] at hdecision
    cases hdecision
  rw [display, Text.cut_eq_none_iff.mpr hunmarked]

end NodeId

namespace Graph
open NodeId
variable {g : Graph} {text : String} {id : NodeId}

structure First (g : Graph) (P : NodeId → Prop) (id : NodeId) : Prop where
  mem : id ∈ g.mentioned
  holds : P id
  le : ∀ other ∈ g.mentioned, P other → id ≤ other

def NamedOrShown (text : String) (id : NodeId) : Prop :=
  bare id = text ∨ display (bare id) = text

instance (text : String) (id : NodeId) : Decidable (NamedOrShown text id) :=
  inferInstanceAs (Decidable (bare id = text ∨ display (bare id) = text))

def Contains (text : String) (id : NodeId) : Prop :=
  text.toList <:+: id.toList

/-- The node that a text stands for: itself, or else the first that is named or shown so, or else the first
that the text occurs in. -/
inductive Chosen (g : Graph) (text : String) : NodeId → Prop
  | exact : text ∈ g.mentioned → Chosen g text text
  | called {id : NodeId} : text ∉ g.mentioned → g.First (NamedOrShown text) id → Chosen g text id
  | within {id : NodeId} : text ∉ g.mentioned → (∀ other ∈ g.mentioned, ¬ NamedOrShown text other) →
      g.First (Contains text) id → Chosen g text id

theorem isCalled_iff : isCalled id text = true ↔ NamedOrShown text id := by
  simp only [isCalled, Bool.or_eq_true, beq_iff_eq]
  exact Iff.rfl

theorem NamedOrShown.contains (h : NamedOrShown text id) : Contains text id := by
  rcases h with rfl | rfl
  · exact (bare_suffix id).isInfix
  · exact ((display_suffix (bare id)).trans (bare_suffix id)).isInfix

theorem find?_nodeIds_eq_some_iff {p : NodeId → Bool} {P : NodeId → Prop} (hp : ∀ id, p id = true ↔ P id) :
    g.nodeIds.find? p = some id ↔ g.First P id := by
  have hsorted : g.nodeIds.Pairwise (· ≤ ·) := pairwise_sortTexts _
  rw [find?_eq_some_iff_least hsorted]
  simp only [mem_nodeIds, hp]
  exact ⟨fun ⟨hmem, hid, hle⟩ => ⟨hmem, hid, hle⟩, fun h => ⟨h.mem, h.holds, h.le⟩⟩

theorem find?_nodeIds_eq_none_iff {p : NodeId → Bool} {P : NodeId → Prop} (hp : ∀ id, p id = true ↔ P id) :
    g.nodeIds.find? p = none ↔ ∀ id ∈ g.mentioned, ¬ P id := by
  simp only [List.find?_eq_none, mem_nodeIds, hp]

theorem exists_first {P : NodeId → Prop} (h : ∃ id ∈ g.mentioned, P id) : ∃ id, g.First P id := by
  classical
  have hp : ∀ id, decide (P id) = true ↔ P id := fun id => decide_eq_true_iff
  cases hfound : g.nodeIds.find? fun id => decide (P id) with
  | none =>
    obtain ⟨id, hid, hholds⟩ := h
    exact absurd hholds ((find?_nodeIds_eq_none_iff hp).mp hfound id hid)
  | some id => exact ⟨id, (find?_nodeIds_eq_some_iff hp).mp hfound⟩

theorem resolve?_of_mem (h : text ∈ g.mentioned) : g.resolve? text = some text :=
  if_pos (mem_nodeIds.mpr h)

theorem resolve?_of_called (h : text ∉ g.mentioned) (hid : g.First (NamedOrShown text) id) :
    g.resolve? text = some id := by
  have hfound := (find?_nodeIds_eq_some_iff fun _ => isCalled_iff).mpr hid
  rw [resolve?, if_neg (mt mem_nodeIds.mp h), hfound]

theorem resolve?_of_not_called (h : text ∉ g.mentioned)
    (hnone : ∀ other ∈ g.mentioned, ¬ NamedOrShown text other) :
    g.resolve? text = g.nodeIds.find? (Text.occursIn text) := by
  have hfound := (find?_nodeIds_eq_none_iff fun _ => isCalled_iff).mpr hnone
  rw [resolve?, if_neg (mt mem_nodeIds.mp h), hfound]

theorem resolve?_of_chosen (h : g.Chosen text id) : g.resolve? text = some id := by
  cases h with
  | exact h => exact resolve?_of_mem h
  | called h hid => exact resolve?_of_called h hid
  | within h hnone hid =>
    rw [resolve?_of_not_called h hnone]
    exact (find?_nodeIds_eq_some_iff fun _ => Text.occursIn_iff).mpr hid

theorem Chosen.contains (h : g.Chosen text id) : id ∈ g.mentioned ∧ Contains text id := by
  cases h with
  | exact h => exact ⟨h, List.infix_rfl⟩
  | called _ hid => exact ⟨hid.mem, hid.holds.contains⟩
  | within _ _ hid => exact ⟨hid.mem, hid.holds⟩

theorem exists_chosen (h : ∃ id ∈ g.mentioned, Contains text id) : ∃ id, g.Chosen text id := by
  by_cases htext : text ∈ g.mentioned
  · exact ⟨text, .exact htext⟩
  by_cases hcalled : ∃ id ∈ g.mentioned, NamedOrShown text id
  · obtain ⟨id, hid⟩ := exists_first hcalled
    exact ⟨id, .called htext hid⟩
  · obtain ⟨id, hid⟩ := exists_first h
    have hnone : ∀ other ∈ g.mentioned, ¬ NamedOrShown text other :=
      fun other hmem hother => hcalled ⟨other, hmem, hother⟩
    exact ⟨id, .within htext hnone hid⟩

theorem resolve?_eq_none_iff : g.resolve? text = none ↔ ∀ id ∈ g.mentioned, ¬ Contains text id := by
  constructor
  · intro hnone id hid hcontains
    obtain ⟨chosen, hchosen⟩ := exists_chosen ⟨id, hid, hcontains⟩
    rw [resolve?_of_chosen hchosen] at hnone
    cases hnone
  · intro hnone
    have htext : text ∉ g.mentioned := fun h => hnone text h List.infix_rfl
    rw [resolve?_of_not_called htext fun other hmem hother => hnone other hmem hother.contains]
    exact (find?_nodeIds_eq_none_iff fun _ => Text.occursIn_iff).mpr hnone

theorem resolve?_eq_some_iff : g.resolve? text = some id ↔ g.Chosen text id := by
  refine ⟨fun h => ?_, resolve?_of_chosen⟩
  have hcontains : ∃ id ∈ g.mentioned, Contains text id := by
    by_contra hnone
    rw [resolve?_eq_none_iff.mpr fun id hid hcontains => hnone ⟨id, hid, hcontains⟩] at h
    cases h
  obtain ⟨chosen, hchosen⟩ := exists_chosen hcontains
  rw [resolve?_of_chosen hchosen] at h
  cases h
  exact hchosen

/-- A text that is the name of some id, and no id itself, chooses an id with that name exactly if each decision
that is shown as the text has one before it. -/
theorem chosen_named_iff (htext : text ∉ g.mentioned) (hnamed : ∃ id ∈ g.mentioned, bare id = text) :
    (∃ id, g.Chosen text id ∧ bare id = text) ↔
      ∀ shown ∈ g.mentioned, isDecision shown = true → display (bare shown) = text →
        ∃ id ∈ g.mentioned, bare id = text ∧ id ≤ shown := by
  have hcalled : ∃ id ∈ g.mentioned, NamedOrShown text id :=
    hnamed.imp fun _ h => ⟨h.1, .inl h.2⟩
  obtain ⟨first, hfirst⟩ := exists_first hcalled
  constructor
  · rintro ⟨id, hid, hbare⟩ shown hshown - hdisplay
    have hchosen := resolve?_of_chosen hid
    rw [resolve?_of_called htext hfirst] at hchosen
    cases hchosen
    exact ⟨first, hfirst.mem, hbare, hfirst.le shown hshown (.inr hdisplay)⟩
  · intro hbefore
    refine ⟨first, .called htext hfirst, ?_⟩
    rcases hfirst.holds with hbare | hdisplay
    · exact hbare
    -- If the first one is a decision, one with the name stands before it, and that can only be itself.
    cases hdecision : isDecision first with
    | false => exact (display_bare_of_not_decision hdecision).symm.trans hdisplay
    | true =>
      obtain ⟨id, hid, hbare, hle⟩ := hbefore first hfirst.mem hdecision hdisplay
      obtain rfl := String.le_antisymm hle (hfirst.le id hid (.inl hbare))
      exact hbare

/-- A text chooses the id that it is, else the first that is named or shown so, else the first that contains it,
and none exactly if no id contains it. A name that is no id chooses a node with that name exactly if no decision
that is shown as the name comes before all of these. -/
theorem resolve_precedence (g : Graph) (text : String) :
    (∀ id, g.resolve? text = some id ↔ g.Chosen text id) ∧
      (text ∈ g.mentioned → g.resolve? text = some text) ∧
      (text ∉ g.mentioned → (∃ id ∈ g.mentioned, bare id = text) →
        ((∃ id, g.resolve? text = some id ∧ bare id = text) ↔
          ∀ shown ∈ g.mentioned, isDecision shown = true → display (bare shown) = text →
            ∃ id ∈ g.mentioned, bare id = text ∧ id ≤ shown)) ∧
      (∀ id, g.resolve? text = some id → id ∈ g.mentioned ∧ Contains text id) ∧
      (g.resolve? text = none ↔ ∀ id ∈ g.mentioned, ¬ Contains text id) := by
  refine ⟨fun id => resolve?_eq_some_iff, resolve?_of_mem, fun htext hnamed => ?_, fun id h => ?_,
    resolve?_eq_none_iff⟩
  · simp only [resolve?_eq_some_iff]
    exact chosen_named_iff htext hnamed
  · exact (resolve?_eq_some_iff.mp h).contains

theorem resolve_precedence_sample :
    let g : Graph := .ofList [("a.py::loop", []), ("b.rs::f", [{ target := "b.rs::_decision_1\x1floop" }]),
      ("b.rs::_decision_1\x1floop", [{ target := "b.rs::g", label := "Loop" }]), ("b.rs::g", [])]
    "loop" ∉ g.mentioned ∧ (∃ id ∈ g.mentioned, bare id = "loop") ∧
      (∃ id, g.resolve? "loop" = some id ∧ bare id = "loop") ∧
      "b.rs::g" ∈ g.mentioned ∧ g.resolve? "b.rs::g" = some "b.rs::g" := by
  intro g
  have htext : "loop" ∉ g.mentioned := by decide +kernel
  have hnamed : ∃ id ∈ g.mentioned, bare id = "loop" := by decide +kernel
  have hbefore : ∀ shown ∈ g.mentioned, isDecision shown = true → display (bare shown) = "loop" →
      ∃ id ∈ g.mentioned, bare id = "loop" ∧ id ≤ shown := by decide +kernel
  have hmem : "b.rs::g" ∈ g.mentioned := by decide +kernel
  have hprecedence := resolve_precedence g "loop"
  exact ⟨htext, hnamed, (hprecedence.2.2.1 htext hnamed).mpr hbefore, hmem,
    (resolve_precedence g "b.rs::g").2.1 hmem⟩

/-- A decision that is shown as the text and comes first is chosen, though a function has the text for its
name. -/
theorem decision_hides_function :
    let g : Graph := .ofList [("a.rs::f", [{ target := "a.rs::_decision_1\x1floop" }]),
      ("a.rs::_decision_1\x1floop", [{ target := "a.rs::g", label := "Loop" }]), ("a.rs::g", []),
      ("b.py::loop", [])]
    "loop" ∉ g.mentioned ∧ "b.py::loop" ∈ g.mentioned ∧ bare "b.py::loop" = "loop" ∧
      g.resolve? "loop" = some "a.rs::_decision_1\x1floop" ∧
      bare "a.rs::_decision_1\x1floop" ≠ "loop" ∧
      ¬ ∃ id, g.resolve? "loop" = some id ∧ bare id = "loop" := by
  intro g
  have htext : "loop" ∉ g.mentioned := by decide +kernel
  have hfirst : g.First (NamedOrShown "loop") "a.rs::_decision_1\x1floop" :=
    ⟨by decide +kernel, by decide +kernel, by decide +kernel⟩
  have hchosen := resolve?_of_called htext hfirst
  have hbare : bare "a.rs::_decision_1\x1floop" ≠ "loop" := by decide +kernel
  refine ⟨htext, by decide +kernel, by decide +kernel, hchosen, hbare, fun h => ?_⟩
  obtain ⟨id, hid, hname⟩ := h
  cases hchosen.symm.trans hid
  exact hbare hname

end Graph
end FlowAtlas
