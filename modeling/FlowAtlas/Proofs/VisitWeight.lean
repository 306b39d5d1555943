import FlowAtlas.Language.Grammars
import FlowAtlas.Outline.Visit
import Mathlib.Algebra.GroupWithZero.Nat
import Mathlib.Algebra.Order.BigOperators.Group.List
import Mathlib.Algebra.Order.Group.Nat

/-! Visits weighed against children. Whatever nodes weigh, if a plain node weighs at least as much as its
children together, then the visits of a decision weigh no more than its children: fields and kinds keep
the visited nodes apart, so none is visited twice. -/

namespace FlowAtlas

theorem sum_map_filter {α : Type} (p : α → Bool) (f : α → Nat) (l : List α) :
    ((l.filter p).map f).sum = (l.map fun a => if p a then f a else 0).sum := by
  induction l with
  | nil => rfl
  | cons a rest ih => cases h : p a <;> simp [h, ih]

namespace SyntaxTree

def StandsIn (t : SyntaxTree) (field : Option String) : Prop :=
  field.isSome = true ∧ t.info.field = field

instance (t : SyntaxTree) (field : Option String) : Decidable (t.StandsIn field) :=
  inferInstanceAs (Decidable (_ ∧ _))

theorem standsIn_of_childIn? {t c : SyntaxTree} {field : Option String}
    (h : t.childIn? field = some c) : c.StandsIn field := by
  cases field with
  | none => cases h
  | some f =>
    have hfield := List.find?_some (show t.children.find? _ = some c from h)
    exact ⟨rfl, by simpa using hfield⟩

theorem sum_childIn?_le {t : SyntaxTree} {field : Option String} {p : SyntaxTree → Prop}
    [DecidablePred p] (φ : SyntaxTree → Nat) (h : ∀ c ∈ t.childIn? field, p c) :
    ((t.childIn? field).toList.map φ).sum ≤ (t.children.map fun c => if p c then φ c else 0).sum := by
  cases hc : t.childIn? field with
  | none => simp
  | some c =>
    have hle : (if p c then φ c else 0) ≤ (t.children.map fun c => if p c then φ c else 0).sum :=
      List.le_sum_of_mem (List.mem_map_of_mem (mem_children_of_childIn? hc))
    rw [if_pos (h c hc)] at hle
    simpa using hle

end SyntaxTree

namespace Grammar

def Apart (a b : Option String) : Prop :=
  a = b → a = none

instance (a b : Option String) : Decidable (Apart a b) :=
  inferInstanceAs (Decidable (_ → _))

theorem Apart.not_standsIn {a b : Option String} (h : Apart a b) {t : SyntaxTree}
    (ha : t.StandsIn a) : ¬ t.StandsIn b := by
  intro hb
  have hnone := h (ha.2.symm.trans hb.2)
  rw [hnone] at ha
  cases ha.1

def partKinds (g : Grammar) : List String :=
  g.conditional.elifKind.toList ++ g.conditional.elseKind.toList ++ g.choice.armKinds

theorem mem_partKinds_of_arm {g : Grammar} {kind : String}
    (h : g.choice.armKinds.contains kind = true) : kind ∈ g.partKinds :=
  List.mem_append_right _ (List.contains_iff_mem.mp h)

def decisionKinds (g : Grammar) : List String :=
  g.conditional.kind.toList ++ g.loops.forKinds ++ g.loops.whileKinds ++ g.loops.endlessKinds ++
    g.choice.kind.toList

structure Unambiguous (g : Grammar) : Prop where
  condition_consequence : Apart g.conditional.condition g.conditional.consequence
  condition_alternative : Apart g.conditional.condition g.conditional.alternative
  consequence_alternative : Apart g.conditional.consequence g.conditional.alternative
  elif_condition_body : Apart g.conditional.elifCondition g.conditional.elifBody
  subject_body : Apart g.choice.subject g.choice.body
  elif_else : Apart g.conditional.elifKind g.conditional.elseKind
  part_plain : ∀ kind ∈ g.partKinds, g.functionKinds.contains kind = false ∧
    g.closureKinds.contains kind = false ∧ g.testKind ≠ some kind
  call_plain : ∀ kind ∈ g.callKind, kind ∉ g.decisionKinds

theorem unambiguous (l : Language) : l.grammar.Unambiguous := by
  cases l <;> constructor <;> decide

def IsPlain (g : Grammar) (src : Source) (t : SyntaxTree) : Prop :=
  g.isHidden src t = false ∧ g.isFunction t = false

theorem Unambiguous.isPlain {g : Grammar} (hg : g.Unambiguous) {t : SyntaxTree}
    (ht : t.kind ∈ g.partKinds) (src : Source) : g.IsPlain src t := by
  obtain ⟨hfunction, hclosure, htest⟩ := hg.part_plain t.kind ht
  have htest : (g.testKind == some t.kind) = false := by simpa using htest
  exact ⟨by simp [isHidden, htest], by simp only [isFunction, hfunction, hclosure, Bool.or_false]⟩

/-- A node whose fields hold what they are meant for: where a branch, a condition or a subject belongs
stands no clause or arm, and the body of a choice is plain. -/
structure Tidy (g : Grammar) (src : Source) (t : SyntaxTree) : Prop where
  branch : g.conditional.kind = some t.kind → ∀ field ∈ [g.conditional.condition,
    g.conditional.consequence, g.conditional.alternative], ∀ c ∈ t.childIn? field,
      c.kind ∉ g.partKinds
  subject : g.choice.kind = some t.kind → ∀ c ∈ t.childIn? g.choice.subject, c.kind ∉ g.partKinds
  body : g.choice.kind = some t.kind → ∀ c ∈ t.childIn? g.choice.body, g.IsPlain src c

end Grammar

namespace Visit
variable (φ : SyntaxTree → SyntaxTree → Nat)

/-- What the visited nodes weigh together; `φ` weighs a node below its parent. -/
def weight (vs : List Visit) : Nat :=
  (vs.map fun v => φ v.parent v.tree).sum

@[simp] theorem weight_append (a b : List Visit) : weight φ (a ++ b) = weight φ a + weight φ b := by
  simp [weight]

@[simp] theorem weight_flatMap {α : Type} (f : α → List Visit) (l : List α) :
    weight φ (l.flatMap f) = (l.map fun a => weight φ (f a)).sum := by
  induction l with
  | nil => rfl
  | cons a rest ih => simp [ih]

@[simp] theorem weight_ofChild (setting : Setting) (parent : SyntaxTree) (child : Option SyntaxTree) :
    weight φ (ofChild setting parent child) = (child.toList.map (φ parent)).sum := by
  simp [weight, ofChild, Function.comp_def]

end Visit

namespace Grammar
variable {g : Grammar} {src : Source} {φ : SyntaxTree → SyntaxTree → Nat}

theorem sum_two_childIn?_le {a b : Option String} (hab : Apart a b) (t : SyntaxTree)
    (φ : SyntaxTree → Nat) :
    ((t.childIn? a).toList.map φ).sum + ((t.childIn? b).toList.map φ).sum ≤
      (t.children.map φ).sum := by
  have ha := t.sum_childIn?_le (p := (·.StandsIn a)) φ fun _ h => SyntaxTree.standsIn_of_childIn? h
  have hb := t.sum_childIn?_le (p := (·.StandsIn b)) φ fun _ h => SyntaxTree.standsIn_of_childIn? h
  refine (Nat.add_le_add ha hb).trans ?_
  rw [← List.sum_map_add]
  refine List.sum_le_sum fun c _ => ?_
  by_cases hc : c.StandsIn a
  · simp [hc, hab.not_standsIn hc]
  · simp only [hc, if_false, Nat.zero_add]
    split <;> simp

theorem weight_elif_le (hφ : ∀ p t, g.IsPlain src t → (t.children.map (φ t)).sum ≤ φ p t)
    (hg : g.Unambiguous) (t : SyntaxTree) :
    Visit.weight φ ((t.childrenOfKind g.conditional.elifKind).zipIdx.flatMap fun (clause, i) =>
        Visit.ofChild .around clause (clause.childIn? g.conditional.elifCondition) ++
        Visit.ofChild (.branch (some (IfRule.elifLabel i))) clause
          (clause.childIn? g.conditional.elifBody)) ≤
      (t.children.map fun c => if g.conditional.elifKind = some c.kind then φ t c else 0).sum := by
  have hclause : ∀ x ∈ (t.childrenOfKind g.conditional.elifKind).zipIdx,
      Visit.weight φ (Visit.ofChild .around x.1 (x.1.childIn? g.conditional.elifCondition) ++
        Visit.ofChild (.branch (some (IfRule.elifLabel x.2))) x.1
          (x.1.childIn? g.conditional.elifBody)) ≤ φ t x.1 := by
    rintro ⟨clause, i⟩ hx
    have hkind := (List.mem_filter.mp (List.fst_mem_of_mem_zipIdx hx)).2
    have hpart : clause.kind ∈ g.partKinds := by
      simp [partKinds, eq_of_beq hkind]
    rw [Visit.weight_append, Visit.weight_ofChild, Visit.weight_ofChild]
    exact (sum_two_childIn?_le hg.elif_condition_body clause (φ clause)).trans
      (hφ t clause (hg.isPlain hpart src))
  rw [Visit.weight_flatMap]
  refine (List.sum_le_sum hclause).trans (Nat.le_of_eq ?_)
  rw [← Function.comp_def (φ t) Prod.fst, ← List.map_map, List.zipIdx_map_fst]
  simp only [SyntaxTree.childrenOfKind, sum_map_filter, beq_iff_eq]

theorem weight_else_le (hφ : ∀ p t, g.IsPlain src t → (t.children.map (φ t)).sum ≤ φ p t)
    (hg : g.Unambiguous) (t : SyntaxTree) :
    Visit.weight φ (((t.childrenOfKind g.conditional.elseKind).take 1).flatMap fun clause =>
        Visit.ofChild (.branch (some "False")) clause (clause.childIn? g.conditional.elseBody)) ≤
      (t.children.map fun c => if g.conditional.elseKind = some c.kind then φ t c else 0).sum := by
  have hclause : ∀ clause ∈ (t.childrenOfKind g.conditional.elseKind).take 1,
      Visit.weight φ (Visit.ofChild (.branch (some "False")) clause
        (clause.childIn? g.conditional.elseBody)) ≤ φ t clause := by
    intro clause hmem
    have hkind := (List.mem_filter.mp (List.mem_of_mem_take hmem)).2
    have hpart : clause.kind ∈ g.partKinds := by
      simp [partKinds, eq_of_beq hkind]
    rw [Visit.weight_ofChild]
    refine le_trans ?_ (hφ t clause (hg.isPlain hpart src))
    exact (clause.sum_childIn?_le (p := fun _ => True) (φ clause) fun _ _ => trivial).trans
      (by simp)
  rw [Visit.weight_flatMap]
  refine (List.sum_le_sum hclause).trans ?_
  refine (((List.take_sublist 1 _).map (φ t)).sum_le_sum fun _ _ => Nat.zero_le _).trans ?_
  simp only [SyntaxTree.childrenOfKind, sum_map_filter, beq_iff_eq, le_refl]

theorem weight_conditional_le (hφ : ∀ p t, g.IsPlain src t → (t.children.map (φ t)).sum ≤ φ p t)
    (hg : g.Unambiguous) {t : SyntaxTree} (ht : g.Tidy src t)
    (hkind : g.conditional.kind = some t.kind) :
    Visit.weight φ (g.conditional.visits t) ≤ (t.children.map (φ t)).sum := by
  have hchild : ∀ field ∈ [g.conditional.condition, g.conditional.consequence,
      g.conditional.alternative], ((t.childIn? field).toList.map (φ t)).sum ≤
        (t.children.map fun c =>
          if c.StandsIn field ∧ c.kind ∉ g.partKinds then φ t c else 0).sum :=
    fun field hfield => t.sum_childIn?_le (φ t) fun c hc =>
      ⟨SyntaxTree.standsIn_of_childIn? hc, ht.branch hkind field hfield c hc⟩
  have hcondition := hchild g.conditional.condition (by simp)
  have hconsequence := hchild g.conditional.consequence (by simp)
  have halternative := hchild g.conditional.alternative (by simp)
  have helif := weight_elif_le hφ hg t
  have helse := weight_else_le hφ hg t
  rw [IfRule.visits, Visit.weight_append, Visit.weight_append, Visit.weight_append,
    Visit.weight_append, Visit.weight_ofChild, Visit.weight_ofChild, Visit.weight_ofChild]
  refine (Nat.add_le_add (Nat.add_le_add (Nat.add_le_add (Nat.add_le_add hcondition hconsequence)
    halternative) helif) helse).trans ?_
  simp only [← List.sum_map_add]
  refine List.sum_le_sum fun c _ => ?_
  -- No child is visited in two of the five ways.
  have hparts : g.conditional.elifKind = some c.kind ∨ g.conditional.elseKind = some c.kind →
      c.kind ∈ g.partKinds := by
    rintro (h | h) <;> simp [partKinds, h]
  have hclauses : g.conditional.elifKind = some c.kind → g.conditional.elseKind ≠ some c.kind := by
    intro h h'
    have := hg.elif_else (h.trans h'.symm)
    rw [this] at h
    cases h
  have h₁ := hg.condition_consequence.not_standsIn (t := c)
  have h₂ := hg.condition_alternative.not_standsIn (t := c)
  have h₃ := hg.consequence_alternative.not_standsIn (t := c)
  grind

theorem weight_armVisits_le (hφ : ∀ p t, g.IsPlain src t → (t.children.map (φ t)).sum ≤ φ p t)
    (hg : g.Unambiguous) (t : SyntaxTree) {arm : SyntaxTree}
    (harm : g.choice.armKinds.contains arm.kind = true) :
    Visit.weight φ (g.choice.armVisits src arm) ≤ φ t arm := by
  refine le_trans ?_ (hφ t arm (hg.isPlain (mem_partKinds_of_arm harm) src))
  unfold Visit.weight MatchRule.armVisits
  rw [List.map_map]
  exact (List.filter_sublist.map (φ arm)).sum_le_sum fun _ _ => Nat.zero_le _

theorem weight_choice_le (hφ : ∀ p t, g.IsPlain src t → (t.children.map (φ t)).sum ≤ φ p t)
    (hg : g.Unambiguous) {t : SyntaxTree} (ht : g.Tidy src t)
    (hkind : g.choice.kind = some t.kind) :
    Visit.weight φ (g.choice.visits src t) ≤ (t.children.map (φ t)).sum := by
  have harms : ∀ holder : SyntaxTree,
      ((holder.children.filter fun arm => g.choice.armKinds.contains arm.kind).map fun arm =>
        Visit.weight φ (g.choice.armVisits src arm)).sum ≤
      (holder.children.map fun c =>
        if g.choice.armKinds.contains c.kind then φ holder c else 0).sum := by
    intro holder
    rw [← sum_map_filter]
    exact List.sum_le_sum fun arm harm =>
      weight_armVisits_le hφ hg holder (List.mem_filter.mp harm).2
  rw [MatchRule.visits, Visit.weight_append, Visit.weight_ofChild, Visit.weight_flatMap,
    MatchRule.arms]
  cases hbody : t.childIn? g.choice.body with
  | some body =>
    have hinner : (body.children.map (φ body)).sum ≤ φ t body :=
      hφ t body (ht.body hkind body hbody)
    have htwo := sum_two_childIn?_le hg.subject_body t (φ t)
    have hsub : (body.children.map fun c =>
        if g.choice.armKinds.contains c.kind then φ body c else 0).sum ≤
        (body.children.map (φ body)).sum :=
      List.sum_le_sum fun c _ => by split <;> simp
    have hbody' : ((t.childIn? g.choice.body).toList.map (φ t)).sum = φ t body := by simp [hbody]
    have := harms body
    simp only [Option.getD_some]
    omega
  | none =>
    have hsubject := t.sum_childIn?_le (p := fun c => c.kind ∉ g.partKinds) (φ t)
      (ht.subject hkind)
    refine (Nat.add_le_add hsubject (harms t)).trans ?_
    rw [← List.sum_map_add]
    refine List.sum_le_sum fun c _ => ?_
    by_cases hc : g.choice.armKinds.contains c.kind = true
    · have hpart := mem_partKinds_of_arm hc
      rw [if_neg (not_not_intro hpart), if_pos hc, Nat.zero_add]
    · rw [if_neg hc, Nat.add_zero]
      split <;> simp

theorem weight_loop (t : SyntaxTree) :
    Visit.weight φ (g.loops.visits t) = (t.children.map (φ t)).sum := by
  simp [Visit.weight, LoopRule.visits, Function.comp_def]

/-- No construct visits more than its children weigh. -/
theorem weight_visits_le (hφ : ∀ p t, g.IsPlain src t → (t.children.map (φ t)).sum ≤ φ p t)
    (hg : g.Unambiguous) {t : SyntaxTree} (ht : g.Tidy src t) {construct : Construct}
    (h : g.construct? t = some construct) :
    Visit.weight φ (g.visits src t construct) ≤ (t.children.map (φ t)).sum := by
  unfold construct? at h
  split at h
  · cases h
    exact weight_conditional_le hφ hg ht (eq_of_beq ‹_›)
  split at h
  · cases h
    exact Nat.le_of_eq (weight_loop t)
  split at h
  · cases h
    exact weight_choice_le hφ hg ht (eq_of_beq ‹_›)
  · cases h

end Grammar
end FlowAtlas
