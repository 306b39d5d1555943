import FlowAtlas.Proofs.Graph
import FlowAtlas.Proofs.NodeId
import Mathlib.Data.List.Nodup
import Mathlib.Data.List.Pairwise

/-! What the facts of an outline have in common: every scope goes back to a declared function or to an
opened decision, decisions are numbered in the order in which they open, and each declaration and each
decision is closed in the end. -/

namespace FlowAtlas

namespace Fact

def scope? : Fact → Option Scope
  | .opened scope _ => scope
  | .called scope _ => some scope
  | _ => none

def opened? : Fact → Option (Bool × NodeId)
  | .opened scope id => some (scope.isSome, id)
  | _ => none

/-- The call that a fact states, with the function around it; none outside every function. -/
def call? : Fact → Option (String × String)
  | .called scope callee => scope.function.map (·, callee)
  | _ => none

end Fact

def NodeId.Upto (n : Nat) (id : NodeId) : Prop :=
  ∀ m shown, id = .decision m shown → m ≤ n

theorem NodeId.Upto.mono {m n : Nat} {id : NodeId} (h : id.Upto m) (hmn : m ≤ n) : id.Upto n :=
  fun k shown heq => Nat.le_trans (h k shown heq) hmn

theorem NodeId.upto_of_isDecision_eq_false {id : NodeId} (h : isDecision id = false) (n : Nat) :
    id.Upto n := by
  rintro m shown rfl
  simp at h

theorem NodeId.upto_decision (n : Nat) (shown : String) : (decision n shown).Upto n := by
  intro m shown' h
  exact Nat.le_of_eq (decision_inj h).1.symm

namespace Outline

/-- What the outline of a text without the unit separator is like: no function and no callee has the
name of a decision, and every branch has a label. -/
def Plain : Outline → Prop
  | done => True
  | call callee rest => NodeId.isDecision callee = false ∧ rest.Plain
  | function name _ body rest => NodeId.isDecision name = false ∧ body.Plain ∧ rest.Plain
  | .decision _ body rest => body.Plain ∧ rest.Plain
  | branch label body rest => label.isSome = true ∧ body.Plain ∧ rest.Plain

/-- The display texts of the decisions in the order in which they open, each with whether it stands in a
scope. `inside` says so of the outline itself, and `within` whether a decision is around it. -/
def openings (inside within : Bool) : Outline → List (Bool × String)
  | done => []
  | call _ rest => rest.openings inside within
  | function _ _ body rest => body.openings true false ++ rest.openings inside within
  | .decision display body rest =>
    (inside, display) :: body.openings inside true ++ rest.openings inside within
  | branch _ body rest => body.openings (inside || within) false ++ rest.openings inside within

/-- The calls inside functions, each with the innermost function around it. `function` is the function
around the outline itself. -/
def calls (function : Option String) : Outline → List (String × String)
  | done => []
  | call callee rest => (function.map (·, callee)).toList ++ rest.calls function
  | .function name _ body rest => body.calls (some name) ++ rest.calls function
  | .decision _ body rest => body.calls function ++ rest.calls function
  | branch _ body rest => body.calls function ++ rest.calls function

def functions : Outline → List String
  | done => []
  | call _ rest => rest.functions
  | function name _ body rest => name :: body.functions ++ rest.functions
  | .decision _ body rest => body.functions ++ rest.functions
  | branch _ body rest => body.functions ++ rest.functions

def declarations : Outline → List (String × Nat)
  | done => []
  | call _ rest => rest.declarations
  | function name line body rest => (name, line) :: body.declarations ++ rest.declarations
  | .decision _ body rest => body.declarations ++ rest.declarations
  | branch _ body rest => body.declarations ++ rest.declarations

def labels : Outline → List (Option String)
  | done => []
  | call _ rest => rest.labels
  | function _ _ body rest => body.labels ++ rest.labels
  | .decision _ body rest => body.labels ++ rest.labels
  | branch label body rest => label :: body.labels ++ rest.labels

theorem map_fst_declarations (o : Outline) : o.declarations.map Prod.fst = o.functions := by
  induction o with
  | done => rfl
  | call callee rest ih => exact ih
  | function name line body rest ihb ihr => simp [declarations, functions, ihb, ihr]
  | decision display body rest ihb ihr => simp [declarations, functions, ihb, ihr]
  | branch label body rest ihb ihr => simp [declarations, functions, ihb, ihr]

theorem calls_append (function : Option String) (a b : Outline) :
    (a.append b).calls function = a.calls function ++ b.calls function := by
  induction a with
  | done => rfl
  | call callee rest ih => simp [append, calls, ih]
  | function name line body rest _ ih => simp [append, calls, ih]
  | decision display body rest _ ih => simp [append, calls, ih]
  | branch label body rest _ ih => simp [append, calls, ih]

theorem declarations_append (a b : Outline) :
    (a.append b).declarations = a.declarations ++ b.declarations := by
  induction a with
  | done => rfl
  | call callee rest ih => exact ih
  | function name line body rest _ ih => simp [append, declarations, ih]
  | decision display body rest _ ih => simp [append, declarations, ih]
  | branch label body rest _ ih => simp [append, declarations, ih]

theorem functions_append (a b : Outline) : (a.append b).functions = a.functions ++ b.functions := by
  rw [← map_fst_declarations, declarations_append, List.map_append, map_fst_declarations,
    map_fst_declarations]

theorem openings_append (inside within : Bool) (a b : Outline) :
    (a.append b).openings inside within = a.openings inside within ++ b.openings inside within := by
  induction a with
  | done => rfl
  | call callee rest ih => exact ih
  | function name line body rest _ ih => simp [append, openings, ih]
  | decision display body rest _ ih => simp [append, openings, ih]
  | branch label body rest _ ih => simp [append, openings, ih]

theorem calls_concat (function : Option String) (os : List Outline) :
    (concat os).calls function = os.flatMap (·.calls function) := by
  induction os with
  | nil => rfl
  | cons o rest ih => exact (calls_append function o _).trans (congrArg _ ih)

theorem declarations_concat (os : List Outline) :
    (concat os).declarations = os.flatMap declarations := by
  induction os with
  | nil => rfl
  | cons o rest ih => exact (declarations_append o _).trans (congrArg _ ih)

theorem openings_concat (inside within : Bool) (os : List Outline) :
    (concat os).openings inside within = os.flatMap (·.openings inside within) := by
  induction os with
  | nil => rfl
  | cons o rest ih => exact (openings_append inside within o _).trans (congrArg _ ih)

theorem length_openings (o : Outline) (inside within : Bool) :
    (o.openings inside within).length = o.decisions := by
  induction o generalizing inside within with
  | done => rfl
  | call callee rest ih => exact ih inside within
  | function name line body rest ihb ihr => simp [openings, decisions, ihb, ihr]
  | decision display body rest ihb ihr =>
    simp [openings, decisions, ihb, ihr, Nat.add_comm 1, Nat.add_right_comm]
  | branch label body rest ihb ihr => simp [openings, decisions, ihb, ihr]

theorem isSome_branchScope (scope : Option Scope) (decision : Option NodeId)
    (label : Option String) :
    (branchScope scope decision label).isSome = (scope.isSome || decision.isSome) := by
  cases decision <;> simp [branchScope]

theorem function_branchScope (scope : Option Scope) (decision : Option NodeId)
    (label : Option String) :
    (branchScope scope decision label).bind Scope.function = scope.bind Scope.function := by
  cases decision <;> rfl

theorem calls_facts (o : Outline) (scope : Option Scope) (decision : Option NodeId) (count : Nat) :
    (o.facts scope decision count).filterMap Fact.call? = o.calls (scope.bind Scope.function) := by
  induction o generalizing scope decision count with
  | done => rfl
  | call callee rest ih =>
    cases scope with
    | none => simp [facts, calls, ih]
    | some s =>
      cases h : s.function <;> simp [facts, calls, ih, h, Fact.call?]
  | function name line body rest ihb ihr =>
    simp [facts, calls, ihb, ihr, Fact.call?, List.filterMap_cons, Scope.ofFunction]
  | decision display body rest ihb ihr =>
    simp [facts, calls, ihb, ihr, Fact.call?, List.filterMap_cons]
  | branch label body rest ihb ihr =>
    simp [facts, calls, ihb, ihr, function_branchScope]

theorem declarations_facts (o : Outline) (scope : Option Scope) (decision : Option NodeId)
    (count : Nat) : (o.facts scope decision count).filterMap Fact.declaration? = o.declarations := by
  induction o generalizing scope decision count with
  | done => rfl
  | call callee rest ih =>
    cases scope <;> simp [facts, declarations, ih, Fact.declaration?, List.filterMap_cons]
  | function name line body rest ihb ihr =>
    simp [facts, declarations, ihb, ihr, Fact.declaration?, List.filterMap_cons]
  | decision display body rest ihb ihr =>
    simp [facts, declarations, ihb, ihr, Fact.declaration?, List.filterMap_cons]
  | branch label body rest ihb ihr => simp [facts, declarations, ihb, ihr]

theorem opened_facts (o : Outline) (scope : Option Scope) (decision : Option NodeId) (count : Nat) :
    (o.facts scope decision count).filterMap Fact.opened? =
      ((o.openings scope.isSome decision.isSome).zipIdx (count + 1)).map
        fun (opening, n) => (opening.1, NodeId.decision n opening.2) := by
  induction o generalizing scope decision count with
  | done => rfl
  | call callee rest ih => cases scope <;> simp [facts, openings, ih, Fact.opened?, List.filterMap_cons]
  | function name line body rest ihb ihr =>
    simp [facts, openings, ihb, ihr, Fact.opened?, List.filterMap_cons, List.zipIdx_append,
      length_openings, Nat.add_right_comm]
  | decision display body rest ihb ihr =>
    simp [facts, openings, ihb, ihr, Fact.opened?, List.filterMap_cons, List.zipIdx_append,
      length_openings, Nat.add_right_comm]
  | branch label body rest ihb ihr =>
    simp [facts, openings, ihb, ihr, isSome_branchScope, List.zipIdx_append, length_openings,
      Nat.add_right_comm]

theorem closed_mem_facts {o : Outline} {scope : Option Scope} {decision : Option NodeId}
    {count : Nat} {id : NodeId} :
    .closed id ∈ o.facts scope decision count ↔
      (∃ line, .declared id line ∈ o.facts scope decision count) ∨
        ∃ outer, .opened outer id ∈ o.facts scope decision count := by
  induction o generalizing scope decision count with
  | done => simp [facts]
  | call callee rest ih => cases scope <;> simp [facts, ih]
  | function name line body rest ihb ihr =>
    simp only [facts, List.cons_append, List.mem_cons, List.mem_append, ihb, ihr, exists_or,
      Fact.declared.injEq, Fact.closed.injEq, reduceCtorEq, false_or, exists_and_left,
      exists_eq, and_true]
    grind
  | decision display body rest ihb ihr =>
    simp only [facts, List.cons_append, List.mem_cons, List.mem_append, ihb, ihr, exists_or,
      Fact.opened.injEq, Fact.closed.injEq, reduceCtorEq, false_or, exists_and_right,
      exists_eq, true_and]
    grind
  | branch label body rest ihb ihr =>
    simp only [facts, List.mem_append, ihb, ihr, exists_or]
    grind

theorem declared_mem_facts {o : Outline} {scope : Option Scope} {decision : Option NodeId}
    {count : Nat} {name : String} :
    (∃ line, .declared name line ∈ o.facts scope decision count) ↔ name ∈ o.functions := by
  induction o generalizing scope decision count with
  | done => simp [facts, functions]
  | call callee rest ih => cases scope <;> simp [facts, functions, ih]
  | function name' line body rest ihb ihr =>
    simp [facts, functions, exists_or, ihb, ihr]
  | decision display body rest ihb ihr => simp [facts, functions, exists_or, ihb, ihr]
  | branch label body rest ihb ihr => simp [facts, functions, exists_or, ihb, ihr]

theorem Plain.function {o : Outline} (ho : o.Plain) {name : String} (h : name ∈ o.functions) :
    NodeId.isDecision name = false := by
  induction o with
  | done => simp [functions] at h
  | call callee rest ih => exact ih ho.2 h
  | function name' line body rest ihb ihr =>
    simp only [functions, List.cons_append, List.mem_cons, List.mem_append] at h
    rcases h with rfl | h | h
    · exact ho.1
    · exact ihb ho.2.1 h
    · exact ihr ho.2.2 h
  | decision display body rest ihb ihr =>
    exact (List.mem_append.mp h).elim (ihb ho.1) (ihr ho.2)
  | branch label body rest ihb ihr =>
    exact (List.mem_append.mp h).elim (ihb ho.2.1) (ihr ho.2.2)

theorem Plain.callee {o : Outline} (ho : o.Plain) {scope : Option Scope} {decision : Option NodeId}
    {count : Nat} {s : Scope} {callee : String}
    (h : .called s callee ∈ o.facts scope decision count) : NodeId.isDecision callee = false := by
  induction o generalizing scope decision count with
  | done => simp [facts] at h
  | call callee' rest ih =>
    simp only [facts, List.mem_append, Option.mem_toList, Option.map_eq_some_iff] at h
    rcases h with ⟨s', _, heq⟩ | h
    · cases heq
      exact ho.1
    · exact ih ho.2 h
  | function name line body rest ihb ihr =>
    simp only [facts, List.cons_append, List.mem_cons, List.mem_append, reduceCtorEq, false_or] at h
    exact h.elim (ihb ho.2.1) (ihr ho.2.2)
  | decision display body rest ihb ihr =>
    simp only [facts, List.cons_append, List.mem_cons, List.mem_append, reduceCtorEq, false_or] at h
    exact h.elim (ihb ho.1) (ihr ho.2)
  | branch label body rest ihb ihr =>
    exact (List.mem_append.mp h).elim (ihb ho.2.1) (ihr ho.2.2)

theorem Plain.label {o : Outline} (ho : o.Plain) {label : Option String} (h : label ∈ o.labels) :
    label.isSome = true := by
  induction o with
  | done => cases h
  | call callee rest ih => exact ih ho.2 h
  | function name line body rest ihb ihr =>
    exact (List.mem_append.mp h).elim (ihb ho.2.1) (ihr ho.2.2)
  | decision display body rest ihb ihr =>
    exact (List.mem_append.mp h).elim (ihb ho.1) (ihr ho.2)
  | branch label' body rest ihb ihr =>
    simp only [labels, List.cons_append, List.mem_cons, List.mem_append] at h
    rcases h with rfl | h | h
    · exact ho.1
    · exact ihb ho.2.1 h
    · exact ihr ho.2.2 h

/-- An invariant of scopes: it holds of the scope of each declared function, and passes from the scope
in which a decision opens to the scopes of its branches. Then it holds of every scope. -/
theorem scope_of_mem_facts {Q : Scope → Prop} {all : List Fact} {allowed : Option String → Prop}
    (hfunction : ∀ name line, .declared name line ∈ all → Q (.ofFunction name))
    (hopened : ∀ outer id, .opened outer id ∈ all → (∀ s ∈ outer, Q s) →
      ∀ label, allowed label → Q ⟨id, label, outer.bind Scope.function⟩)
    {o : Outline} (ho : ∀ label ∈ o.labels, allowed label) {scope : Option Scope}
    {decision : Option NodeId} {count : Nat}
    (hall : o.facts scope decision count ⊆ all) (hscope : ∀ s ∈ scope, Q s)
    (hdecision : ∀ id ∈ decision, ∀ label, allowed label → Q ⟨id, label, scope.bind Scope.function⟩)
    {fact : Fact} (hfact : fact ∈ o.facts scope decision count) {s : Scope}
    (hs : fact.scope? = some s) : Q s := by
  induction o generalizing scope decision count with
  | done => simp [facts] at hfact
  | call callee rest ih =>
    simp only [facts, List.append_subset] at hall
    simp only [facts, List.mem_append, Option.mem_toList, Option.map_eq_some_iff] at hfact
    rcases hfact with ⟨s', hs', rfl⟩ | hfact
    · cases hs
      exact hscope s hs'
    · exact ih ho hall.2 hscope hdecision hfact
  | function name line body rest ihb ihr =>
    obtain ⟨hbodyLabels, hrestLabels⟩ := List.forall_mem_append.mp ho
    simp only [facts, List.cons_append, List.cons_subset, List.append_subset] at hall
    obtain ⟨hdeclared, hbody, _, hrest⟩ := hall
    simp only [facts, List.cons_append, List.mem_cons, List.mem_append] at hfact
    rcases hfact with rfl | hfact | rfl | hfact
    · cases hs
    · refine ihb hbodyLabels hbody ?_ (by simp) hfact
      rintro _ ⟨⟩
      exact hfunction name line hdeclared
    · cases hs
    · exact ihr hrestLabels hrest hscope hdecision hfact
  | decision display body rest ihb ihr =>
    obtain ⟨hbodyLabels, hrestLabels⟩ := List.forall_mem_append.mp ho
    simp only [facts, List.cons_append, List.cons_subset, List.append_subset] at hall
    obtain ⟨hopen, hbody, _, hrest⟩ := hall
    simp only [facts, List.cons_append, List.mem_cons, List.mem_append] at hfact
    rcases hfact with rfl | hfact | rfl | hfact
    · exact hscope s hs
    · refine ihb hbodyLabels hbody hscope ?_ hfact
      rintro _ ⟨⟩
      exact hopened scope _ hopen hscope
    · cases hs
    · exact ihr hrestLabels hrest hscope hdecision hfact
  | branch label body rest ihb ihr =>
    obtain ⟨hlabel, hlabels⟩ := List.forall_mem_cons.mp ho
    obtain ⟨hbodyLabels, hrestLabels⟩ := List.forall_mem_append.mp hlabels
    simp only [facts, List.append_subset] at hall
    rcases List.mem_append.mp hfact with hfact | hfact
    · refine ihb hbodyLabels hall.1 ?_ (by simp) hfact
      cases decision with
      | none => exact hscope
      | some id =>
        rintro _ ⟨⟩
        exact hdecision id rfl label hlabel
    · exact ihr hrestLabels hall.2 hscope hdecision hfact

theorem scope_of_no_decision {o : Outline} (ho : o.decisions = 0) {scope : Option Scope} {count : Nat}
    {names : List String} (hnames : o.functions ⊆ names)
    (hscope : ∀ s ∈ scope, ∃ name ∈ names, s = .ofFunction name) {fact : Fact}
    (hfact : fact ∈ o.facts scope none count) {s : Scope} (hs : fact.scope? = some s) :
    ∃ name ∈ names, s = .ofFunction name := by
  induction o generalizing scope count with
  | done => simp [facts] at hfact
  | call callee rest ih =>
    simp only [facts, List.mem_append, Option.mem_toList, Option.map_eq_some_iff] at hfact
    rcases hfact with ⟨s', hs', rfl⟩ | hfact
    · cases hs
      exact hscope s hs'
    · exact ih ho hnames hscope hfact
  | function name line body rest ihb ihr =>
    obtain ⟨hbody, hrest⟩ := Nat.add_eq_zero_iff.mp ho
    simp only [functions, List.cons_append, List.cons_subset, List.append_subset] at hnames
    obtain ⟨hname, hnamesBody, hnamesRest⟩ := hnames
    simp only [facts, List.cons_append, List.mem_cons, List.mem_append] at hfact
    rcases hfact with rfl | hfact | rfl | hfact
    · cases hs
    · refine ihb hbody hnamesBody ?_ hfact
      rintro _ ⟨⟩
      exact ⟨name, hname, rfl⟩
    · cases hs
    · exact ihr hrest hnamesRest hscope hfact
  | decision display body rest _ _ =>
    simp only [decisions] at ho
    omega
  | branch label body rest ihb ihr =>
    obtain ⟨hbody, hrest⟩ := Nat.add_eq_zero_iff.mp ho
    obtain ⟨hnamesBody, hnamesRest⟩ := List.append_subset.mp hnames
    -- No decision is around the branch, so it stays in the scope around it.
    rcases List.mem_append.mp hfact with hfact | hfact
    · exact ihb hbody hnamesBody hscope hfact
    · exact ihr hrest hnamesRest hscope hfact

/-- A decision opens with a number past those of the decisions that it stands in. -/
theorem number_of_opened {o : Outline} (ho : o.Plain) {scope : Option Scope}
    {decision : Option NodeId} {count : Nat} (hscope : ∀ s ∈ scope, s.node.Upto count)
    (hdecision : ∀ id ∈ decision, id.Upto count) {outer : Option Scope} {id : NodeId}
    (h : .opened outer id ∈ o.facts scope decision count) :
    ∃ n shown, id = .decision (n + 1) shown ∧ ∀ s ∈ outer, s.node.Upto n := by
  induction o generalizing scope decision count with
  | done => simp [facts] at h
  | call callee rest ih =>
    simp only [facts, List.mem_append, Option.mem_toList, Option.map_eq_some_iff, reduceCtorEq,
      and_false, exists_false, false_or] at h
    exact ih ho.2 hscope hdecision h
  | function name line body rest ihb ihr =>
    simp only [facts, List.cons_append, List.mem_cons, List.mem_append, reduceCtorEq, false_or] at h
    rcases h with h | h
    · refine ihb ho.2.1 ?_ (by simp) h
      rintro _ ⟨⟩
      exact NodeId.upto_of_isDecision_eq_false ho.1 count
    · exact ihr ho.2.2 (fun s hs => (hscope s hs).mono (Nat.le_add_right ..))
        (fun id hid => (hdecision id hid).mono (Nat.le_add_right ..)) h
  | decision display body rest ihb ihr =>
    simp only [facts, List.cons_append, List.mem_cons, List.mem_append, reduceCtorEq, false_or] at h
    rcases h with heq | h | h
    · cases heq
      exact ⟨count, display, rfl, hscope⟩
    · refine ihb ho.1 (fun s hs => (hscope s hs).mono (Nat.le_add_right ..)) ?_ h
      rintro _ ⟨⟩
      exact NodeId.upto_decision (count + 1) display
    · have hle : count ≤ count + 1 + body.decisions := by omega
      exact ihr ho.2 (fun s hs => (hscope s hs).mono hle) (fun id hid => (hdecision id hid).mono hle) h
  | branch label body rest ihb ihr =>
    rcases List.mem_append.mp h with h | h
    · refine ihb ho.2.1 ?_ (by simp) h
      cases decision with
      | none => exact hscope
      | some id =>
        rintro _ ⟨⟩
        exact hdecision id rfl
    · exact ihr ho.2.2 (fun s hs => (hscope s hs).mono (Nat.le_add_right ..))
        (fun id hid => (hdecision id hid).mono (Nat.le_add_right ..)) h

theorem pairwise_opened_facts (o : Outline) (scope : Option Scope) (decision : Option NodeId)
    (count : Nat) :
    ((o.facts scope decision count).filterMap Fact.opened?).Pairwise fun a b => a.2 ≠ b.2 := by
  -- The numbers run on from `count`, and the number is part of the id.
  rw [opened_facts]
  have hnumbers : (((o.openings scope.isSome decision.isSome).zipIdx (count + 1)).map
      Prod.snd).Nodup := by
    rw [List.zipIdx_map_snd]
    exact List.nodup_range'
  refine List.pairwise_map.mpr ((List.pairwise_map.mp hnumbers).imp ?_)
  intro a b hne heq
  exact hne (NodeId.decision_inj heq).1

theorem scope_of_opened {o : Outline} {scope : Option Scope} {decision : Option NodeId} {count : Nat}
    {outer outer' : Option Scope} {id : NodeId} (h : .opened outer id ∈ o.facts scope decision count)
    (h' : .opened outer' id ∈ o.facts scope decision count) : outer = outer' := by
  have hpairs := List.pairwise_filterMap.mp (o.pairwise_opened_facts scope decision count)
  have : Std.Symm fun a b : Fact =>
      ∀ x, a.opened? = some x → ∀ y, b.opened? = some y → x.2 ≠ y.2 :=
    ⟨fun a b hab x hx y hy => (hab y hy x hx).symm⟩
  refine Decidable.byContradiction fun hne => ?_
  have hfacts : Fact.opened outer id ≠ Fact.opened outer' id := fun heq =>
    hne (Fact.opened.inj heq).1
  exact hpairs.forall h h' hfacts _ rfl _ rfl rfl

end Outline
end FlowAtlas
