import FlowAtlas.Outline.Reading

/-! The parts of a decision: which nodes below an `if`, a loop or a `match` are visited, in which
order, and in which branch. -/

namespace FlowAtlas

inductive Construct where
  | conditional
  | loop
  | choice
  deriving DecidableEq, Repr

inductive Setting where
  | around
  | branch (label : Option String)
  deriving DecidableEq, Repr

structure Visit where
  setting : Setting
  parent : SyntaxTree
  tree : SyntaxTree

namespace Grammar

def isLoop (g : Grammar) (t : SyntaxTree) : Bool :=
  g.loops.forKinds.contains t.kind || g.loops.whileKinds.contains t.kind ||
    g.loops.endlessKinds.contains t.kind

def construct? (g : Grammar) (t : SyntaxTree) : Option Construct :=
  if g.conditional.kind == some t.kind then some .conditional
  else if g.isLoop t then some .loop
  else if g.choice.kind == some t.kind then some .choice
  else none

def shown (g : Grammar) (keyword text : String) : String :=
  let text := Text.truncate text g.labelLimit
  if text = "" then keyword else keyword ++ " " ++ text

def display (g : Grammar) (src : Source) (t : SyntaxTree) : Construct → String
  | .conditional => g.shown "if" (src.textOf (t.childIn? g.conditional.condition))
  | .loop =>
    if g.loops.whileKinds.contains t.kind then
      g.shown "while" (src.textOf (t.childIn? g.loops.condition))
    else if g.loops.endlessKinds.contains t.kind then "loop"
    else "for"
  | .choice => g.shown "match" (src.textOf (t.childIn? g.choice.subject))

end Grammar

def Visit.ofChild (setting : Setting) (parent : SyntaxTree) (child : Option SyntaxTree) :
    List Visit :=
  child.toList.map fun c => ⟨setting, parent, c⟩

/-- The children of a kind; none if there is no such kind. -/
def SyntaxTree.childrenOfKind (t : SyntaxTree) (kind : Option String) : List SyntaxTree :=
  t.children.filter fun c => kind == some c.kind

namespace IfRule

def elifLabel (index : Nat) : String :=
  if index = 0 then "Elif" else "Elif_" ++ toString (index + 1)

/-- The condition, the two branches, then each further condition with its branch, then the last
alternative. Conditions run in the scope around the decision. -/
def visits (r : IfRule) (t : SyntaxTree) : List Visit :=
  Visit.ofChild .around t (t.childIn? r.condition) ++
  Visit.ofChild (.branch (some "True")) t (t.childIn? r.consequence) ++
  Visit.ofChild (.branch (some "False")) t (t.childIn? r.alternative) ++
  ((t.childrenOfKind r.elifKind).zipIdx.flatMap fun (clause, i) =>
    Visit.ofChild .around clause (clause.childIn? r.elifCondition) ++
    Visit.ofChild (.branch (some (elifLabel i))) clause (clause.childIn? r.elifBody)) ++
  ((t.childrenOfKind r.elseKind).take 1).flatMap fun clause =>
    Visit.ofChild (.branch (some "False")) clause (clause.childIn? r.elseBody)

end IfRule

/-- Every child of the loop; all but the body run in the scope around it. -/
def LoopRule.visits (r : LoopRule) (t : SyntaxTree) : List Visit :=
  t.children.map fun c =>
    ⟨if (t.childIn? r.body).any c.sameSpan then .branch (some "Loop") else .around, t, c⟩

namespace MatchRule

def patterns (r : MatchRule) (arm : SyntaxTree) : List SyntaxTree :=
  (arm.childIn? r.patternField).toList ++ arm.childrenOfKind r.patternKind

def armLabel (r : MatchRule) (src : Source) (arm : SyntaxTree) :
    Option String :=
  let texts := ((r.patterns arm).map src.text).filter (· ≠ "")
  if texts.isEmpty then r.defaultLabel else some (Text.joinWith ", " texts)

def arms (r : MatchRule) (t : SyntaxTree) : List SyntaxTree :=
  ((t.childIn? r.body).getD t).children.filter fun arm => r.armKinds.contains arm.kind

def armVisits (r : MatchRule) (src : Source) (arm : SyntaxTree) : List Visit :=
  (arm.children.filter fun c => !(r.patterns arm).any c.sameSpan).map fun c =>
    ⟨.branch (r.armLabel src arm), arm, c⟩

def visits (r : MatchRule) (src : Source) (t : SyntaxTree) : List Visit :=
  Visit.ofChild .around t (t.childIn? r.subject) ++ (r.arms t).flatMap (r.armVisits src)

end MatchRule

def Grammar.visits (g : Grammar) (src : Source) (t : SyntaxTree) : Construct → List Visit
  | .conditional => g.conditional.visits t
  | .loop => g.loops.visits t
  | .choice => g.choice.visits src t

namespace Visit

theorem size_lt_of_mem_ofChild {v : Visit} {setting : Setting} {parent t : SyntaxTree}
    {field : Option String} (h : v ∈ ofChild setting parent (t.childIn? field)) :
    v.tree.size < t.size := by
  simp only [ofChild, List.mem_map, Option.mem_toList] at h
  obtain ⟨c, hc, rfl⟩ := h
  exact SyntaxTree.size_lt_of_mem_children (SyntaxTree.mem_children_of_childIn? hc)

end Visit

theorem SyntaxTree.size_lt_of_mem_childrenOfKind {c t : SyntaxTree} {kind : Option String}
    (h : c ∈ t.childrenOfKind kind) : c.size < t.size :=
  size_lt_of_mem_children (List.mem_filter.mp h).1

theorem IfRule.size_lt_of_mem_visits {r : IfRule} {t : SyntaxTree} {v : Visit}
    (h : v ∈ r.visits t) : v.tree.size < t.size := by
  simp only [IfRule.visits, List.mem_append, List.mem_flatMap] at h
  rcases h with (((h | h) | h) | ⟨⟨clause, i⟩, hc, h⟩) | ⟨clause, hc, h⟩
  · exact Visit.size_lt_of_mem_ofChild h
  · exact Visit.size_lt_of_mem_ofChild h
  · exact Visit.size_lt_of_mem_ofChild h
  · have hlt := SyntaxTree.size_lt_of_mem_childrenOfKind (List.fst_mem_of_mem_zipIdx hc)
    rcases h with h | h
    · exact Nat.lt_trans (Visit.size_lt_of_mem_ofChild h) hlt
    · exact Nat.lt_trans (Visit.size_lt_of_mem_ofChild h) hlt
  · exact Nat.lt_trans (Visit.size_lt_of_mem_ofChild h)
      (SyntaxTree.size_lt_of_mem_childrenOfKind (List.mem_of_mem_take hc))

theorem LoopRule.size_lt_of_mem_visits {r : LoopRule} {t : SyntaxTree} {v : Visit}
    (h : v ∈ r.visits t) : v.tree.size < t.size := by
  simp only [LoopRule.visits, List.mem_map] at h
  obtain ⟨c, hc, rfl⟩ := h
  exact SyntaxTree.size_lt_of_mem_children hc

theorem MatchRule.size_lt_of_mem_arms {r : MatchRule} {t arm : SyntaxTree} (h : arm ∈ r.arms t) :
    arm.size < t.size := by
  have hc := (List.mem_filter.mp h).1
  cases hb : t.childIn? r.body with
  | none => exact SyntaxTree.size_lt_of_mem_children (by simpa [hb] using hc)
  | some body =>
    rw [hb, Option.getD_some] at hc
    exact Nat.lt_trans (SyntaxTree.size_lt_of_mem_children hc)
      (SyntaxTree.size_lt_of_mem_children (SyntaxTree.mem_children_of_childIn? hb))

theorem MatchRule.size_lt_of_mem_visits {r : MatchRule} {src : Source} {t : SyntaxTree} {v : Visit}
    (h : v ∈ r.visits src t) : v.tree.size < t.size := by
  simp only [MatchRule.visits, List.mem_append, List.mem_flatMap, armVisits, List.mem_map] at h
  rcases h with h | ⟨arm, ha, c, hc, rfl⟩
  · exact Visit.size_lt_of_mem_ofChild h
  · exact Nat.lt_trans (SyntaxTree.size_lt_of_mem_children (List.mem_filter.mp hc).1)
      (size_lt_of_mem_arms ha)

theorem Grammar.size_lt_of_mem_visits {g : Grammar} {src : Source} {t : SyntaxTree}
    {c : Construct} {v : Visit} (h : v ∈ g.visits src t c) : v.tree.size < t.size := by
  cases c with
  | conditional => exact IfRule.size_lt_of_mem_visits h
  | loop => exact LoopRule.size_lt_of_mem_visits h
  | choice => exact MatchRule.size_lt_of_mem_visits h

end FlowAtlas
