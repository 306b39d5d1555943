import FlowAtlas.Proofs.FileFlow

/-! The walk over a syntax tree, with decisions or without them: from a node it goes on to the parts that
the node is shown with, and from any other node to the children. The calls that an outline states are
those that the walk comes to, in its order, each with the nearest function on the way to it. -/

namespace FlowAtlas

/-- A node that the walk comes to, with the node that counts as its parent and with what it belongs to
below the decision that it is a part of. -/
structure WalkStep where
  setting : Setting
  parent : Option SyntaxTree
  tree : SyntaxTree

namespace WalkStep

def root (t : SyntaxTree) : WalkStep :=
  ⟨.around, none, t⟩

def ofChild (parent c : SyntaxTree) : WalkStep :=
  ⟨.around, some parent, c⟩

def ofVisit (v : Visit) : WalkStep :=
  ⟨v.setting, some v.parent, v.tree⟩

end WalkStep

def Fact.site? : Fact → Option (Option String × String)
  | .called scope callee => some (scope.function, callee)
  | _ => none

namespace Grammar

def next (g : Grammar) (src : Source) (suppress : Bool) (t : SyntaxTree) : List WalkStep :=
  if g.isFunction t then t.children.map (.ofChild t)
  else
    match g.shownConstruct? suppress t with
    | some construct => (g.visits src t construct).map .ofVisit
    | none => t.children.map (.ofChild t)

theorem size_lt_of_mem_next {g : Grammar} {src : Source} {suppress : Bool} {t : SyntaxTree}
    {s : WalkStep} (h : s ∈ g.next src suppress t) : s.tree.size < t.size := by
  have hchildren : s ∈ t.children.map (.ofChild t) → s.tree.size < t.size := by
    intro hmem
    obtain ⟨c, hc, rfl⟩ := List.mem_map.mp hmem
    exact SyntaxTree.size_lt_of_mem_children hc
  unfold next at h
  split at h
  · exact hchildren h
  split at h
  · obtain ⟨v, hv, rfl⟩ := List.mem_map.mp h
    exact size_lt_of_mem_visits hv
  · exact hchildren h

/-- The ways on which the walk goes on from `s`, in its order and each with the nearest step first. It
does not enter what is hidden. -/
def walk (g : Grammar) (src : Source) (suppress : Bool) (above : List WalkStep) (s : WalkStep) :
    List (List WalkStep) :=
  if g.isHidden src s.tree then []
  else
    (s :: above) :: (g.next src suppress s.tree).attach.flatMap fun ⟨n, _⟩ =>
      walk g src suppress (s :: above) n
termination_by s.tree.size
decreasing_by exact size_lt_of_mem_next ‹_›

theorem walk_eq (g : Grammar) (src : Source) (suppress : Bool) (above : List WalkStep) (s : WalkStep) :
    g.walk src suppress above s =
      if g.isHidden src s.tree then []
      else (s :: above) :: (g.next src suppress s.tree).flatMap (g.walk src suppress (s :: above)) := by
  rw [walk]
  simp only [List.flatMap_subtype, List.unattach_attach]

def functionOn (g : Grammar) (src : Source) (way : List WalkStep) : Option String :=
  way.findSome? fun s =>
    if g.isFunction s.tree then some (g.functionName src s.parent s.tree) else none

/-- Whether a way leads into a function or into a branch. A call outside both is not stated. -/
def inScope (g : Grammar) (way : List WalkStep) : Bool :=
  way.any fun s => g.isFunction s.tree || s.setting != .around

def callOn? (g : Grammar) (src : Source) (suppress : Bool) : List WalkStep → Option (Option String × String)
  | [] => none
  | s :: above =>
    if !g.isFunction s.tree && (g.shownConstruct? suppress s.tree).isNone && g.inScope (s :: above) then
      (g.callee? src s.tree).map (g.functionOn src above, ·)
    else none

end Grammar

/-- What every outline of a sequence states in the same scope, whatever decisions come before it, the
outlines state one after the other. -/
theorem Outline.filterMap_facts_concat {α β : Type} {f : Fact → Option β} {scope : Option Scope}
    {decision : Option NodeId} {l : List α} {o : α → Outline} {read : α → List β}
    (h : ∀ a ∈ l, ∀ count, ((o a).facts scope decision count).filterMap f = read a) (count : Nat) :
    ((concat (l.map o)).facts scope decision count).filterMap f = l.flatMap read := by
  induction l generalizing count with
  | nil => rfl
  | cons a rest ih =>
    obtain ⟨hfirst, hrest⟩ := List.forall_mem_cons.mp h
    have happend : (concat ((a :: rest).map o)).facts scope decision count = _ :=
      facts_append scope decision count (o a) (concat (rest.map o))
    rw [happend, List.filterMap_append, hfirst count, ih hrest, List.flatMap_cons]

theorem Visit.facts_place (v : Visit) (o : Outline) (scope : Option Scope) (id : NodeId)
    (count : Nat) :
    (v.place o).facts scope (some id) count =
      match v.setting with
      | .around => o.facts scope (some id) count
      | .branch label => o.facts (some ⟨id, label, scope.bind Scope.function⟩) none count := by
  unfold place
  cases v.setting with
  | around => rfl
  | branch label => simp [Outline.facts, Outline.branchScope]

namespace Grammar
variable {g : Grammar} {src : Source} {suppress : Bool}

section Steps
variable {above : List WalkStep} {s : WalkStep}

theorem functionOn_function (h : g.isFunction s.tree = true) :
    g.functionOn src (s :: above) = some (g.functionName src s.parent s.tree) := by
  simp [functionOn, h]

theorem functionOn_of_not_isFunction (h : g.isFunction s.tree = false) :
    g.functionOn src (s :: above) = g.functionOn src above := by
  simp [functionOn, h]

theorem inScope_cons :
    g.inScope (s :: above) = (g.isFunction s.tree || s.setting != .around || g.inScope above) := by
  rw [inScope, List.any_cons, inScope]

theorem filterMap_walk (h : g.isHidden src s.tree = false) :
    (g.walk src suppress above s).filterMap (g.callOn? src suppress) =
      (g.callOn? src suppress (s :: above)).toList ++
        (g.next src suppress s.tree).flatMap fun n =>
          (g.walk src suppress (s :: above) n).filterMap (g.callOn? src suppress) := by
  rw [walk_eq, h, if_neg Bool.false_ne_true, List.filterMap_cons, List.filterMap_flatMap]
  cases g.callOn? src suppress (s :: above) <;> rfl

end Steps

/-- In any scope that the way to a node leads into, the outline of the node states the calls that the walk
comes to from there. -/
def StatesCalls (g : Grammar) (src : Source) (suppress : Bool) (above : List WalkStep)
    (s : WalkStep) : Prop :=
  ∀ (scope : Option Scope) (decision : Option NodeId) (count : Nat),
    scope.isSome = (s.setting != .around || g.inScope above) →
    scope.bind Scope.function = g.functionOn src above →
    ((g.outline src suppress s.parent s.tree).facts scope decision count).filterMap Fact.site? =
      (g.walk src suppress above s).filterMap (g.callOn? src suppress)

theorem sites_withCall (callee : Option String) (below : Outline) (scope : Option Scope)
    (decision : Option NodeId) (count : Nat) :
    ((withCall callee below).facts scope decision count).filterMap Fact.site? =
      (if scope.isSome then callee.map (scope.bind Scope.function, ·) else none).toList ++
        (below.facts scope decision count).filterMap Fact.site? := by
  cases callee <;> cases scope <;> simp [withCall, Outline.facts, Fact.site?]

section Below
variable {way : List WalkStep} {t : SyntaxTree} {scope : Option Scope}

theorem sites_children (h : ∀ c ∈ t.children, g.StatesCalls src suppress way (.ofChild t c))
    (hscope : scope.isSome = g.inScope way)
    (hfunction : scope.bind Scope.function = g.functionOn src way) (decision : Option NodeId)
    (count : Nat) :
    ((Outline.concat (t.children.map (g.outline src suppress (some t)))).facts scope decision
        count).filterMap Fact.site? =
      (t.children.map (.ofChild t)).flatMap fun n =>
        (g.walk src suppress way n).filterMap (g.callOn? src suppress) := by
  rw [List.flatMap_map]
  refine Outline.filterMap_facts_concat (fun c hc count => ?_) count
  exact h c hc scope decision count hscope hfunction

theorem sites_visits {construct : Construct}
    (h : ∀ v ∈ g.visits src t construct, g.StatesCalls src suppress way (.ofVisit v))
    (hscope : scope.isSome = g.inScope way)
    (hfunction : scope.bind Scope.function = g.functionOn src way) (id : NodeId) (count : Nat) :
    ((Outline.concat ((g.visits src t construct).map fun v =>
        v.place (g.outline src suppress (some v.parent) v.tree))).facts scope (some id)
        count).filterMap Fact.site? =
      ((g.visits src t construct).map .ofVisit).flatMap fun n =>
        (g.walk src suppress way n).filterMap (g.callOn? src suppress) := by
  rw [List.flatMap_map]
  refine Outline.filterMap_facts_concat (fun v hv count => ?_) count
  rw [Visit.facts_place]
  cases hsetting : v.setting with
  | around =>
    refine h v hv scope (some id) count ?_ hfunction
    rw [hscope, WalkStep.ofVisit, hsetting]
    rfl
  | branch label =>
    -- A branch is in the scope of its decision, and in the same function as the decision.
    refine h v hv (some ⟨id, label, scope.bind Scope.function⟩) none count ?_ hfunction
    rw [WalkStep.ofVisit, hsetting]
    rfl

end Below

theorem statesCalls_of_next {above : List WalkStep} {s : WalkStep}
    (h : ∀ n ∈ g.next src suppress s.tree, g.StatesCalls src suppress (s :: above) n) :
    g.StatesCalls src suppress above s := by
  intro scope decision count hscope hfunction
  by_cases hhidden : g.isHidden src s.tree = true
  · rw [outline_eq, walk_eq, if_pos hhidden, if_pos hhidden]
    rfl
  rw [outline_eq, if_neg hhidden, filterMap_walk (Bool.not_eq_true _ ▸ hhidden)]
  unfold next at h ⊢
  by_cases hisFunction : g.isFunction s.tree = true
  · rw [if_pos hisFunction] at h
    have hinside : (some (Scope.ofFunction (g.functionName src s.parent s.tree))).isSome =
        g.inScope (s :: above) := by
      rw [inScope_cons, hisFunction]
      rfl
    have hbody := sites_children (List.forall_mem_map.mp h) hinside
      (functionOn_function hisFunction).symm none count
    simpa [Outline.facts, List.filterMap_cons, Fact.site?, callOn?, hisFunction] using hbody
  rw [if_neg hisFunction] at h
  rw [if_neg hisFunction, if_neg hisFunction]
  rw [Bool.not_eq_true] at hisFunction
  have hbelow : scope.isSome = g.inScope (s :: above) := by
    rw [hscope, inScope_cons, hisFunction, Bool.false_or]
  have hnearest : scope.bind Scope.function = g.functionOn src (s :: above) := by
    rw [hfunction, functionOn_of_not_isFunction hisFunction]
  cases hconstruct : g.shownConstruct? suppress s.tree with
  | some construct =>
    rw [hconstruct] at h
    have hparts := sites_visits (List.forall_mem_map.mp h) hbelow hnearest
    simp [Outline.facts, List.filterMap_cons, Fact.site?, callOn?, hconstruct, hparts]
  | none =>
    rw [hconstruct] at h
    have hchildren := sites_children (List.forall_mem_map.mp h) hbelow hnearest decision count
    have hcall : g.callOn? src suppress (s :: above) =
        if scope.isSome then (g.callee? src s.tree).map (scope.bind Scope.function, ·) else none := by
      simp [callOn?, hisFunction, hconstruct, hbelow, hfunction]
    rw [sites_withCall, hcall, hchildren]

theorem statesCalls (above : List WalkStep) (s : WalkStep) : g.StatesCalls src suppress above s := by
  induction hn : s.tree.size using Nat.strongRecOn generalizing above s with
  | _ n ih =>
    subst hn
    apply statesCalls_of_next
    intro n hn
    exact ih _ (size_lt_of_mem_next hn) (s :: above) n rfl

end Grammar
end FlowAtlas
