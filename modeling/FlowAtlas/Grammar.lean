/-! What the kinds of nodes and the fields of a language's syntax trees mean for the flow of a
program. A rule left out disables what it describes. -/

namespace FlowAtlas

/-- Conditionals. What follows a false condition stands in a field of the conditional, or in clauses
among its children. -/
structure IfRule where
  kind : Option String := none
  condition : Option String := none
  consequence : Option String := none
  alternative : Option String := none
  elifKind : Option String := none
  elifCondition : Option String := none
  elifBody : Option String := none
  elseKind : Option String := none
  elseBody : Option String := none
  deriving DecidableEq, Repr

/-- Loops. Those of `whileKinds` show their condition, those of `endlessKinds` have none. -/
structure LoopRule where
  forKinds : List String := []
  whileKinds : List String := []
  endlessKinds : List String := []
  body : Option String := none
  condition : Option String := none
  deriving DecidableEq, Repr

/-- Choices between patterns. The arms are children of the body, if a field holds one; the pattern of
an arm stands in a field or is made of children of one kind. -/
structure MatchRule where
  kind : Option String := none
  subject : Option String := none
  body : Option String := none
  armKinds : List String := []
  patternKind : Option String := none
  patternField : Option String := none
  /-- The label of an arm without a pattern. -/
  defaultLabel : Option String := some "_"
  deriving DecidableEq, Repr

structure Grammar where
  functionKinds : List String
  nameField : Option String := some "name"
  /-- Functions without a name of their own, which take it from a binding around them. -/
  closureKinds : List String := []
  bindingKinds : List String := []
  bindingField : Option String := some "name"
  callKind : Option String
  /-- Where a call holds what it calls. If absent, that is the first child in no field. -/
  calleeField : Option String := some "function"
  methodKind : Option String
  methodField : Option String
  pathKind : Option String := none
  pathField : Option String := none
  builtins : List String := []
  conditional : IfRule := {}
  loops : LoopRule := {}
  choice : MatchRule := {}
  testKind : Option String := none
  testField : Option String := some "name"
  testNames : List String := []
  /-- Comments, and what may stand between a comment and the function it belongs to. -/
  commentKind : Option String := none
  wrapperKinds : List String := []
  attributeKinds : List String := []
  labelLimit : Int := 40
  deriving DecidableEq, Repr

end FlowAtlas
