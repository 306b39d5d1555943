/-! The tokens of a text of YAML. What indentation says is said by tokens that open and close blocks. -/

namespace FlowAtlas.Yaml

inductive Directive where
  | version (major : Nat)
  | handle (name target : String)
  | other
  deriving DecidableEq, Repr

inductive Token where
  | directive (d : Directive)
  | documentStart
  | documentEnd
  | streamEnd
  | blockList
  | blockMap
  | blockEnd
  | listOpen
  | listClose
  | mapOpen
  | mapClose
  | comma
  | item
  | key
  | value
  | anchor (name : String)
  /-- The name of an anchor whose node stands here again. -/
  | reference (name : String)
  | tag (handle : Option String) (name : String)
  | scalar (text : String) (plain : Bool)
  deriving DecidableEq, Repr

end FlowAtlas.Yaml
