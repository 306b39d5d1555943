import FlowAtlas.FileFlow
import FlowAtlas.Language.Grammars

/-! Reading a source text with the parser of its language. A text that cannot be parsed has no flow,
and a message may say why. -/

namespace FlowAtlas

inductive Parse where
  | failed (reason : String)
  | malformed
  | tree (root : SyntaxTree)

/-- The parsers of all languages. One that could not be set up has a reason. -/
structure Parsers where
  unavailable : Language → Option String
  parse : Language → String → Parse
  /-- Whether the tree of a text can be walked, with decisions suppressed or not. A tree that is too deep
  cannot. -/
  walks : Language → Bool → String → Bool := fun _ _ _ => true

namespace Parsers

def setupLogOf (p : Parsers) (l : Language) : List String :=
  (p.unavailable l).toList.map fun reason =>
    l.parserName ++ " Warning: Failed to initialize tree-sitter '" ++ l.name ++ "' parser: " ++
      reason ++ "."

def setupLog (p : Parsers) : List String :=
  Language.all.flatMap p.setupLogOf

/-- The tree that a text has, if its parser is available and accepts it, and the tree can be walked. -/
def tree? (p : Parsers) (l : Language) (suppress : Bool) (text : String) : Option SyntaxTree :=
  if (p.unavailable l).isSome then none
  else
    match p.parse l text with
    | .tree root => if p.walks l suppress text then some root else none
    | _ => none

def flow (p : Parsers) (l : Language) (suppress : Bool) (text : String) : FileFlow :=
  match p.tree? l suppress text with
  | none => .empty
  | some root => l.grammar.flow (.ofString text) suppress root

def log (p : Parsers) (l : Language) (suppress verbose : Bool) (text : String) : List String :=
  if (p.unavailable l).isSome then []
  else
    match p.parse l text with
    | .failed reason => [l.parserName ++ " Warning: tree-sitter raised while parsing: " ++ reason]
    | .malformed =>
      if verbose then [l.parserName ++ ": Syntax errors reported by tree-sitter, skipping file."]
      else []
    | .tree _ =>
      if (p.tree? l suppress text).isSome then []
      else [l.parserName ++ " Warning: Syntax tree too deeply nested to walk, skipping file."]

end Parsers
end FlowAtlas
