import FlowAtlas.Files
import FlowAtlas.Parser
import FlowAtlas.SyntaxTree.Rows
import FlowAtlas.Text.Utf8

/-! Syntax trees in files of their own. The tree of `a.py` stands beside it in `a.py.tree`, one row a
line: kind, named or not, field, parent, first byte, end, and line, with tabs between them. A hyphen
stands for no field and for no parent. -/

namespace FlowAtlas

def SyntaxTree.Row.ofLine? (line : String) : Option SyntaxTree.Row :=
  match Text.splitOnChar '\t' line with
  | [kind, named, field, parent, start, stop, row] => do
    let start ← start.toNat?
    let stop ← stop.toNat?
    let row ← row.toNat?
    let parent ← if parent = "-" then some none else parent.toNat?.map some
    return {
      info :=
        { kind, named := named = "1", field := if field = "-" then none else some field, start, stop,
          row }
      parent }
  | _ => none

def SyntaxTree.ofText? (text : String) : Option SyntaxTree :=
  (((Text.splitOnChar '\n' text).filter (· ≠ "")).mapM Row.ofLine?).bind ofRows?

namespace Parsers

def textAt? (fs : Files) (a : Address) : Option String :=
  (fs.bytes? a).bind fun bytes =>
    match Text.Utf8.decode bytes with
    | .ok s => some (String.ofList (Text.unifyBreaks s.toList))
    | .error _ => none

def sourceWithTree? (fs : Files) (a : Address) : Option (Language × String × SyntaxTree) := do
  let name ← a.getLast?
  let l ← Language.ofExtension? (extensionOf name)
  let text ← textAt? fs a
  let root ← SyntaxTree.ofText? (← textAt? fs (a.dropLast ++ [name ++ ".tree"]))
  return (l, text, root)

def ofTreeFiles (fs : Files) : Parsers :=
  let known := fs.entries.keys.filterMap (sourceWithTree? fs)
  { unavailable := fun _ => none
    parse := fun l text =>
      match known.find? fun (l', text', _) => l' = l && text' = text with
      | some (_, _, root) => .tree root
      | none => .malformed }

end Parsers
end FlowAtlas
