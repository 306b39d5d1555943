import FlowAtlas.Grammar
import FlowAtlas.SyntaxTree
import FlowAtlas.Text.Search

/-! What a grammar says about single nodes: which are functions, calls or hidden scopes, and what they
are called. -/

namespace FlowAtlas.Grammar

def anonymous : String := "<anon_fn>"

def isHidden (g : Grammar) (src : Source) (t : SyntaxTree) : Bool :=
  g.testKind == some t.kind && g.testNames.contains (src.textOf (t.childIn? g.testField))

def isFunction (g : Grammar) (t : SyntaxTree) : Bool :=
  g.functionKinds.contains t.kind || g.closureKinds.contains t.kind

/-- A function has its own name; a closure that of the binding it is the value of. -/
def functionName (g : Grammar) (src : Source) (parent : Option SyntaxTree) (t : SyntaxTree) :
    String :=
  let name :=
    if g.functionKinds.contains t.kind then src.textOf (t.childIn? g.nameField)
    else
      match parent with
      | none => ""
      | some p => if g.bindingKinds.contains p.kind then src.textOf (p.childIn? g.bindingField) else ""
  if name = "" then anonymous else name

/-- The last part of a method or path, else the whole text of what is called; empty if nothing is. -/
def calleeName (g : Grammar) (src : Source) (t : SyntaxTree) : String :=
  match t.children.find? fun c => c.info.field == g.calleeField with
  | none => ""
  | some called =>
    let last :=
      if g.methodKind == some called.kind then src.textOf (called.childIn? g.methodField)
      else if g.pathKind == some called.kind then
        src.textOf (called.child? (g.pathField.getD "name"))
      else ""
    if last = "" then src.text called else last

def callee? (g : Grammar) (src : Source) (t : SyntaxTree) : Option String :=
  if g.callKind == some t.kind then
    let name := g.calleeName src t
    if name = "" then none else some name
  else none

end FlowAtlas.Grammar
