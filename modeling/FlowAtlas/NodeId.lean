import FlowAtlas.Text.Search

/-! Node ids. A node of one file is a plain name or a decision, which carries its number and its
display text; in a graph of many files the path of the file comes first. -/

namespace FlowAtlas

abbrev NodeId := String

namespace NodeId

def displayMark : String := "\x1f"

def fileMark : String := "::"

def decision (number : Nat) (display : String) : NodeId :=
  "_decision_" ++ toString number ++ displayMark ++ display

def isDecision (id : NodeId) : Bool :=
  Text.occursIn displayMark id

/-- What a reader is shown: the display text of a decision, any other id as it is. -/
def display (id : NodeId) : String :=
  match Text.cut displayMark id with
  | none => id
  | some (_, shown) => shown

def inFile (path : String) (id : NodeId) : NodeId :=
  path ++ fileMark ++ id

/-- The path and the id within the file, taken apart at the first mark; no path without a mark. -/
def splitFile (id : NodeId) : Option String × NodeId :=
  match Text.cut fileMark id with
  | none => (none, id)
  | some (path, bare) => (some path, bare)

end NodeId
end FlowAtlas
