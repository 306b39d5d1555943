import FlowAtlas.Files
import FlowAtlas.Watch.Event

/-! The events between two views of the same files. -/

namespace FlowAtlas.Files

def changeAt? (old : Files) (a : Address) (e : Entry) : Option EventKind :=
  match e, old.entries.find? a with
  | .file bytes, some (.file before) => if bytes = before then none else some .modified
  | .file _, _ => some .created
  | _, _ => none

def isFileAt (fs : Files) (a : Address) : Bool :=
  match fs.entries.find? a with
  | some (.file _) => true
  | _ => false

def changes (old new : Files) : List FileEvent :=
  let written := new.entries.entries.filterMap fun (a, e) =>
    (old.changeAt? a e).map fun kind => { kind, source := Address.text a }
  let gone := old.entries.keys.filter fun a => old.isFileAt a && !new.isFileAt a
  written ++ gone.map fun a => { kind := .deleted, source := Address.text a }

end FlowAtlas.Files
