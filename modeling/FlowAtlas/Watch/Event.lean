import FlowAtlas.Path

/-! Events of files as they are reported, and the notices that come of them. -/

namespace FlowAtlas

inductive EventKind where
  | created
  | modified
  | deleted
  | moved
  | opened
  | closed
  deriving DecidableEq, Repr

def EventKind.name : EventKind → String
  | created => "created"
  | modified => "modified"
  | deleted => "deleted"
  | moved => "moved"
  | opened => "opened"
  | closed => "closed"

/-- What happened to a file or directory. The destination is empty unless it was moved. -/
structure FileEvent where
  kind : EventKind
  source : String
  destination : String := ""
  ofDirectory : Bool := false
  deriving DecidableEq, Repr

structure Notice where
  kind : EventKind
  source : Path
  destination : Option Path := none
  deriving DecidableEq, Repr

/-- The change that an event tells of. Opening and closing change nothing, and directories are left
to the events of what they hold. -/
def FileEvent.notice? (e : FileEvent) : Option Notice :=
  if e.ofDirectory then none
  else
    match e.kind with
    | .opened | .closed => none
    | .moved => some ⟨.moved, .ofString e.source, some (.ofString e.destination)⟩
    | kind => some { kind, source := .ofString e.source }

end FlowAtlas
