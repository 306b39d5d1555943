import FlowAtlas.Environment
import FlowAtlas.Watch.Event
import FlowAtlas.Watch.Pattern

/-! Which events a handler passes on, and the notices it makes of them. -/

namespace FlowAtlas

structure Handler where
  extensions : List String
  relevant : Environment → Path → Except Fault Bool := fun _ _ => .ok true
  channel : Nat

namespace Handler

def unwanted : List String :=
  ["*~", "*.swp", "*.tmp"]

def patterns (h : Handler) : List String :=
  (sortTexts h.extensions).map ("*" ++ ·)

def conflicts (h : Handler) : List String :=
  unwanted.filter (h.patterns.map Text.lower).contains

def wants (h : Handler) (path : String) : Bool :=
  (h.patterns.any fun pattern => Pattern.fits pattern path) &&
    !unwanted.any fun pattern => Pattern.fits pattern path

/-- Whether one of the paths of a notice is relevant. The source is asked about first. -/
def isRelevant (h : Handler) (env : Environment) (n : Notice) : Except Fault Bool := do
  if ← h.relevant env n.source then return true
  match n.destination with
  | none => return false
  | some p => h.relevant env p

def forward? (h : Handler) (env : Environment) (e : FileEvent) : Except Fault (Option Notice) := do
  match e.notice? with
  | none => return none
  | some n => return if ← h.isRelevant env n then some n else none

/-- The notice of an event, if one of its paths is wanted and one is relevant. Patterns are not looked
at for a directory. -/
def dispatch? (h : Handler) (env : Environment) (e : FileEvent) : Except Fault (Option Notice) :=
  if e.ofDirectory then .ok none
  else if h.conflicts ≠ [] then .error (.conflictingPatterns h.conflicts)
  else if h.wants e.destination || h.wants e.source then h.forward? env e
  else .ok none

end Handler
end FlowAtlas
