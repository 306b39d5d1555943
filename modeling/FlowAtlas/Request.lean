import FlowAtlas.Config.Value

/-! Requests, and their reading from the fields of a record. All that is wrong with a record is told:
first of the known fields in their order, then of those that no request has. -/

namespace FlowAtlas

structure CrawlRequest where
  root : String
  suppress : Bool := false
  deriving DecidableEq, Repr

structure TraceRequest where
  source : String
  sink : String
  deriving DecidableEq, Repr

inductive IssueKind where
  | missing
  | notText
  | notBoolean
  | unreadableBoolean
  | unknownField
  deriving DecidableEq, Repr

structure Issue where
  kind : IssueKind
  field : String
  deriving DecidableEq, Repr

namespace Request

def yesWords : List String :=
  ["1", "on", "t", "true", "y", "yes"]

def noWords : List String :=
  ["0", "off", "f", "false", "n", "no"]

/-- Zero is a no and one a yes. Numbers of more than 64 bits are not taken for answers at all. -/
def booleanOfInt (n : Int) : Except IssueKind Bool :=
  if n = 0 then .ok false
  else if n = 1 then .ok true
  else if -0x8000000000000000 ≤ n ∧ n < 0x8000000000000000 then .error .unreadableBoolean
  else .error .notBoolean

def booleanOfFloat (x : Float) : Except IssueKind Bool :=
  match wholeOf? x with
  | none => .error .notBoolean
  | some n => if n = -0x8000000000000000 then .error .notBoolean else booleanOfInt n

def boolean : Value → Except IssueKind Bool
  | .bool b => .ok b
  | .int n => booleanOfInt n
  | .float x => booleanOfFloat x
  | .text s =>
    let word := Text.lowerAscii s
    if yesWords.contains word then .ok true
    else if noWords.contains word then .ok false
    else .error .unreadableBoolean
  | _ => .error .notBoolean

def requiredText : Option Value → Except IssueKind String
  | none => .error .missing
  | some (.text s) => .ok s
  | some _ => .error .notText

def issuesOf {α : Type} (field : String) : Except IssueKind α → List Issue
  | .ok _ => []
  | .error kind => [⟨kind, field⟩]

def unknownFields (known : List String) (fields : List (String × Value)) : List Issue :=
  (fields.filter fun f => !known.contains f.1).map fun f => ⟨.unknownField, f.1⟩

end Request

open Request in
def CrawlRequest.ofFields (fields : List (String × Value)) : Except (List Issue) CrawlRequest :=
  let root := requiredText (fields.lookup "root_path")
  let suppress : Except IssueKind Bool :=
    match fields.lookup "suppress_decisions" with
    | none => .ok false
    | some v => boolean v
  let extra := unknownFields ["root_path", "suppress_decisions"] fields
  match root, suppress, extra with
  | .ok root, .ok suppress, [] => .ok ⟨root, suppress⟩
  | root, suppress, extra =>
    .error (issuesOf "root_path" root ++ issuesOf "suppress_decisions" suppress ++ extra)

open Request in
def TraceRequest.ofFields (fields : List (String × Value)) : Except (List Issue) TraceRequest :=
  let source := requiredText (fields.lookup "source")
  let sink := requiredText (fields.lookup "sink")
  let extra := unknownFields ["source", "sink"] fields
  match source, sink, extra with
  | .ok source, .ok sink, [] => .ok ⟨source, sink⟩
  | source, sink, extra =>
    .error (issuesOf "source" source ++ issuesOf "sink" sink ++ extra)

end FlowAtlas
