import FlowAtlas.Config.Yaml.Cursor
import FlowAtlas.Config.Yaml.Problem

/-! Block scalars: the lines below a bar or an angle, taken as they are or folded. -/

namespace FlowAtlas.Yaml

inductive Chomping where
  | strip
  | clip
  | keep
  deriving DecidableEq, Repr

structure BlockHeader where
  chomping : Chomping := .clip
  indent : Option Nat := none
  stop : Cursor

def chomping? : Char → Option Chomping
  | '+' => some .keep
  | '-' => some .strip
  | _ => none

def digit? (c : Char) : Option Nat :=
  if c.isDigit then some (c.toNat - 48) else none

def BlockHeader.indicators (k : Cursor) : BlockHeader :=
  match k.rest with
  | c :: rest =>
    match chomping? c, digit? c with
    | some chomping, _ =>
      match rest.head?.bind digit? with
      | some n => ⟨chomping, some n, k.skip 2⟩
      | none => ⟨chomping, none, k.skip 1⟩
    | none, some n =>
      match rest.head?.bind chomping? with
      | some chomping => ⟨chomping, some n, k.skip 2⟩
      | none => ⟨.clip, some n, k.skip 1⟩
    | none, none => { stop := k }
  | [] => { stop := k }

def BlockHeader.read (k : Cursor) : Except Problem BlockHeader :=
  let header := BlockHeader.indicators k
  if header.indent = some 0 then .error .malformed
  else if !isSpaced header.stop.rest then .error .malformed
  else
    let stop := header.stop.skipSpaces.skipComment
    if isLineEnd stop.rest then .ok { header with stop := stop.skipBreak } else .error .malformed

def leadingLines (column : Nat) : List Char → Nat × List Char × Nat
  | [] => (0, [], 0)
  | c :: rest =>
    if isBreak c then
      let (n, breaks, widest) := leadingLines 0 rest
      (n + 1, breakChar c :: breaks, widest)
    else if c == ' ' then
      let (n, breaks, widest) := leadingLines (column + 1) rest
      (n + 1, breaks, max widest (column + 1))
    else (0, [], 0)

def emptyLines (indent column : Nat) : List Char → Nat × List Char
  | [] => (0, [])
  | c :: rest =>
    if c == ' ' && column < indent then
      let (n, breaks) := emptyLines indent (column + 1) rest
      (n + 1, breaks)
    else if isBreak c then
      let (n, breaks) := emptyLines indent 0 rest
      (n + 1, breakChar c :: breaks)
    else (0, [])

structure BlockLines where
  chars : List Char
  lastBreak : List Char
  breaks : List Char
  stop : Cursor

def isIndented (indent : Nat) (k : Cursor) : Bool :=
  k.column == indent && !k.rest.isEmpty

/-- What stands between two lines of a block, the first of which is `line`. Two lines that begin with
no blank are folded. -/
def betweenLines (fold : Bool) (line lastBreak breaks after : List Char) : List Char :=
  if fold && lastBreak == ['\n'] && !line.head?.any isBlank && !after.head?.any isBlank then
    if breaks.isEmpty then [' '] else []
  else lastBreak

def blockLines (fold : Bool) (indent : Nat) : Nat → List Char → List Char → Cursor → BlockLines
  | 0, before, lastBreak, k => ⟨[], lastBreak, before, k⟩
  | fuel + 1, before, lastBreak, k =>
    if isIndented indent k then
      let line := k.rest.takeWhile fun c => !isBreak c
      let lineEnd := k.skip line.length
      let ending := (lineEnd.rest.take 1).map breakChar
      let next := lineEnd.skipBreak
      let (n, breaks) := emptyLines indent next.column next.rest
      let next := next.skip n
      if isIndented indent next then
        let more := blockLines fold indent fuel breaks ending next
        { more with
          chars := before ++ line ++ betweenLines fold line ending breaks next.rest ++ more.chars }
      else ⟨before ++ line, ending, breaks, next⟩
    else ⟨[], lastBreak, before, k⟩

/-- A block scalar, from behind its mark, inside a block that is indented by `outer`; and the place
after it. -/
def blockScalar (fold : Bool) (outer : Option Nat) (k : Cursor) :
    Except Problem (List Char × Cursor) :=
  (BlockHeader.read k).map fun header =>
    let least := max 1 ((outer.map (· + 1)).getD 0)
    let start := header.stop
    let (indent, n, breaks) :=
      match header.indent with
      | some more =>
        let indent := least + more - 1
        let (n, breaks) := emptyLines indent start.column start.rest
        (indent, n, breaks)
      | none =>
        let (n, breaks, widest) := leadingLines start.column start.rest
        (max least widest, n, breaks)
    let lines := blockLines fold indent (start.rest.length + 1) breaks [] (start.skip n)
    let ending :=
      match header.chomping with
      | .strip => []
      | .clip => lines.lastBreak
      | .keep => lines.lastBreak ++ lines.breaks
    (lines.chars ++ ending, lines.stop)

end FlowAtlas.Yaml
