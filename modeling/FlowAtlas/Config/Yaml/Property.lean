import FlowAtlas.Config.Yaml.Cursor
import FlowAtlas.Config.Yaml.Quoted
import FlowAtlas.Config.Yaml.Token
import FlowAtlas.Text.Utf8

/-! What is said about a node or a document rather than in it: anchors, tags and directives. -/

namespace FlowAtlas.Yaml

abbrev Read (α : Type) := Except Problem (α × Nat)

def anchorName (cs : List Char) : Read String :=
  let name := cs.takeWhile isWordChar
  let rest := cs.drop name.length
  if name.isEmpty then .error (.at rest)
  else if isApart rest || rest.head?.any "?:,]\x7d%@\x60".toList.contains then
    .ok (String.ofList name, name.length)
  else .error .malformed

def isUriChar (c : Char) : Bool :=
  c.isAlphanum || "-;/?:@&=+$,_.!~*\x27()[]".toList.contains c

/-- The bytes of the address at the start; a percent sign gives one by two digits. -/
def uriBytes : List Char → Read (List UInt8)
  | '%' :: a :: b :: rest =>
    if isHexDigit a && isHexDigit b then
      (uriBytes rest).map fun (bytes, n) =>
        (((Text.natIn? 16 [a, b]).getD 0).toUInt8 :: bytes, n + 3)
    else .error .malformed
  | '%' :: rest => .error (.at (rest.dropWhile isHexDigit))
  | c :: rest =>
    if isUriChar c then (uriBytes rest).map fun (bytes, n) => (c.toNat.toUInt8 :: bytes, n + 1)
    else .ok ([], 0)
  | [] => .ok ([], 0)

def uri (cs : List Char) : Read String :=
  match uriBytes cs with
  | .error p => .error p
  | .ok ([], _) => .error (.at cs)
  | .ok (bytes, n) =>
    match Text.Utf8.decode bytes with
    | .ok s => .ok (s, n)
    | .error _ => .error .malformed

def tagHandle : List Char → Read String
  | '!' :: rest =>
    if rest.head? = some ' ' then .ok ("!", 1)
    else
      let word := rest.takeWhile isWordChar
      match rest.drop word.length with
      | '!' :: _ => .ok (String.ofList ('!' :: word ++ ['!']), word.length + 2)
      | rest => .error (.at rest)
  | rest => .error (.at rest)

def handledTag (cs : List Char) : Read Token :=
  let upToSpace := (cs.drop 1).takeWhile fun c => !isBreak c && c != ' '
  if upToSpace.contains '!' then
    match tagHandle cs with
    | .error p => .error p
    | .ok (handle, n) => (uri (cs.drop n)).map fun (name, m) => (.tag (some handle) name, n + m)
  else
    let after := cs.drop (upToSpace.length + 1)
    match uri upToSpace with
    | .error _ => .error (.at after)
    | .ok (name, n) =>
      if n = upToSpace.length then .ok (.tag (some "!") name, n + 1) else .error (.at after)

def tag (cs : List Char) : Read Token :=
  let read : Read Token :=
    match cs.drop 1 with
    | '<' :: rest =>
      match uri rest with
      | .error p => .error p
      | .ok (name, n) =>
        match rest.drop n with
        | '>' :: _ => .ok (.tag none name, n + 3)
        | rest => .error (.at rest)
    | rest => if isApart rest then .ok (.tag none "!", 1) else handledTag cs
  match read with
  | .error p => .error p
  | .ok (t, n) => if isSpaced (cs.drop n) then .ok (t, n) else .error .malformed

def digits (cs : List Char) : Read Nat :=
  let run := cs.takeWhile Char.isDigit
  if run.isEmpty then .error (.at cs) else .ok ((Text.natIn? 10 run).getD 0, run.length)

def spaces (cs : List Char) : Nat :=
  (cs.takeWhile (· == ' ')).length

def version (cs : List Char) : Except Problem (Directive × Nat) := do
  let start := spaces cs
  let (major, n) ← digits (cs.drop start)
  let rest := cs.drop (start + n)
  if rest.head? ≠ some '.' then throw (.at rest)
  let (_, m) ← digits (rest.drop 1)
  if !isSpaced (rest.drop (m + 1)) then throw .malformed
  return (.version major, start + n + 1 + m)

def handleDefinition (cs : List Char) : Except Problem (Directive × Nat) := do
  let start := spaces cs
  let (name, n) ← tagHandle (cs.drop start)
  let rest := cs.drop (start + n)
  if rest.head? ≠ some ' ' then throw (.at rest)
  let gap := spaces rest
  let (target, m) ← uri (rest.drop gap)
  if !isSpaced (rest.drop (gap + m)) then throw .malformed
  return (.handle name target, start + n + gap + m)

def directive (k : Cursor) : Except Problem (Directive × Cursor) := do
  let name := k.rest.takeWhile isWordChar
  let rest := k.rest.drop name.length
  if name.isEmpty || !isSpaced rest then throw (.at rest)
  let read : Read Directive :=
    if name = "YAML".toList then version rest
    else if name = "TAG".toList then handleDefinition rest
    else .ok (.other, (rest.takeWhile fun c => !isBreak c).length)
  let (d, n) ← read
  let stop := (k.skip (name.length + n)).skipSpaces.skipComment
  if !isLineEnd stop.rest then throw .malformed
  return (d, stop.skipBreak)

end FlowAtlas.Yaml
