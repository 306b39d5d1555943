import FlowAtlas.Config.Yaml.Cursor

/-! Plain scalars: words without quotes, on one line or on several that are folded. -/

namespace FlowAtlas.Yaml

def isFlowMark (c : Char) : Bool :=
  c == ',' || c == '[' || c == ']' || c == '\x7b' || c == '\x7d'

/-- The length of the word at the start. A colon ends it before a blank, and inside a flow collection
before one of its marks. -/
def wordLength (inFlow : Bool) : List Char → Nat
  | [] => 0
  | c :: rest =>
    let isEnd :=
      isApart (c :: rest) ||
        (c == ':' && (isApart rest || (inFlow && rest.head?.any isFlowMark))) ||
        (inFlow && (isFlowMark c || c == '?'))
    if isEnd then 0 else wordLength inFlow rest + 1

def startsPlain (inFlow : Bool) : List Char → Bool
  | [] => false
  | c :: rest =>
    if c == '-' || c == '?' || c == ':' then !isApart rest && (c == '-' || !inFlow)
    else !isApart [c] && !("#&*!|>\x27\"%@\x60".toList.contains c) && !isFlowMark c

structure Spacing where
  chars : List Char
  stop : Cursor
  broken : Bool

/-- The spaces or line breaks after a word; empty in front of a mark of a document. -/
def spacing (k : Cursor) : Spacing :=
  let afterSpaces := k.skipSpaces
  match afterSpaces.rest with
  | c :: rest =>
    if isBreak c then
      let (n, breaks) := gap (· == ' ') true rest
      ⟨(breaks.map (folded c)).getD [], afterSpaces.skip (n + 1), true⟩
    else ⟨k.rest.takeWhile (· == ' '), afterSpaces, false⟩
  | [] => ⟨k.rest.takeWhile (· == ' '), afterSpaces, false⟩

structure PlainScalar where
  chars : List Char
  stop : Cursor
  broken : Bool

/-- The words from here on, in at most `fuel` of them. Outside of flow collections a line that is
indented by less than `indent` ends them. -/
def plainFrom (inFlow : Bool) (indent : Nat) : Nat → Spacing → PlainScalar
  | 0, before => ⟨[], before.stop, before.broken⟩
  | fuel + 1, before =>
    let k := before.stop
    let n := wordLength inFlow k.rest
    if n = 0 then ⟨[], k, before.broken⟩
    else
      let after := spacing (k.skip n)
      let word := before.chars ++ k.rest.take n
      if after.chars.isEmpty || after.stop.rest.head? = some '#' ||
          (!inFlow && after.stop.column < indent) then
        ⟨word, after.stop, after.broken⟩
      else
        let more := plainFrom inFlow indent fuel after
        { more with chars := word ++ more.chars }

def plain (inFlow : Bool) (indent : Nat) (k : Cursor) : PlainScalar :=
  plainFrom inFlow indent k.rest.length ⟨[], k, false⟩

def PlainScalar.lookahead (inFlow : Bool) (indent : Nat) (scalar : PlainScalar) : Nat :=
  let k := scalar.stop
  let mark := if scalar.broken then markLength k.rest - k.column else 1
  let isOutside := scalar.broken && !inFlow && k.column < indent
  max mark (if k.rest.head? = some ':' && !isOutside then 2 else 1)

end FlowAtlas.Yaml
