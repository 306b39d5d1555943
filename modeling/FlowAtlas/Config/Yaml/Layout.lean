import FlowAtlas.Config.Yaml.Literal
import FlowAtlas.Config.Yaml.Plain
import FlowAtlas.Config.Yaml.Property
import FlowAtlas.Config.Yaml.Quoted

/-! Reading the tokens of a text. A key shows itself only by the colon after it, so the places where one
may have begun are remembered, and a token is put in there once the colon comes. -/

namespace FlowAtlas.Yaml

structure KeyPlace where
  token : Nat
  required : Bool
  start : Cursor

def KeyPlace.isGone (p : KeyPlace) (k : Cursor) : Bool :=
  p.start.line != k.line || 1024 < k.index - p.start.index

structure Layout where
  cursor : Cursor
  tokens : List Token := []
  /-- The indentations of the open blocks, innermost first. -/
  indents : List Nat := []
  place : Option KeyPlace := none
  /-- The places of keys in the collections around the innermost one, of which all but the last are flow
  collections. -/
  outer : List (Option KeyPlace) := []
  keyAllowed : Bool := true
  isCut : Bool := false

namespace Layout

def inFlow (s : Layout) : Bool :=
  !s.outer.isEmpty

def column (s : Layout) : Nat :=
  s.cursor.column

def rest (s : Layout) : List Char :=
  s.cursor.rest

def isDeeper (s : Layout) (column : Nat) : Bool :=
  s.indents.head?.all (· < column)

def push (s : Layout) (t : Token) : Layout :=
  { s with tokens := t :: s.tokens }

def insert (s : Layout) (before : Nat) (t : Token) : Layout :=
  let after := s.tokens.length - before
  { s with tokens := s.tokens.take after ++ t :: s.tokens.drop after }

def advance (s : Layout) (n : Nat) : Layout :=
  { s with cursor := s.cursor.skip n }

/-- Passes over blanks, comments and line breaks. A key may begin on a new line of a block. -/
def skipToToken (s : Layout) : Nat → Layout
  | 0 => s
  | fuel + 1 =>
    let k := s.cursor.skipSpaces.skipComment
    if k.rest.head?.any isBreak then
      { s with cursor := k.step, keyAllowed := s.keyAllowed || !s.inFlow }.skipToToken fuel
    else { s with cursor := k }

def skipOrderMark (s : Layout) : Layout :=
  if s.cursor.index = 0 && s.rest.head? = some '\uFEFF' then s.advance 1 else s

def forgetGone (s : Layout) : Except Problem Layout :=
  let isGone (p : KeyPlace) := p.isGone s.cursor
  if (s.place :: s.outer).any fun p => p.any fun p => p.required && isGone p then .error .malformed
  else
    let keep (p : Option KeyPlace) := p.filter (!isGone ·)
    .ok { s with place := keep s.place, outer := s.outer.map keep }

def forget (s : Layout) : Except Problem Layout :=
  if s.place.any KeyPlace.required then .error .malformed else .ok { s with place := none }

def remember (s : Layout) : Except Problem Layout :=
  if s.keyAllowed then
    s.forget.map fun s =>
      let required := !s.inFlow && s.indents.head? == some s.column
      { s with place := some ⟨s.tokens.length, required, s.cursor⟩ }
  else .ok s

def closeBlocks (s : Layout) (column : Option Nat) : Layout :=
  if s.inFlow then s
  else
    let open? (indent : Nat) := column.all (· < indent)
    let closed := s.indents.takeWhile open?
    { s with
      indents := s.indents.drop closed.length
      tokens := closed.map (fun _ => .blockEnd) ++ s.tokens }

def openBlock (s : Layout) (column before : Nat) (t : Token) : Layout :=
  if s.isDeeper column then { s.insert before t with indents := column :: s.indents } else s

def finish (s : Layout) : Except Problem Layout :=
  ((s.closeBlocks none).forget).map fun s => s.push .streamEnd

def documentMark (s : Layout) (t : Token) : Except Problem Layout :=
  ((s.closeBlocks none).forget).map fun s => { (s.push t).advance 3 with keyAllowed := false }

def directiveLine (s : Layout) : Except Problem Layout := do
  let s ← (s.closeBlocks none).forget
  let (d, k) ← directive s.cursor.step
  return { s.push (.directive d) with cursor := k, keyAllowed := false }

/-- A bracket or brace that opens a flow collection. It may begin a key. -/
def openFlow (s : Layout) (t : Token) : Except Problem Layout :=
  s.remember.map fun s =>
    { (s.push t).advance 1 with place := none, outer := s.place :: s.outer, keyAllowed := true }

def closeFlow (s : Layout) (t : Token) : Except Problem Layout :=
  match s.outer with
  | [] => .error .malformed
  | place :: outer =>
    s.forget.map fun s => { (s.push t).advance 1 with place, outer, keyAllowed := false }

def comma (s : Layout) : Except Problem Layout :=
  s.forget.map fun s => { (s.push .comma).advance 1 with keyAllowed := true }

def entry (s : Layout) (block t : Token) (keyAfter : Bool) : Except Problem Layout :=
  if !s.inFlow && !s.keyAllowed then .error .malformed
  else
    let s := if s.inFlow then s else s.openBlock s.column s.tokens.length block
    s.forget.map fun s => { (s.push t).advance 1 with keyAllowed := keyAfter }

def colonAfter (s : Layout) (p : KeyPlace) : Layout :=
  let s := { s with place := none }.insert p.token .key
  let s := if s.inFlow then s else s.openBlock p.start.column p.token .blockMap
  { (s.push .value).advance 1 with keyAllowed := false }

def colon (s : Layout) : Except Problem Layout :=
  match s.place with
  | some p => .ok (s.colonAfter p)
  | none => s.entry .blockMap .value (!s.inFlow)

def nodePart (s : Layout) (read : Read Token) : Except Problem Layout := do
  let s ← s.remember
  let (t, n) ← read
  return { (s.push t).advance n with keyAllowed := false }

def anchorPart (s : Layout) (make : String → Token) : Except Problem Layout :=
  s.nodePart ((anchorName (s.rest.drop 1)).map fun (name, n) => (make name, n + 1))

def quotedPart (s : Layout) (quote : Char) : Except Problem Layout :=
  s.nodePart ((quoted quote (s.rest.drop 1)).map fun w =>
    (.scalar (String.ofList w.chars) false, w.length + 1))

def blockPart (s : Layout) (fold : Bool) : Except Problem Layout := do
  let s ← s.forget
  let (chars, k) ← blockScalar fold s.indents.head? s.cursor.step
  return { s.push (.scalar (String.ofList chars) false) with cursor := k, keyAllowed := true }

def plainPart (s : Layout) : Except Problem Layout := do
  let s ← s.remember
  let indent := (s.indents.head?.map (· + 1)).getD 0
  let scalar := plain s.inFlow indent s.cursor
  if s.isCut && scalar.stop.rest.length < scalar.lookahead s.inFlow indent then throw .unfinished
  return {
    s.push (.scalar (String.ofList scalar.chars) true) with
    cursor := scalar.stop
    keyAllowed := scalar.broken }

def tokenAt (s : Layout) (c : Char) (after : List Char) : Except Problem Layout :=
  let lineStart := s.column = 0
  if c == '%' && lineStart then s.directiveLine
  else if lineStart && isMark "---" s.rest then s.documentMark .documentStart
  else if lineStart && isMark "..." s.rest then s.documentMark .documentEnd
  else if c == '[' then s.openFlow .listOpen
  else if c == '\x7b' then s.openFlow .mapOpen
  else if c == ']' then s.closeFlow .listClose
  else if c == '\x7d' then s.closeFlow .mapClose
  else if c == ',' then s.comma
  else if c == '-' && isApart after then s.entry .blockList .item true
  else if c == '?' && (s.inFlow || isApart after) then s.entry .blockMap .key (!s.inFlow)
  else if c == ':' && (s.inFlow || isApart after) then s.colon
  else if c == '*' then s.anchorPart .reference
  else if c == '&' then s.anchorPart .anchor
  else if c == '!' then s.nodePart (tag s.rest)
  else if c == '|' && !s.inFlow then s.blockPart false
  else if c == '>' && !s.inFlow then s.blockPart true
  else if c == '\x27' || c == '"' then s.quotedPart c
  else if startsPlain s.inFlow s.rest then s.plainPart
  else .error .malformed

def lookahead (s : Layout) (c : Char) : Nat :=
  if s.column = 0 && (c == '-' || c == '.') then markLength s.rest else 2

/-- Reads one more token, and those that the indentation of its line stands for. In a text that goes on
one has to see the character behind the token. -/
def next (s : Layout) : Except Problem Layout := do
  let s := s.skipOrderMark
  let s := s.skipToToken (s.rest.length + 1)
  if s.isCut && s.rest.isEmpty then throw .unfinished
  let s ← s.forgetGone
  let s := s.closeBlocks (some s.column)
  match s.rest with
  | [] => s.finish
  | c :: after =>
    if s.isCut && s.rest.length < s.lookahead c then throw .unfinished
    let s ← s.tokenAt c after
    if s.isCut && s.rest.isEmpty then throw .unfinished
    return s

def settled (s : Layout) : List Token :=
  let places := (s.place :: s.outer).filterMap (·.filter (!·.isGone s.cursor))
  s.tokens.reverse.take ((places.map KeyPlace.token).foldl min s.tokens.length)

end Layout

/-- The tokens of a text, and why no more could be read. The end of the text is a token of its own. -/
structure Tokens where
  tokens : List Token
  stop : Problem

structure Source where
  chars : List Char
  ending : Option Problem := none

namespace Tokens

/-- The problem that a reading has come to. It is that of the ending if the text is too short. -/
def stopOf (ending : Option Problem) : Problem → Problem
  | .unfinished => ending.getD .malformed
  | p => p

def readFrom (ending : Option Problem) : Nat → Layout → Tokens
  | 0, s => ⟨s.settled, .malformed⟩
  | fuel + 1, s =>
    match s.next with
    | .error p => ⟨s.settled, stopOf ending p⟩
    | .ok t =>
      if t.tokens.head? = some .streamEnd then ⟨t.tokens.reverse, .malformed⟩
      else readFrom ending fuel t

def ofSource (source : Source) : Tokens :=
  readFrom source.ending (source.chars.length + 2)
    { cursor := { rest := source.chars }, isCut := source.ending.isSome }

end Tokens
end FlowAtlas.Yaml
