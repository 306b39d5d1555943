import FlowAtlas.Config.Yaml.Character

/-! Places in a text: what follows, and how far they are from the start of the text and of the line. -/

namespace FlowAtlas.Yaml

structure Cursor where
  rest : List Char
  index : Nat := 0
  line : Nat := 0
  /-- The number of characters before it on its line; byte order marks do not count. -/
  column : Nat := 0

namespace Cursor

def step (k : Cursor) : Cursor :=
  match k.rest with
  | [] => k
  | c :: rest =>
    if isBreak c then ⟨rest, k.index + 1, k.line + 1, 0⟩
    else ⟨rest, k.index + 1, k.line, if c == '\uFEFF' then k.column else k.column + 1⟩

def skip (k : Cursor) : Nat → Cursor
  | 0 => k
  | n + 1 => k.step.skip n

def skipWhile (k : Cursor) (p : Char → Bool) : Cursor :=
  k.skip (k.rest.takeWhile p).length

def skipSpaces (k : Cursor) : Cursor :=
  k.skipWhile (· == ' ')

def skipComment (k : Cursor) : Cursor :=
  if k.rest.head? = some '#' then k.skipWhile fun c => !isBreak c else k

def skipBreak (k : Cursor) : Cursor :=
  if k.rest.head?.any isBreak then k.step else k

end Cursor
end FlowAtlas.Yaml
