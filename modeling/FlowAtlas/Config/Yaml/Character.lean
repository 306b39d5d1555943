import FlowAtlas.Text.Search

/-! The characters that structure a text of YAML. A place in a text is given by what follows it. -/

namespace FlowAtlas.Yaml

def isAllowed (c : Char) : Bool :=
  let n := c.toNat
  n == 9 || n == 10 || n == 13 || (0x20 ≤ n && n ≤ 0x7E) || n == 0x85 ||
    (0xA0 ≤ n && n ≤ 0xFFFD) || 0x10000 ≤ n

/-- Line breaks; those of other systems have become line feeds before. -/
def isBreak (c : Char) : Bool :=
  c == '\n' || c == '\u0085' || c == '\u2028' || c == '\u2029'

def breakChar (c : Char) : Char :=
  if c == '\u0085' then '\n' else c

def isBlank (c : Char) : Bool :=
  c == ' ' || c == '\t'

def isLineEnd : List Char → Bool
  | [] => true
  | c :: _ => isBreak c

def isSpaced : List Char → Bool
  | [] => true
  | c :: _ => isBreak c || c == ' '

def isApart : List Char → Bool
  | [] => true
  | c :: _ => isBreak c || isBlank c

def isMark (mark : String) (cs : List Char) : Bool :=
  mark.toList.isPrefixOf cs && isApart (cs.drop 3)

def isDocumentMark (cs : List Char) : Bool :=
  isMark "---" cs || isMark "..." cs

def markLength (cs : List Char) : Nat :=
  if "---".toList.isPrefixOf cs || "...".toList.isPrefixOf cs then 4 else 3

def isWordChar (c : Char) : Bool :=
  c.isAlphanum || c == '-' || c == '_'

def folded (first : Char) (more : List Char) : List Char :=
  if breakChar first != '\n' then first :: more
  else if more.isEmpty then [' ']
  else more

/-- The blanks and line breaks at the start of a line: how many they are, and the breaks among them;
no breaks if a mark of a document is met. -/
def gap (blank : Char → Bool) (lineStart : Bool) : List Char → Nat × Option (List Char)
  | [] => (0, some [])
  | c :: rest =>
    if lineStart && isDocumentMark (c :: rest) then (0, none)
    else if blank c then
      let (n, breaks) := gap blank false rest
      (n + 1, breaks)
    else if isBreak c then
      let (n, breaks) := gap blank true rest
      (n + 1, breaks.map (breakChar c :: ·))
    else (0, some [])

end FlowAtlas.Yaml
