import FlowAtlas.Text.Search

/-! Paths as they are written. Empty parts and single dots vanish, double dots stay. -/

namespace FlowAtlas

structure Path where
  root : String
  parts : List String
  deriving DecidableEq, Repr

namespace Path

/-- One leading slash or three and more make the usual root; exactly two make one of their own. -/
def rootOf (cs : List Char) : String :=
  match (cs.takeWhile (· == '/')).length with
  | 0 => ""
  | 2 => "//"
  | _ => "/"

def isPart (s : String) : Bool :=
  s != "" && s != "."

def ofString (s : String) : Path where
  root := rootOf s.toList
  parts := (Text.splitOnChar '/' s).filter isPart

def text (p : Path) : String :=
  if p.root = "" ∧ p.parts = [] then "." else p.root ++ Text.joinWith "/" p.parts

def isAbsolute (p : Path) : Bool :=
  p.root != ""

/-- The last part; empty if there is none. -/
def name (p : Path) : String :=
  p.parts.getLast?.getD ""

def hasNull (p : Path) : Bool :=
  p.parts.any fun part => part.toList.contains '\x00'

def nameLimit : Nat := 255

def textLimit : Nat := 4095

end Path

def extensionOf (name : String) : String :=
  let reversed := name.toList.reverse
  let ending := reversed.takeWhile (· != '.')
  match ending, reversed.drop ending.length with
  | _ :: _, dot :: _ :: _ => String.ofList (dot :: ending.reverse)
  | _, _ => ""

end FlowAtlas
