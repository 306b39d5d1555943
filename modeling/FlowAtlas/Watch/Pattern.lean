import FlowAtlas.Path
import FlowAtlas.Text.Lower
import FlowAtlas.Text.Wildcard

/-! Patterns for the paths in events. They fit the last parts of a path, in upper or lower case. The two
slashes mean the same, and a path may begin with a drive or with a share of another host. -/

namespace FlowAtlas.Pattern

def unifySlashes (path : String) : List Char :=
  path.toList.map fun c => if c = '/' then '\\' else c

/-- The mark of a path that is taken literally, and what follows it. A share loses its first slashes to
the mark, and gets them back. -/
def markAndRest : List Char → List Char × List Char
  | '\\' :: '\\' :: '?' :: '\\' :: 'U' :: 'N' :: 'C' :: '\\' :: rest =>
    ("\\\\?\\UNC".toList, '\\' :: '\\' :: rest)
  | '\\' :: '\\' :: '?' :: '\\' :: rest => ("\\\\?\\".toList, rest)
  | cs => ([], cs)

/-- A share, from the second slash before its host on, and what follows the slash after it. Its name may
only be missing at the end. -/
def shareAndRest? : List Char → Option (List Char × List Char)
  | '\\' :: '\\' :: cs =>
    let host := cs.takeWhile (· != '\\')
    match cs.drop host.length with
    | [] => none
    | _ :: rest =>
      let name := rest.takeWhile (· != '\\')
      if host.isEmpty || (name.isEmpty && !rest.isEmpty) then none
      else some ('\\' :: host ++ '\\' :: name, rest.drop (name.length + 1))
  | _ => none

def driveAndRest : List Char → List Char × List Char
  | letter :: ':' :: rest => if letter.isAlpha then ([letter, ':'], rest) else ([], letter :: ':' :: rest)
  | cs => ([], cs)

def anchorAndRest (cs : List Char) : List Char × List Char :=
  let (mark, cs) := markAndRest cs
  match shareAndRest? cs with
  | some (share, rest) => ((if mark.isEmpty then ['\\'] else mark) ++ share ++ ['\\'], rest)
  | none =>
    let (drive, rest) := driveAndRest cs
    let names := rest.dropWhile (· == '\\')
    (mark ++ drive ++ (if names.length < rest.length then ['\\'] else []), names)

/-- The parts of a path in lower case; what it begins with is the first of them. -/
def partsOf (path : String) : List String :=
  let (anchor, rest) := anchorAndRest (unifySlashes path)
  let names := (Text.splitOnChar '\\' (String.ofList rest)).filter Path.isPart
  (if anchor.isEmpty then names else String.ofList anchor :: names).map Text.lower

def fitsEach : List String → List String → Bool
  | [], _ => true
  | _ :: _, [] => false
  | pattern :: patterns, part :: parts => Text.fitsPattern pattern part && fitsEach patterns parts

def fits (pattern path : String) : Bool :=
  fitsEach (partsOf pattern).reverse (partsOf path).reverse

end FlowAtlas.Pattern
