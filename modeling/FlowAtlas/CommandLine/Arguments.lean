import FlowAtlas.Path
import FlowAtlas.Text.Numeral

/-! The arguments of the command line. An option may be shortened as long as one option alone begins so,
and its value may follow in the next word or after an equals sign. After a double hyphen every word
is plain. -/

namespace FlowAtlas

inductive Switch where
  | help
  | flat
  | config
  | output
  | trace
  | watch
  | verbose
  deriving DecidableEq, Repr

namespace Switch

def all : List Switch :=
  [help, flat, config, output, trace, watch, verbose]

def name : Switch → String
  | help => "--help"
  | flat => "--no-flow"
  | config => "--config"
  | output => "--json"
  | trace => "--trace"
  | watch => "--watch"
  | verbose => "--verbose"

end Switch

inductive Word where
  | option (s : Switch) (value : Option String)
  | unknown
  | plain (text : String)
  | mark
  deriving DecidableEq, Repr

namespace Word

def isDigit (c : Char) : Bool :=
  (Text.digitValue? c).isSome

/-- Whether characters are digits, with a point before some of them if there is one. A line break at the
end does not count. -/
def isNumber (cs : List Char) : Bool :=
  let cs := if cs.getLast? = some '\n' then cs.dropLast else cs
  match cs.span isDigit with
  | (whole, []) => !whole.isEmpty
  | (_, '.' :: places) => !places.isEmpty && places.all isDigit
  | _ => false

def nameAndValue (s : String) : String × Option String :=
  match Text.cut "=" s with
  | none => (s, none)
  | some (name, value) => (name, some value)

def ofOther (s : String) : Word :=
  if isNumber (s.toList.drop 1) || s.toList.contains ' ' then .plain s else .unknown

/-- Reads a word before the mark; none if more than one option begins so. -/
def ofString? (s : String) : Option Word :=
  if s = "--" then some .mark
  else if !Text.startsWith s "-" || s = "-" then some (.plain s)
  else
    let (name, value) := nameAndValue s
    if Text.startsWith s "--" then
      match Switch.all.find? (·.name = name) with
      | some switch => some (.option switch value)
      | none =>
        match Switch.all.filter fun switch => Text.startsWith switch.name name with
        | [] => some (ofOther s)
        | [switch] => some (.option switch value)
        | _ => none
    else if name = "-h" then some (.option .help value)
    else if Text.startsWith s "-h" then some (.option .help none)
    else some (ofOther s)

def ofStrings? : List String → Option (List Word)
  | [] => some []
  | s :: rest =>
    match ofString? s with
    | none => none
    | some .mark => some (.mark :: rest.map .plain)
    | some w => (ofStrings? rest).map (w :: ·)

end Word

structure Arguments where
  root : String
  flat : Bool := false
  config : Option Path := none
  output : Option Path := none
  trace : Option (String × String) := none
  watch : Bool := false
  verbose : Bool := false
  deriving DecidableEq, Repr

namespace Arguments

def usage : String :=
  "usage: flowatlas [--help] [--no-flow] [--config FILE] [--json FILE] [--trace SOURCE SINK] " ++
    "[--watch] [--verbose] root"

inductive Reading where
  | run (a : Arguments)
  | help
  | refused
  deriving DecidableEq, Repr

def switch (a : Arguments) : Switch → Arguments
  | .flat => { a with flat := true }
  | .watch => { a with watch := true }
  | .verbose => { a with verbose := true }
  | _ => a

def collect (a : Arguments) (rooted extra : Bool) : List Word → Reading
  | [] => if rooted && !extra then .run a else .refused
  | .unknown :: rest => collect a rooted true rest
  | .mark :: .plain s :: rest =>
    if rooted then collect a rooted true rest else collect { a with root := s } true extra rest
  | .mark :: rest => collect a rooted true rest
  | .plain s :: .mark :: rest =>
    collect (if rooted then a else { a with root := s }) true (rooted || extra) rest
  | .plain s :: rest =>
    collect (if rooted then a else { a with root := s }) true (rooted || extra) rest
  | .option .help none :: _ => .help
  | .option .config (some v) :: rest =>
    collect { a with config := some (.ofString v) } rooted extra rest
  | .option .output (some v) :: rest =>
    collect { a with output := some (.ofString v) } rooted extra rest
  | .option _ (some _) :: _ => .refused
  | .option .config none :: .plain v :: rest =>
    collect { a with config := some (.ofString v) } rooted extra rest
  | .option .output none :: .plain v :: rest =>
    collect { a with output := some (.ofString v) } rooted extra rest
  | .option .trace none :: .plain source :: .plain sink :: rest =>
    collect { a with trace := some (source, sink) } rooted extra rest
  | .option .config none :: _ => .refused
  | .option .output none :: _ => .refused
  | .option .trace none :: _ => .refused
  | .option s none :: rest => collect (a.switch s) rooted extra rest

def read (words : List String) : Reading :=
  match Word.ofStrings? words with
  | none => .refused
  | some words => collect { root := "" } false false words

end Arguments
end FlowAtlas
