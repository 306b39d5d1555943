import FlowAtlas.Config.Yaml.Quoted
import FlowAtlas.Config.Yaml.Moment
import FlowAtlas.Text.Lower

/-! What scalars mean: the kind that a plain one shows by its spelling, and the values that are read
from the spelling. -/

namespace FlowAtlas.Yaml

inductive Kind where
  | null
  | bool
  | int
  | float
  | moment
  | text
  | list
  | map
  | set
  | pairs
  | merge
  | default
  | unknown
  deriving DecidableEq, Repr

namespace Kind

def ofTag (tag : String) : Kind :=
  match Text.cut "tag:yaml.org,2002:" tag with
  | some ("", name) =>
    match name with
    | "null" => null
    | "bool" => bool
    | "int" => int
    | "float" => float
    | "timestamp" => moment
    | "str" => text
    | "seq" => list
    | "map" => map
    | "set" => set
    | "omap" | "pairs" => pairs
    | "merge" => merge
    | "value" => default
    | _ => unknown
  | _ => unknown

end Kind

def yesWords : List String :=
  ["yes", "Yes", "YES", "true", "True", "TRUE", "on", "On", "ON"]

def noWords : List String :=
  ["no", "No", "NO", "false", "False", "FALSE", "off", "Off", "OFF"]

def nullWords : List String :=
  ["", "~", "null", "Null", "NULL"]

def unsigned (cs : List Char) : List Char :=
  (Text.signAndRest cs).2

def isRun (p : Char → Bool) (cs : List Char) : Bool :=
  !cs.isEmpty && cs.all p

def isDigitOrGap (c : Char) : Bool :=
  c.isDigit || c == '_'

def isDigits (cs : List Char) : Bool :=
  cs.head?.any Char.isDigit && cs.all isDigitOrGap

def isSixtieth : List Char → Bool
  | [a] => a.isDigit
  | [a, b] => '0' ≤ a && a ≤ '5' && b.isDigit
  | _ => false

/-- Groups of digits between colons; at least two, of which all but the first count sixties. -/
def isSexagesimal (cs : List Char) : Bool :=
  match Text.splitChars (· == ':') cs with
  | first :: group :: groups => isDigits first && (group :: groups).all isSixtieth
  | _ => false

def isWhole (cs : List Char) : Bool :=
  match cs with
  | ['0'] => true
  | '0' :: 'b' :: rest => isRun (fun c => c == '0' || c == '1' || c == '_') rest
  | '0' :: 'x' :: rest => isRun (fun c => isHexDigit c || c == '_') rest
  | '0' :: rest => isRun (fun c => ('0' ≤ c && c ≤ '7') || c == '_') rest
  | cs => isDigits cs || isSexagesimal cs

def isExponent : List Char → Bool
  | [] => true
  | e :: sign :: rest =>
    (e == 'e' || e == 'E') && (sign == '+' || sign == '-') && isRun Char.isDigit rest
  | _ => false

/-- Whether a text is spelled like a number with a point. One that begins with the point has no sign. -/
def isPointed (cs : List Char) : Bool :=
  let whole := (unsigned cs).takeWhile (· != '.')
  match (unsigned cs).drop whole.length with
  | [] => false
  | _ :: rest =>
    let fraction := rest.takeWhile isDigitOrGap
    let exponent := rest.drop fraction.length
    if whole.isEmpty then cs.head? = some '.' && isDigits fraction && isExponent exponent
    else (isDigits whole && isExponent exponent) || (isSexagesimal whole && exponent.isEmpty)

def isInfinite (cs : List Char) : Bool :=
  [".inf", ".Inf", ".INF"].contains (String.ofList (unsigned cs))

def isNoNumber (cs : List Char) : Bool :=
  [".nan", ".NaN", ".NAN"].contains (String.ofList cs)

def withoutLastBreak (cs : List Char) : List Char :=
  if 1 < cs.length && cs.getLast? = some '\n' then cs.dropLast else cs

/-- The kind that a scalar shows by its spelling. A line break at the end does not count. -/
def Kind.ofPlain (text : String) : Kind :=
  let cs := withoutLastBreak text.toList
  let s := String.ofList cs
  if nullWords.contains s then null
  else if yesWords.contains s || noWords.contains s then bool
  else if isPointed cs || isInfinite cs || isNoNumber cs then float
  else if isWhole (unsigned cs) then int
  else if s = "<<" then merge
  else if s = "=" then default
  else if ["!", "&", "*"].contains s then unknown
  else if (Moment.ofPlain? cs).isSome then moment
  else .text

def signedDigits (s : String) : Except Problem (Bool × String) :=
  let cs := s.toList.filter (· != '_')
  if cs.isEmpty then .error (.fault .emptyNumeral)
  else
    let (negative, rest) := Text.signAndRest cs
    .ok (negative, String.ofList rest)

def digitLimit : Nat := 4300

def wholeIn (base : Nat) (s : String) : Except Problem Int :=
  match Text.int? base s with
  | none => .error (.fault (.badInteger base s))
  | some n =>
    let count := (s.toList.filter fun c => (Text.digitValue? c).isSome).length
    if base = 10 && digitLimit < count then .error (.fault (.tooManyDigits count)) else .ok n

def readInt (s : String) : Except Problem Int := do
  let (negative, digits) ← signedDigits s
  let n ←
    if digits = "" then throw (.fault .emptyNumeral)
    else if digits = "0" then pure 0
    else if Text.startsWith digits "0b" then wholeIn 2 (Text.dropStart digits 2)
    else if Text.startsWith digits "0x" then wholeIn 16 (Text.dropStart digits 2)
    else if Text.startsWith digits "0" then wholeIn 8 digits
    else if digits.toList.contains ':' then
      let groups ← (Text.splitOnChar ':' digits).mapM (wholeIn 10)
      pure (groups.foldl (fun total n => total * 60 + n) 0)
    else wholeIn 10 digits
  return if negative then -n else n

def floatOf (s : String) : Except Problem Float :=
  match Text.float? s with
  | some x => .ok x
  | none => .error (.fault (.badNumeral s))

def sumOfSixties (groups : List Float) : Float :=
  (groups.reverse.foldl (fun (sum, unit) x => (sum + x * Decimal.toFloat ⟨unit, 0⟩, unit * 60))
    ((0 : Float), (1 : Int))).1

def readFloat (s : String) : Except Problem Float := do
  let (negative, digits) ← signedDigits (Text.lower s)
  let x ←
    if digits = ".inf" then pure (1 / 0)
    else if digits = ".nan" then return 0 / 0
    else if digits.toList.contains ':' then
      pure (sumOfSixties (← (Text.splitOnChar ':' digits).mapM floatOf))
    else floatOf digits
  return if negative then -x else x

def readBool (s : String) : Except Problem Bool :=
  let word := Text.lower s
  if yesWords.contains word then .ok true
  else if noWords.contains word then .ok false
  else .error (.fault (.notAnAnswer word))

end FlowAtlas.Yaml
