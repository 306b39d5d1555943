import FlowAtlas.Text.Blank
import FlowAtlas.Text.Search

/-! Numerals: decimal numbers kept exactly as they are written, and the reading of a text as a
floating-point number or as a whole number in a base. -/

namespace FlowAtlas

structure Decimal where
  mantissa : Int
  exponent : Int
  deriving DecidableEq, Repr

namespace Decimal

/-- The magnitude, nearest to it. Powers of ten beyond the range of floating-point numbers are not
computed. -/
def magnitude (digits : Nat) (exponent : Int) : Float :=
  let size := (Nat.toDigits 10 digits).length + exponent
  if digits = 0 ∨ size < -400 then 0
  else if 400 < size then 1 / 0
  else Float.ofScientific digits (exponent < 0) exponent.natAbs

def toFloat (d : Decimal) : Float :=
  let m := magnitude d.mantissa.natAbs d.exponent
  if d.mantissa < 0 then -m else m

def unit (n : Nat) : Nat :=
  Nat.pow 10 n

end Decimal

namespace Text

/-- The digits zero of the scripts that have decimal digits; the other nine follow each of them. -/
def zeros : List Nat :=
  [0x30, 0x660, 0x6F0, 0x7C0, 0x966, 0x9E6, 0xA66, 0xAE6, 0xB66, 0xBE6, 0xC66, 0xCE6, 0xD66, 0xDE6,
   0xE50, 0xED0, 0xF20, 0x1040, 0x1090, 0x17E0, 0x1810, 0x1946, 0x19D0, 0x1A80, 0x1A90, 0x1B50,
   0x1BB0, 0x1C40, 0x1C50, 0xA620, 0xA8D0, 0xA900, 0xA9D0, 0xA9F0, 0xAA50, 0xABF0, 0xFF10,
   0x104A0, 0x10D30, 0x11066, 0x110F0, 0x11136, 0x111D0, 0x112F0, 0x11450, 0x114D0, 0x11650,
   0x116C0, 0x11730, 0x118E0, 0x11950, 0x11C50, 0x11D50, 0x11DA0, 0x16A60, 0x16AC0, 0x16B50,
   0x1D7CE, 0x1D7D8, 0x1D7E2, 0x1D7EC, 0x1D7F6, 0x1E140, 0x1E2F0, 0x1E950, 0x1FBF0]

def digitValue? (c : Char) : Option Nat :=
  (zeros.find? fun first => first ≤ c.toNat && c.toNat < first + 10).map (c.toNat - ·)

def digitsAndRest : List Char → List Nat × List Char
  | '_' :: c :: rest =>
    match digitValue? c with
    | some d => let (ds, rest) := digitsAndRest rest; (d :: ds, rest)
    | none => ([], '_' :: c :: rest)
  | c :: rest =>
    match digitValue? c with
    | some d => let (ds, rest) := digitsAndRest rest; (d :: ds, rest)
    | none => ([], c :: rest)
  | [] => ([], [])

/-- A run of digits that does not begin with an underscore; it may be empty. -/
def digitRun (cs : List Char) : List Nat × List Char :=
  if cs.head? = some '_' then ([], cs) else digitsAndRest cs

def ofDigits (ds : List Nat) : Nat :=
  ds.foldl (fun n d => n * 10 + d) 0

def signAndRest : List Char → Bool × List Char
  | '-' :: rest => (true, rest)
  | '+' :: rest => (false, rest)
  | rest => (false, rest)

def exponent? : List Char → Option Int
  | [] => some 0
  | e :: rest =>
    if e.toLower = 'e' then
      let (negative, rest) := signAndRest rest
      match digitRun rest with
      | (d :: ds, []) =>
        let n : Int := ofDigits (d :: ds)
        some (if negative then -n else n)
      | _ => none
    else none

def decimal? (cs : List Char) : Option Decimal :=
  let (negative, cs) := signAndRest cs
  let (whole, afterWhole) := digitRun cs
  let (fraction, rest) :=
    match afterWhole with
    | '.' :: rest => digitRun rest
    | rest => ([], rest)
  if whole = [] ∧ fraction = [] then none
  else
    (exponent? rest).map fun e =>
      let m : Int := ofDigits (whole ++ fraction)
      ⟨if negative then -m else m, e - fraction.length⟩

def isNumeralBlank (c : Char) : Bool :=
  isBlank c && !(28 ≤ c.toNat && c.toNat ≤ 31)

def numeralChars (s : String) : List Char :=
  ((s.toList.dropWhile isNumeralBlank).reverse.dropWhile isNumeralBlank).reverse

def float? (s : String) : Option Float :=
  let cs := numeralChars s
  let (negative, unsigned) := signAndRest cs
  let word := String.ofList (unsigned.map Char.toLower)
  if word = "inf" ∨ word = "infinity" then some (if negative then -(1 / 0) else 1 / 0)
  else if word = "nan" then some (0 / 0)
  else
    (decimal? cs).map fun d =>
      if negative && d.mantissa = 0 then -0.0 else d.toFloat

def letterValue? (c : Char) : Option Nat :=
  let n := c.toLower.toNat
  if 97 ≤ n && n ≤ 122 then some (n - 87) else none

def digitIn? (base : Nat) (c : Char) : Option Nat :=
  ((digitValue? c).or (letterValue? c)).filter (· < base)

def isBaseMark (base : Nat) (c d : Char) : Bool :=
  let mark := d.toLower
  c == '0' && ((base == 2 && mark == 'b') || (base == 8 && mark == 'o') || (base == 16 && mark == 'x'))

def natIn? (base : Nat) (cs : List Char) : Option Nat :=
  if cs.isEmpty then none
  else (cs.mapM (digitIn? base)).map fun ds => ds.foldl (fun n d => n * base + d) 0

def int? (base : Nat) (s : String) : Option Int :=
  let (negative, cs) := signAndRest (numeralChars s)
  let digits :=
    match cs with
    | c :: d :: rest => if isBaseMark base c d then rest else c :: d :: rest
    | cs => cs
  (natIn? base digits).map fun n => if negative then -(n : Int) else n

end Text
end FlowAtlas
