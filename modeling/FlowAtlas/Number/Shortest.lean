import FlowAtlas.Number.Binary

/-! Floating-point numbers written with the fewest digits that read back to them. Of several texts
with as many digits the nearest is taken. -/

namespace FlowAtlas

namespace Binary

def quarters (b : Binary) : Nat :=
  4 * b.mantissa

def ratio (b : Binary) (quarters : Nat) (power : Int) : Nat × Nat :=
  (quarters * unit (b.exponent - 2).toNat * Decimal.unit (-power).toNat,
    unit (2 - b.exponent).toNat * Decimal.unit power.toNat)

/-- Whether `digits * 10 ^ power` lies among the numbers that round to this one. The two ends of their
range are among them if the mantissa is even. -/
def readsBack (b : Binary) (digits : Nat) (power : Int) : Bool :=
  let (low, divisor) := b.ratio (b.quarters - if b.narrowBelow then 1 else 2) power
  let (high, _) := b.ratio (b.quarters + 2) power
  let n := digits * divisor
  if b.mantissa % 2 = 0 then low ≤ n && n ≤ high else low < n && n < high

/-- The number of digits before the point; negative if zeros follow it. -/
def magnitude (b : Binary) : Int :=
  let (n, divisor) := b.ratio b.quarters (-400)
  ((Nat.toDigits 10 (n / divisor)).length : Int) - 400

def atLength? (b : Binary) (count : Nat) : Option Decimal :=
  let power := b.magnitude - count
  let (n, divisor) := b.ratio b.quarters power
  let below := n / divisor
  let twice := 2 * (n % divisor)
  let lower := if b.readsBack below power then some below else none
  let upper := if b.readsBack (below + 1) power then some (below + 1) else none
  let digits? :=
    match lower, upper with
    | some d, some e =>
      some (if twice < divisor || (twice == divisor && d % 2 == 0) then d else e)
    | some d, none => some d
    | none, e => e
  digits?.map fun d => ⟨b.signed d, power⟩

def shortest (b : Binary) : Decimal :=
  ((List.range 17).findSome? fun i => b.atLength? (i + 1)).getD b.toDecimal

end Binary

structure DecimalStyle where
  lowest : Int
  highest : Int
  exponentMark : Char
  exponentDigits : Nat

def DecimalStyle.plain : DecimalStyle where
  lowest := -4
  highest := 15
  exponentMark := 'e'
  exponentDigits := 2

namespace DecimalStyle

def zeros (n : Nat) : List Char :=
  List.replicate n '0'

def positional (digits : List Char) (place : Int) : List Char :=
  if place ≤ 0 then '0' :: '.' :: zeros place.natAbs ++ digits
  else if digits.length ≤ place.toNat then
    digits ++ zeros (place.toNat - digits.length) ++ ['.', '0']
  else digits.take place.toNat ++ '.' :: digits.drop place.toNat

def exponent (n : DecimalStyle) (e : Int) : List Char :=
  let digits := Nat.toDigits 10 e.natAbs
  n.exponentMark :: (if e < 0 then '-' else '+') :: zeros (n.exponentDigits - digits.length) ++ digits

def text (n : DecimalStyle) (negative : Bool) (d : Decimal) : String :=
  let written := Nat.toDigits 10 d.mantissa.natAbs
  let significant := (written.reverse.dropWhile (· == '0')).reverse
  let digits := if significant.isEmpty then ['0'] else significant
  let place : Int := if significant.isEmpty then 1 else written.length + d.exponent
  let body :=
    if n.lowest ≤ place - 1 && place - 1 ≤ n.highest then positional digits place
    else
      digits.take 1 ++ (if digits.length = 1 then [] else '.' :: digits.drop 1) ++
        n.exponent (place - 1)
  String.ofList (if negative then '-' :: body else body)

end DecimalStyle

def floatText (x : Float) : String :=
  match Binary.ofFloat? x with
  | some b => DecimalStyle.plain.text b.negative b.shortest
  | none => if x == x then if x < 0 then "-Infinity" else "Infinity" else "NaN"

end FlowAtlas
