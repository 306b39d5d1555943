import FlowAtlas.Text.Numeral

/-! Finite floating-point numbers as exact fractions: a mantissa times a power of two. -/

namespace FlowAtlas

structure Binary where
  negative : Bool
  mantissa : Nat
  exponent : Int
  /-- Whether the gap to the number below is half of the gap to the number above. -/
  narrowBelow : Bool
  deriving DecidableEq, Repr

namespace Binary

def unit (n : Nat) : Nat :=
  Nat.pow 2 n

/-- The parts of a floating-point number; none of an infinity or of what is no number. -/
def ofFloat? (x : Float) : Option Binary :=
  let bits := x.toBits.toNat
  let fraction := bits % unit 52
  let scale := bits / unit 52 % unit 11
  let negative := bits / unit 63 == 1
  if scale = 2047 then none
  else if scale = 0 then some ⟨negative, fraction, -1074, false⟩
  else some ⟨negative, unit 52 + fraction, (scale : Int) - 1075, fraction == 0 && 1 < scale⟩

def signed (b : Binary) (n : Nat) : Int :=
  if b.negative then -(n : Int) else n

def toInt? (b : Binary) : Option Int :=
  if 0 ≤ b.exponent then some (b.signed (b.mantissa * unit b.exponent.toNat))
  else
    let divisor := unit b.exponent.natAbs
    if b.mantissa % divisor = 0 then some (b.signed (b.mantissa / divisor)) else none

def toDecimal (b : Binary) : Decimal :=
  if 0 ≤ b.exponent then ⟨b.signed (b.mantissa * unit b.exponent.toNat), 0⟩
  else ⟨b.signed (b.mantissa * Nat.pow 5 b.exponent.natAbs), b.exponent⟩

end Binary

def wholeOf? (x : Float) : Option Int :=
  (Binary.ofFloat? x).bind Binary.toInt?

end FlowAtlas
