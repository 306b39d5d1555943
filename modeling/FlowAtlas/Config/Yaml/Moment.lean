import FlowAtlas.Config.Yaml.Character
import FlowAtlas.Config.Yaml.Problem
import FlowAtlas.Text.Numeral

/-! Days and times of days. -/

namespace FlowAtlas.Yaml

structure Clock where
  hour : Nat
  minute : Nat
  second : Nat
  fraction : Nat := 0
  /-- Seconds ahead of the time at the prime meridian, if it is known. -/
  offset : Option Int := none
  deriving DecidableEq, Repr

structure Moment where
  year : Nat
  month : Nat
  day : Nat
  clock : Option Clock := none
  deriving DecidableEq, Repr

namespace Moment

def natOf (cs : List Char) : Nat :=
  (Text.natIn? 10 cs).getD 0

def number? (least most : Nat) (cs : List Char) : Option (Nat × List Char) :=
  let digits := (cs.take most).takeWhile Char.isDigit
  if digits.length < least then none else some (natOf digits, cs.drop digits.length)

def behind? (c : Char) (cs : List Char) : Option (List Char) :=
  if cs.head? = some c then some cs.tail else none

def offset? (cs : List Char) : Option (Option Int) :=
  match cs.dropWhile isBlank with
  | [] => if cs.isEmpty then some none else none
  | ['Z'] => some (some 0)
  | sign :: rest =>
    if sign != '+' && sign != '-' then none
    else do
      let (hours, rest) ← number? 1 2 rest
      let minutes ←
        if rest.isEmpty then some 0
        else do
          let (minutes, rest) ← number? 2 2 (← behind? ':' rest)
          if rest.isEmpty then some minutes else none
      let seconds : Int := hours * 3600 + minutes * 60
      return some (if sign == '-' then -seconds else seconds)

def millionths (digits : List Char) : Nat :=
  natOf ((digits ++ List.replicate 6 '0').take 6)

def clock? (cs : List Char) : Option Clock := do
  let (hour, rest) ← number? 1 2 cs
  let (minute, rest) ← number? 2 2 (← behind? ':' rest)
  let (second, rest) ← number? 2 2 (← behind? ':' rest)
  let digits := ((behind? '.' rest).getD []).takeWhile Char.isDigit
  let rest := ((behind? '.' rest).map (·.drop digits.length)).getD rest
  return { hour, minute, second, fraction := millionths digits, offset := ← offset? rest }

def separated? : List Char → Option (List Char)
  | c :: rest =>
    if c == 'T' || c == 't' then some rest
    else if isBlank c then some (rest.dropWhile isBlank)
    else none
  | [] => none

def read? (least : Nat) (cs : List Char) : Option Moment := do
  let (year, rest) ← number? 4 4 cs
  let (month, rest) ← number? least 2 (← behind? '-' rest)
  let (day, rest) ← number? least 2 (← behind? '-' rest)
  if rest.isEmpty then return { year, month, day }
  let clock ← clock? (← separated? rest)
  return { year, month, day, clock := some clock }

/-- The moment that a plain scalar spells. A day alone has two digits for its month and its number. -/
def ofPlain? (cs : List Char) : Option Moment :=
  (read? 1 cs).filter fun m => m.clock.isSome || (read? 2 cs).isSome

def isLeap (year : Nat) : Bool :=
  year % 4 == 0 && (year % 100 != 0 || year % 400 == 0)

def daysIn (year month : Nat) : Nat :=
  if month = 2 then if isLeap year then 29 else 28
  else if month = 4 ∨ month = 6 ∨ month = 9 ∨ month = 11 then 30
  else 31

def problem? (m : Moment) : Option MomentProblem :=
  let offset := (m.clock.bind Clock.offset).getD 0
  if 86400 ≤ offset.natAbs then some (.offset offset)
  else if m.year = 0 then some .year
  else if m.month = 0 ∨ 12 < m.month then some .month
  else if m.day = 0 ∨ daysIn m.year m.month < m.day then some .day
  else
    match m.clock with
    | none => none
    | some c =>
      if 23 < c.hour then some .hour
      else if 59 < c.minute then some .minute
      else if 59 < c.second then some .second
      else none

def padded (width n : Nat) : String :=
  let digits := Nat.toDigits 10 n
  String.ofList (List.replicate (width - digits.length) '0' ++ digits)

def offsetText (seconds : Int) : String :=
  let minutes := seconds.natAbs / 60
  (if seconds < 0 then "-" else "+") ++ padded 2 (minutes / 60) ++ ":" ++ padded 2 (minutes % 60)

def clockText (c : Clock) : String :=
  padded 2 c.hour ++ ":" ++ padded 2 c.minute ++ ":" ++ padded 2 c.second ++
    (if c.fraction = 0 then "" else "." ++ padded 6 c.fraction) ++
    (c.offset.map offsetText).getD ""

def text (m : Moment) : String :=
  padded 4 m.year ++ "-" ++ padded 2 m.month ++ "-" ++ padded 2 m.day ++
    (m.clock.map fun c => " " ++ clockText c).getD ""

end Moment
end FlowAtlas.Yaml
