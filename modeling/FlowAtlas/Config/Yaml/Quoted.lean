import FlowAtlas.Config.Yaml.Character
import FlowAtlas.Config.Yaml.Problem
import FlowAtlas.Text.Numeral

/-! Scalars in quotes. Line breaks within are folded, and in double quotes a backslash begins an
escape. -/

namespace FlowAtlas.Yaml

def escape? : Char → Option Char
  | '0' => some (Char.ofNat 0)
  | 'a' => some (Char.ofNat 7)
  | 'b' => some (Char.ofNat 8)
  | 't' => some '\t'
  | '\t' => some '\t'
  | 'n' => some '\n'
  | 'v' => some (Char.ofNat 11)
  | 'f' => some (Char.ofNat 12)
  | 'r' => some '\r'
  | 'e' => some (Char.ofNat 27)
  | ' ' => some ' '
  | '"' => some '"'
  | '/' => some '/'
  | '\\' => some '\\'
  | 'N' => some '\u0085'
  | '_' => some '\u00a0'
  | 'L' => some '\u2028'
  | 'P' => some '\u2029'
  | _ => none

def escapeWidth? : Char → Option Nat
  | 'x' => some 2
  | 'u' => some 4
  | 'U' => some 8
  | _ => none

def isHexDigit (c : Char) : Bool :=
  c.isDigit || ('a' ≤ c && c ≤ 'f') || ('A' ≤ c && c ≤ 'F')

def codeAt (width : Nat) (cs : List Char) : Except Problem Nat :=
  let digits := cs.take width
  match digits.dropWhile isHexDigit with
  | _ :: _ => .error .malformed
  | [] =>
    if digits.length < width then .error .unfinished
    else .ok ((Text.natIn? 16 digits).getD 0)

def lowSurrogate? : List Char → Option Nat
  | '\\' :: 'u' :: rest =>
    ((codeAt 4 rest).toOption).filter fun n => 0xDC00 ≤ n && n < 0xE000
  | _ => none

/-- The character of an escape that gives a code point, and the number of characters after the letter
of the escape. Two halves of a pair of surrogates make one character. -/
def codePoint (width : Nat) (cs : List Char) : Except Problem (Char × Nat) :=
  match codeAt width cs with
  | .error p => .error p
  | .ok n =>
    if 0x110000 ≤ n then .error (.fault (.noCharacter n))
    else if n < 0xD800 || 0xE000 ≤ n then .ok (Char.ofNat n, width)
    else
      match lowSurrogate? (cs.drop width) with
      | some low =>
        if n < 0xDC00 then .ok (Char.ofNat (0x10000 + (n - 0xD800) * 1024 + (low - 0xDC00)), width + 6)
        else .ok ('\uFFFD', width)
      | none => .ok ('\uFFFD', width)

structure Written where
  chars : List Char
  length : Nat

/-- Blanks within quotes. A line break takes those around it away. -/
def blanksInQuotes (cs : List Char) : Except Problem Written :=
  let blanks := cs.takeWhile isBlank
  match cs.drop blanks.length with
  | [] => .error .unfinished
  | c :: rest =>
    if isBreak c then
      match gap isBlank true rest with
      | (n, some breaks) => .ok ⟨folded c breaks, blanks.length + 1 + n⟩
      | (n, none) => .error (.at (rest.drop (n + 3)))
    else .ok ⟨blanks, blanks.length⟩

/-- An escape, from behind its backslash. An escaped line break vanishes with the blanks after it. -/
def escapeInQuotes : List Char → Except Problem Written
  | [] => .error .unfinished
  | c :: rest =>
    match escape? c, escapeWidth? c with
    | some d, _ => .ok ⟨[d], 1⟩
    | none, some width => (codePoint width rest).map fun (d, n) => ⟨[d], n + 1⟩
    | none, none =>
      if isBreak c then
        match gap isBlank true rest with
        | (n, some breaks) => .ok ⟨breaks, n + 1⟩
        | (n, none) => .error (.at (rest.drop (n + 3)))
      else .error .malformed

/-- The scalar up to its closing quote, which counts as written. The next `skipped` characters belong to
what was read before. -/
def quotedFrom (quote : Char) (skipped : Nat) : List Char → Except Problem Written
  | [] => .error .unfinished
  | c :: rest =>
    let after (w : Written) : Except Problem Written :=
      (quotedFrom quote (w.length - 1) rest).map fun more => ⟨w.chars ++ more.chars, more.length + 1⟩
    if 0 < skipped then
      (quotedFrom quote (skipped - 1) rest).map fun more => { more with length := more.length + 1 }
    else if c == quote then
      if quote == '\x27' && rest.head? = some quote then after ⟨[quote], 2⟩ else .ok ⟨[], 1⟩
    else if isBlank c || isBreak c then
      match blanksInQuotes (c :: rest) with
      | .error p => .error p
      | .ok w => after w
    else if quote == '"' && c == '\\' then
      match escapeInQuotes rest with
      | .error p => .error p
      | .ok w => after { w with length := w.length + 1 }
    else after ⟨[c], 1⟩

def quoted (quote : Char) (cs : List Char) : Except Problem Written :=
  quotedFrom quote 0 cs

end FlowAtlas.Yaml
