/-! Reading UTF-8. Bytes split into pieces, each a character or a maximal ill-formed part; the
lenient reader writes one replacement character for each ill-formed part, the strict reader stops at
the first. -/

namespace FlowAtlas.Text.Utf8

inductive Reason where
  | startByte
  | continuationByte
  | unexpectedEnd
  deriving DecidableEq, Repr

def Reason.message : Reason → String
  | .startByte => "invalid start byte"
  | .continuationByte => "invalid continuation byte"
  | .unexpectedEnd => "unexpected end of data"

inductive Piece where
  | char (c : Char) (bytes : List UInt8)
  | illFormed (bytes : List UInt8) (reason : Reason)
  deriving DecidableEq, Repr

def Piece.bytes : Piece → List UInt8
  | .char _ bytes => bytes
  | .illFormed bytes _ => bytes

structure Partial where
  seen : List UInt8
  value : Nat
  needed : Nat
  low : UInt8
  high : UInt8

/-- What a byte means at the start of a character. The ranges of the second byte exclude overlong
forms, surrogates and values past the last code point. -/
def start (b : UInt8) : Piece ⊕ Partial :=
  if b < 0x80 then .inl (.char (Char.ofNat b.toNat) [b])
  else if b < 0xC2 then .inl (.illFormed [b] .startByte)
  else if b < 0xE0 then .inr ⟨[b], b.toNat - 0xC0, 1, 0x80, 0xBF⟩
  else if b < 0xF0 then
    .inr ⟨[b], b.toNat - 0xE0, 2, if b == 0xE0 then 0xA0 else 0x80, if b == 0xED then 0x9F else 0xBF⟩
  else if b < 0xF5 then
    .inr ⟨[b], b.toNat - 0xF0, 3, if b == 0xF0 then 0x90 else 0x80, if b == 0xF4 then 0x8F else 0xBF⟩
  else .inl (.illFormed [b] .startByte)

def piecesFrom (open? : Option Partial) : List UInt8 → List Piece
  | [] => (open?.map fun p => Piece.illFormed p.seen .unexpectedEnd).toList
  | b :: rest =>
    match open? with
    | none =>
      match start b with
      | .inl piece => piece :: piecesFrom none rest
      | .inr p => piecesFrom (some p) rest
    | some p =>
      if p.low ≤ b ∧ b ≤ p.high then
        let value := p.value * 64 + (b.toNat - 0x80)
        if p.needed ≤ 1 then .char (Char.ofNat value) (p.seen ++ [b]) :: piecesFrom none rest
        else piecesFrom (some ⟨p.seen ++ [b], value, p.needed - 1, 0x80, 0xBF⟩) rest
      else
        .illFormed p.seen .continuationByte ::
          match start b with
          | .inl piece => piece :: piecesFrom none rest
          | .inr q => piecesFrom (some q) rest

def pieces (bytes : List UInt8) : List Piece :=
  piecesFrom none bytes

theorem start_bytes (b : UInt8) : (start b).elim Piece.bytes Partial.seen = [b] := by
  unfold start
  by_cases h₁ : b < 0x80
  · simp [h₁, Piece.bytes]
  by_cases h₂ : b < 0xC2
  · simp [h₁, h₂, Piece.bytes]
  by_cases h₃ : b < 0xE0
  · simp [h₁, h₂, h₃]
  by_cases h₄ : b < 0xF0
  · simp [h₁, h₂, h₃, h₄]
  by_cases h₅ : b < 0xF5
  · simp [h₁, h₂, h₃, h₄, h₅]
  · simp [h₁, h₂, h₃, h₄, h₅, Piece.bytes]

theorem flatMap_bytes_piecesFrom (open? : Option Partial) (bytes : List UInt8) :
    (piecesFrom open? bytes).flatMap Piece.bytes =
      (open?.map Partial.seen).getD [] ++ bytes := by
  induction bytes generalizing open? with
  | nil => cases open? <;> simp [piecesFrom, Piece.bytes]
  | cons b rest ih =>
    have hs := start_bytes b
    cases open? with
    | none =>
      simp only [piecesFrom]
      split <;> simp_all
    | some p =>
      simp only [piecesFrom]
      split
      · split <;> simp_all [Piece.bytes]
      · simp only [List.flatMap_cons, Piece.bytes]
        split <;> simp_all

def decodeLossy (bytes : List UInt8) : List Char :=
  (pieces bytes).map fun
    | .char c _ => c
    | .illFormed _ _ => '\uFFFD'

structure Failure where
  position : Nat
  bytes : List UInt8
  reason : Reason
  deriving DecidableEq, Repr

def hexDigit (n : Nat) : Char :=
  Char.ofNat (if n < 10 then 48 + n else 87 + n)

def Failure.message (f : Failure) : String :=
  let what :=
    match f.bytes with
    | [b] => "byte 0x" ++ String.ofList [hexDigit (b.toNat / 16), hexDigit (b.toNat % 16)] ++
        " in position " ++ toString f.position
    | bytes => "bytes in position " ++ toString f.position ++ "-" ++
        toString (f.position + bytes.length - 1)
  "'utf-8' codec can't decode " ++ what ++ ": " ++ f.reason.message

def collect (position : Nat) : List Piece → Except Failure (List Char)
  | [] => .ok []
  | .char c bytes :: rest => (collect (position + bytes.length) rest).map (c :: ·)
  | .illFormed bytes reason :: _ => .error ⟨position, bytes, reason⟩

def decode (bytes : List UInt8) : Except Failure String :=
  (collect 0 (pieces bytes)).map String.ofList

def encode (s : String) : List UInt8 :=
  s.toList.flatMap String.utf8EncodeChar

end FlowAtlas.Text.Utf8
