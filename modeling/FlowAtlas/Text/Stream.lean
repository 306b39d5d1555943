import FlowAtlas.Text.Search
import FlowAtlas.Text.Utf8

/-! Reading a file of text piece by piece. Bytes are taken in chunks and decoded as they come, so what is
wrong with them shows only when the reading gets there, and its position counts from where the chunk
begins. -/

namespace FlowAtlas.Text

structure Stream where
  chars : List Char
  failure : Option Utf8.Failure := none

structure Intake where
  bytes : List UInt8
  /-- The bytes of a character that the last chunk cut in two. -/
  cut : List UInt8 := []
  /-- Whether the last chunk ended with a carriage return, which a line feed may follow. -/
  afterReturn : Bool := false
  /-- Bytes for each character of the last chunk. -/
  density : Float := 0
  ready : List Char := []
  atEnd : Bool := false

namespace Intake

def chunkSize : Nat := 8192

def pieceSize : Nat := 4096

/-- Whether bytes are the first two of a surrogate. They are not judged before the third. -/
def beginSurrogate (bytes : List UInt8) : Bool :=
  match bytes with
  | [a, b] => a == 0xED && 0xA0 ≤ b && b ≤ 0xBF
  | _ => false

/-- Decodes bytes of which more may come. What may become a character is left over. -/
def decodeOpen (bytes : List UInt8) : Except Utf8.Failure (List Char × List UInt8) :=
  match Utf8.decode bytes with
  | .ok s => .ok (s.toList, [])
  | .error f =>
    if f.reason = .unexpectedEnd || beginSurrogate (bytes.drop f.position) then
      (Utf8.decode (bytes.take f.position)).map fun s => (s.toList, bytes.drop f.position)
    else .error f

/-- Unifies the line breaks of a chunk, after a carriage return that was held back. The last carriage
return is held back again, unless nothing follows. -/
def unifyChunk (afterReturn last : Bool) (cs : List Char) : List Char × Bool :=
  let cs := if afterReturn then '\r' :: cs else cs
  if cs.getLast? = some '\r' && !last then (unifyBreaks cs.dropLast, true)
  else (unifyBreaks cs, false)

def takeChunk (r : Intake) (wanted : Nat) : Except Utf8.Failure Intake :=
  let size := max chunkSize (r.density * wanted.toFloat).toUInt64.toNat
  let chunk := r.bytes.take size
  let last := chunk.isEmpty
  let decoded :=
    if last then (Utf8.decode r.cut).map fun s => (s.toList, []) else decodeOpen (r.cut ++ chunk)
  decoded.map fun (cs, cut) =>
    let (cs, afterReturn) := unifyChunk r.afterReturn last cs
    { bytes := r.bytes.drop size
      cut, afterReturn
      density := if cs.isEmpty then 0 else chunk.length.toFloat / cs.length.toFloat
      ready := r.ready ++ cs
      atEnd := last && cs.isEmpty }

def fill : Nat → Intake → Except Utf8.Failure Intake
  | 0, r => .ok r
  | fuel + 1, r =>
    if r.atEnd || pieceSize ≤ r.ready.length then .ok r
    else
      match r.takeChunk (pieceSize - r.ready.length) with
      | .error f => .error f
      | .ok r => fill fuel r

def pieces : Nat → Intake → List (List Char) × Option Utf8.Failure
  | 0, _ => ([], none)
  | fuel + 1, r =>
    match r.fill (r.bytes.length + 3) with
    | .error f => ([], some f)
    | .ok r =>
      if r.ready.isEmpty then ([], none)
      else
        let (more, failure) := pieces fuel { r with ready := r.ready.drop pieceSize }
        (r.ready.take pieceSize :: more, failure)

end Intake

namespace Stream

def pieces (bytes : List UInt8) : List (List Char) × Option Utf8.Failure :=
  Intake.pieces (bytes.length + 2) { bytes }

end Stream
end FlowAtlas.Text
