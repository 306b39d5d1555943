import FlowAtlas.Config.Yaml.Meaning
import FlowAtlas.Config.Yaml.Reader

/-! Reading settings written in YAML: a text is cut into tokens, these make the nodes of a document, and
the nodes mean values. -/

namespace FlowAtlas.Yaml

/-- What can be read of a file that comes in pieces. The first two pieces are taken together; a piece
with a character in it that no text may hold is not read at all. -/
def Source.ofPieces (pieces : List (List Char)) (failure : Option Text.Utf8.Failure) : Source :=
  let ending := failure.map fun f => Problem.fault (.undecodable f)
  let first := (pieces.take 2).flatten
  if pieces.length < 2 && failure.isSome then ⟨[], ending⟩
  else if !first.all isAllowed then ⟨[], some .malformed⟩
  else
    let later := pieces.drop 2
    let sound := later.takeWhile fun piece => piece.all isAllowed
    ⟨first ++ sound.flatten, if sound.length < later.length then some .malformed else ending⟩

/-- The value that a text means. An empty document is null. -/
def Source.value (source : Source) : Except Problem Value :=
  match Node.ofTokens (.ofSource source) with
  | .error p => .error p
  | .ok none => .ok .null
  | .ok (some root) => (root.meaning 0).mapError Finding.problem

def reader : YamlReader := fun pieces failure => (Source.ofPieces pieces failure).value

def read? (bytes : List UInt8) : Except Fault (Option Value) :=
  reader.value? bytes

end FlowAtlas.Yaml
