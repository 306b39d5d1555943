import FlowAtlas.Config.Value
import FlowAtlas.Config.Yaml.Problem
import FlowAtlas.Text.Stream

/-! What reads the values of files. -/

namespace FlowAtlas

/-- What a text means that comes in these pieces, and ends early if there is a failure. -/
abbrev YamlReader := List (List Char) → Option Text.Utf8.Failure → Except Yaml.Problem Value

/-- The value of a file; none if its text is not well-formed. -/
def YamlReader.value? (reader : YamlReader) (bytes : List UInt8) : Except Fault (Option Value) :=
  let (pieces, failure) := Text.Stream.pieces bytes
  match reader pieces failure with
  | .ok v => .ok (some v)
  | .error (.fault f) => .error f
  | .error _ => .ok none

end FlowAtlas
