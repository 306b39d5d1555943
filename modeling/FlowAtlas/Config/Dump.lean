import FlowAtlas.Config.Settings
import FlowAtlas.Config.Yaml.Scalar

/-! Settings as they are written in a file. Only what can be written without quotes is. -/

namespace FlowAtlas.Value

def isPlainWord (s : String) : Bool :=
  s.toList.all (fun c => c.isLower || c == '_') && Yaml.Kind.ofPlain s == .text

def yamlWord? : Value → Option String
  | null => some "null"
  | bool b => some (if b then "true" else "false")
  | int n => some (toString n)
  | float x =>
    let word := floatText x
    if word.toList.all fun c => c.isDigit || c == '.' || c == '-' then some word else none
  | text s => if isPlainWord s then some s else none
  | list [] => some "[]"
  | map [] => some "\x7b\x7d"
  | _ => none

mutual

def yamlValue? (lead : String) : Value → Option String
  | map (field :: rest) => yamlFields? (lead ++ "  ") (field :: rest)
  | v => (yamlWord? v).map (" " ++ ·)

def yamlFields? (lead : String) : List (Key × Value) → Option String
  | [] => some ""
  | (key, v) :: rest => do
    let value ← yamlValue? lead v
    let later ← yamlFields? lead rest
    if isPlainWord key.name then some (lead ++ key.name ++ ":" ++ value ++ later) else none

end

def toYaml? : Value → Option String
  | map fields => (yamlFields? "\n" fields).map fun text => Text.dropStart text 1 ++ "\n"
  | _ => none

def defaultsText? : Option String :=
  defaults.toYaml?

end FlowAtlas.Value
