import FlowAtlas.Config.Value
import FlowAtlas.Text.Quoted

/-! Values written as JSON, one member a line, in characters of ASCII alone. -/

namespace FlowAtlas.Value

/-- A character as a string holds it. Beyond the basic plane it is written as two surrogates. -/
def jsonChar (c : Char) : List Char :=
  let escape (n : Nat) := '\\' :: 'u' :: Text.hexDigits 4 n
  if c = '"' ∨ c = '\\' then ['\\', c]
  else if c = '\n' then ['\\', 'n']
  else if c = '\r' then ['\\', 'r']
  else if c = '\t' then ['\\', 't']
  else if c.toNat = 8 then ['\\', 'b']
  else if c.toNat = 12 then ['\\', 'f']
  else if 32 ≤ c.toNat && c.toNat < 127 then [c]
  else if c.toNat < 0x10000 then escape c.toNat
  else
    let n := c.toNat - 0x10000
    escape (0xD800 + n / 1024) ++ escape (0xDC00 + n % 1024)

def jsonText (s : String) : String :=
  "\"" ++ String.ofList (s.toList.flatMap jsonChar) ++ "\""

def indentation (depth : Nat) : String :=
  "\n" ++ String.ofList (List.replicate (2 * depth) ' ')

def jsonBlock (opening closing : String) (depth : Nat) (members : List String) : String :=
  if members.isEmpty then opening ++ closing
  else
    opening ++ Text.joinWith "," (members.map (indentation (depth + 1) ++ ·)) ++
      indentation depth ++ closing

mutual

def json (depth : Nat) : Value → String
  | null => "null"
  | bool b => if b then "true" else "false"
  | int n => toString n
  | float x => floatText x
  | text s => jsonText s
  | moment _ s => jsonText s
  | list items => jsonBlock "[" "]" depth (jsonItems (depth + 1) items)
  | map fields => jsonBlock "\x7b" "\x7d" depth (jsonFields (depth + 1) fields)

def jsonItems (depth : Nat) : List Value → List String
  | [] => []
  | v :: rest => json depth v :: jsonItems depth rest

def jsonFields (depth : Nat) : List (Key × Value) → List String
  | [] => []
  | (key, v) :: rest => (jsonText key.name ++ ": " ++ json depth v) :: jsonFields depth rest

end

def toJson (v : Value) : String :=
  json 0 v

end FlowAtlas.Value
