import FlowAtlas.Config.Key
import FlowAtlas.Fault

/-! The values that settings and requests are made of. -/

namespace FlowAtlas

inductive Value where
  | null
  | bool (b : Bool)
  | int (n : Int)
  | float (x : Float)
  | text (s : String)
  | moment (timed : Bool) (s : String)
  | list (items : List Value)
  | map (fields : List (Key × Value))
  deriving Repr

namespace Value

instance : Inhabited Value := ⟨null⟩

def kind : Value → String
  | null => "NoneType"
  | bool _ => "bool"
  | int _ => "int"
  | float _ => "float"
  | text _ => "str"
  | moment false _ => "datetime.date"
  | moment true _ => "datetime.datetime"
  | list _ => "list"
  | map _ => "dict"

def isTrue : Value → Bool
  | null => false
  | bool b => b
  | int n => n != 0
  | float x => x != 0
  | text s => s != ""
  | moment _ _ => true
  | list items => !items.isEmpty
  | map fields => !fields.isEmpty

def fieldOf? (key : Key) (fields : List (Key × Value)) : Option Value :=
  (fields.find? fun f => f.1.same key).map Prod.snd

/-- Binds a key, in its place if it is bound already. The key that was there first stays. -/
def setField (key : Key) (v : Value) : List (Key × Value) → List (Key × Value)
  | [] => [(key, v)]
  | f :: rest => if f.1.same key then (f.1, v) :: rest else f :: setField key v rest

def get? (v : Value) (key : Key) : Except Fault (Option Value) :=
  match v with
  | map fields => .ok (fieldOf? key fields)
  | other => .error (.notAMapping other.kind)

def assign (v : Value) (key : Key) (new : Value) : Except Fault Value :=
  match v with
  | map fields => .ok (map (setField key new fields))
  | list _ => .error .listAtKey
  | other => .error (.notAssignable other.kind)

def ofWhole? (n : Int) : Option Float :=
  let x := Decimal.toFloat ⟨n, 0⟩
  if x.isInf then none else some x

def toFloat : Value → Except Fault Float
  | bool b => .ok (if b then 1 else 0)
  | int n =>
    match ofWhole? n with
    | some x => .ok x
    | none => .error .tooLarge
  | float x => .ok x
  | text s =>
    match Text.float? s with
    | some x => .ok x
    | none => .error (.badNumeral s)
  | other => .error (.notANumber other.kind)

/-- The members of a set of names. What is not a text equals no name. -/
def nameOf : Value → Except Fault (Option String)
  | text s => .ok (some s)
  | list _ => .error (.notAName "list")
  | map _ => .error (.notAName "dict")
  | _ => .ok none

def nameOfKey? : Key → Option String
  | .text s => some s
  | _ => none

/-- The names that a value lists: the texts of a list, the keys of a mapping, or each character of a
text. What counts as a no lists nothing. -/
def names (v : Value) : Except Fault (List String) :=
  if v.isTrue then
    match v with
    | list items => (items.mapM nameOf).map fun names => names.filterMap id
    | map fields => .ok (fields.filterMap fun f => nameOfKey? f.1)
    | text s => .ok (s.toList.map fun c => String.ofList [c])
    | other => .error (.notAList other.kind)
  else .ok []

end Value
end FlowAtlas
