import FlowAtlas.Number.Shortest

/-! The keys of mappings. Keys are the same if they mean the same: yes is one and no is zero, and
numbers are compared by value, whatever they are written as. -/

namespace FlowAtlas

inductive Key where
  | null
  | bool (b : Bool)
  | int (n : Int)
  | float (x : Float)
  | text (s : String)
  | moment (timed : Bool) (s : String)
  deriving Repr

namespace Key

instance : Coe String Key := ⟨text⟩

inductive Identity where
  | null
  | whole (n : Int)
  | fraction (bits : UInt64)
  | text (s : String)
  | moment (s : String)
  deriving DecidableEq, Repr

def identity : Key → Identity
  | null => .null
  | bool b => .whole (if b then 1 else 0)
  | int n => .whole n
  | float x =>
    match wholeOf? x with
    | some n => .whole n
    | none => .fraction x.toBits
  | text s => .text s
  | moment _ s => .moment s

def same (a b : Key) : Bool :=
  a.identity == b.identity

@[simp] theorem same_iff {a b : Key} : a.same b = true ↔ a.identity = b.identity := by
  simp [same]

@[simp] theorem identity_text (s : String) : (text s).identity = .text s := rfl

def name : Key → String
  | null => "null"
  | bool b => if b then "true" else "false"
  | int n => toString n
  | float x => floatText x
  | text s => s
  | moment _ s => s

end Key
end FlowAtlas
