import FlowAtlas.Text.Blank
import FlowAtlas.Text.Utf8

/-! Syntax trees over a source text. A node knows its kind, the field under which its parent finds
it, the bytes that it spans and the row on which it starts. -/

namespace FlowAtlas

structure NodeInfo where
  kind : String
  named : Bool
  field : Option String
  start : Nat
  stop : Nat
  row : Nat
  deriving DecidableEq, Repr

inductive SyntaxTree where
  | node (info : NodeInfo) (children : List SyntaxTree)
  deriving Repr

namespace SyntaxTree

def info : SyntaxTree → NodeInfo
  | node info _ => info

def children : SyntaxTree → List SyntaxTree
  | node _ children => children

def kind (t : SyntaxTree) : String :=
  t.info.kind

def child? (t : SyntaxTree) (field : String) : Option SyntaxTree :=
  t.children.find? fun c => c.info.field == some field

/-- The child in an optional field; none if there is no such field. -/
def childIn? (t : SyntaxTree) (field : Option String) : Option SyntaxTree :=
  field.bind t.child?

def sameSpan (s t : SyntaxTree) : Bool :=
  s.kind == t.kind && s.info.start == t.info.start && s.info.stop == t.info.stop

mutual

def size : SyntaxTree → Nat
  | node _ children => 1 + sizeAll children

def sizeAll : List SyntaxTree → Nat
  | [] => 0
  | t :: rest => t.size + sizeAll rest

end

theorem size_le_sizeAll {t : SyntaxTree} {ts : List SyntaxTree} (h : t ∈ ts) :
    t.size ≤ sizeAll ts := by
  induction ts with
  | nil => simp at h
  | cons a rest ih =>
    simp only [sizeAll]
    rcases List.mem_cons.mp h with rfl | h
    · omega
    · have := ih h
      omega

theorem size_lt_of_mem_children {c t : SyntaxTree} (h : c ∈ t.children) : c.size < t.size := by
  cases t with
  | node info children =>
    have hc : c.size ≤ sizeAll children := size_le_sizeAll h
    simp only [size]
    omega

theorem mem_children_of_child? {c t : SyntaxTree} {field : String} (h : t.child? field = some c) :
    c ∈ t.children :=
  List.mem_of_find?_eq_some h

theorem mem_children_of_childIn? {c t : SyntaxTree} {field : Option String}
    (h : t.childIn? field = some c) : c ∈ t.children := by
  cases field with
  | none => simp [childIn?] at h
  | some f => exact mem_children_of_child? h

end SyntaxTree

structure Source where
  bytes : List UInt8

namespace Source

def ofString (s : String) : Source :=
  ⟨Text.Utf8.encode s⟩

def text (src : Source) (t : SyntaxTree) : String :=
  let slice := (src.bytes.drop t.info.start).take (t.info.stop - t.info.start)
  String.ofList (Text.trimChars (Text.Utf8.decodeLossy slice))

def textOf (src : Source) (t : Option SyntaxTree) : String :=
  (t.map src.text).getD ""

end Source
end FlowAtlas
