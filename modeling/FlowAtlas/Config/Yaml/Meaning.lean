import FlowAtlas.Config.Value
import FlowAtlas.Config.Yaml.Node

/-! What the nodes of a document mean. The outermost problem is the one that counts, and of several as
deep the first. -/

namespace FlowAtlas.Yaml

structure Finding where
  depth : Nat
  problem : Problem

abbrev Meaning (α : Type) := Except Finding α

namespace Meaning

/-- Joins two meanings. Of two problems the one that is less deep counts. -/
def both {α β γ : Type} (f : α → β → γ) : Meaning α → Meaning β → Meaning γ
  | .ok a, .ok b => .ok (f a b)
  | .ok _, .error e => .error e
  | .error e, .ok _ => .error e
  | .error e, .error e' => .error (if e'.depth < e.depth then e' else e)

def fail {α : Type} (depth : Nat) (p : Problem) : Meaning α :=
  .error ⟨depth, p⟩

def ofExcept {α : Type} (depth : Nat) (x : Except Problem α) : Meaning α :=
  x.mapError (⟨depth, ·⟩)

end Meaning

def readMoment (s : String) : Except Problem Moment :=
  match Moment.read? 1 (withoutLastBreak s.toList) with
  | none => .error (.fault .notAMoment)
  | some m =>
    match m.problem? with
    | some p => .error (.fault (.badMoment p))
    | none => .ok m

/-- What a text of a kind means; only the kinds of scalars have texts. -/
def scalarValue (kind : Kind) (s : String) : Except Problem Value :=
  match kind with
  | .null => .ok .null
  | .bool => (readBool s).map .bool
  | .int => (readInt s).map .int
  | .float => (readFloat s).map .float
  | .moment => (readMoment s).map fun m => .moment m.clock.isSome m.text
  | .text => .ok (.text s)
  | _ => .error .malformed

/-- Whether values of a kind hold others. Such a value is there before what it holds is read. -/
def Kind.isCollection (kind : Kind) : Bool :=
  kind == .list || kind == .pairs || kind == .map || kind == .set

/-- The key that a value can be; lists and mappings can be none. -/
def keyOf? : Value → Option Key
  | .null => some .null
  | .bool b => some (.bool b)
  | .int n => some (.int n)
  | .float x => some (.float x)
  | .text s => some (.text s)
  | .moment timed s => some (.moment timed s)
  | .list _ => none
  | .map _ => none

def Node.kind : Node → Kind
  | scalar kind _ => kind
  | list kind _ => kind
  | map kind _ => kind
  | again _ => .list

/-- The key that a node is, where `meaning` is what it means. A lone equals sign is a text there. -/
def Node.key (depth : Nat) (n : Node) (meaning : Meaning Value) : Meaning Key :=
  match n, meaning with
  | .scalar .default s, _ => .ok (.text s)
  | _, .ok v =>
    match keyOf? v with
    | some key => .ok key
    | none => .error ⟨depth, .malformed⟩
  | n, .error e => .error (if n.kind.isCollection then ⟨depth, .malformed⟩ else e)

def Node.isMerge (n : Node) : Bool :=
  n.kind == .merge

mutual

def canMerge : List (Node × Node) → Bool
  | [] => true
  | (key, value) :: rest => (!key.isMerge || value.isMergeable) && canMerge rest

def Node.isMergeable : Node → Bool
  | .map _ pairs => canMerge pairs
  | .list _ items => areMergeable items
  | .scalar _ _ | .again _ => false

def areMergeable : List Node → Bool
  | [] => true
  | .map _ pairs :: rest => canMerge pairs && areMergeable rest
  | _ :: _ => false

end

mutual

/-- The text of a node that is read like a scalar. A mapping has that of its value for a lone equals
sign. -/
def Node.text? : Node → Option String
  | .scalar _ s => some s
  | .map _ pairs => defaultText? pairs
  | .list _ _ | .again _ => none

def defaultText? : List (Node × Node) → Option String
  | [] => none
  | (key, value) :: rest => if key.kind == .default then value.text? else defaultText? rest

end

def mappingOf (fields : List (Key × Value)) : Value :=
  .map (fields.foldl (fun bound (key, v) => Value.setField key v bound) [])

mutual

def Node.meaning (depth : Nat) : Node → Meaning Value
  | .scalar kind s =>
    .ofExcept (if kind.isCollection then depth + 1 else depth) (scalarValue kind s)
  | .list kind items =>
    match kind with
    | .list => (itemsMeaning (depth + 1) items).map .list
    | .pairs => (pairsMeaning (depth + 1) items).map .list
    | _ => .fail (if kind.isCollection then depth + 1 else depth) .malformed
  | .map kind pairs =>
    if kind = .map ∨ kind = .set then
      if canMerge pairs then
        (Meaning.both (· ++ ·) (mergedMeaning (depth + 1) pairs) (ownMeaning (depth + 1) pairs)).map
          mappingOf
      else .fail (depth + 1) .malformed
    else
      match kind.isCollection, defaultText? pairs with
      | false, some s => .ofExcept depth (scalarValue kind s)
      | false, none => .fail depth .malformed
      | true, _ => .fail (depth + 1) .malformed
  | .again _ => .fail depth .malformed

def itemsMeaning (depth : Nat) : List Node → Meaning (List Value)
  | [] => .ok []
  | n :: rest => .both (· :: ·) (n.meaning depth) (itemsMeaning depth rest)

def pairsMeaning (depth : Nat) : List Node → Meaning (List Value)
  | [] => .ok []
  | .map _ [(key, value)] :: rest =>
    .both (· :: ·)
      (.both (fun key v => .list [key, v]) (key.meaning depth) (value.meaning depth))
      (pairsMeaning depth rest)
  | _ :: _ => .fail depth .malformed

/-- The fields that a mapping has of its own. They replace those merged in. -/
def ownMeaning (depth : Nat) : List (Node × Node) → Meaning (List (Key × Value))
  | [] => .ok []
  | (key, value) :: rest =>
    if key.isMerge then ownMeaning depth rest
    else
      .both (· :: ·)
        (.both Prod.mk (key.key depth (key.meaning depth)) (value.meaning depth))
        (ownMeaning depth rest)

def mergedMeaning (depth : Nat) : List (Node × Node) → Meaning (List (Key × Value))
  | [] => .ok []
  | (key, value) :: rest =>
    if key.isMerge then .both (· ++ ·) (value.fieldsToMerge depth) (mergedMeaning depth rest)
    else mergedMeaning depth rest

def Node.fieldsToMerge (depth : Nat) : Node → Meaning (List (Key × Value))
  | .map _ pairs => .both (· ++ ·) (mergedMeaning depth pairs) (ownMeaning depth pairs)
  | .list _ items => listsToMerge depth items
  | .scalar _ _ | .again _ => .fail depth .malformed

def listsToMerge (depth : Nat) : List Node → Meaning (List (Key × Value))
  | [] => .ok []
  | n :: rest => .both (· ++ ·) (listsToMerge depth rest) (n.fieldsToMerge depth)

end

end FlowAtlas.Yaml
