import FlowAtlas.Config.Yaml.Layout
import FlowAtlas.Config.Yaml.Scalar

/-! The nodes of a document: scalars, lists and mappings, each of a kind. An alias is the node that its
anchor stands at. That may be a node around the alias, which then stands inside itself without end. -/

namespace FlowAtlas.Yaml

inductive Node where
  | scalar (kind : Kind) (text : String)
  | list (kind : Kind) (items : List Node)
  | map (kind : Kind) (pairs : List (Node × Node))
  /-- The node around it that has this anchor. -/
  | again (anchor : String)
  deriving Repr

mutual

def Node.fill (anchor : String) (inner : Node) : Node → Node
  | .scalar kind text => .scalar kind text
  | .list kind items => .list kind (fillItems anchor inner items)
  | .map kind pairs => .map kind (fillPairs anchor inner pairs)
  | .again name => if name = anchor then inner else .again name

def fillItems (anchor : String) (inner : Node) : List Node → List Node
  | [] => []
  | n :: rest => Node.fill anchor inner n :: fillItems anchor inner rest

def fillPairs (anchor : String) (inner : Node) : List (Node × Node) → List (Node × Node)
  | [] => []
  | (key, value) :: rest =>
    (Node.fill anchor inner key, Node.fill anchor inner value) :: fillPairs anchor inner rest

end

def Node.hollow : Node → Node
  | .list kind _ => .list kind []
  | .map kind _ => .map kind []
  | n => n

/-- A node as it stands inside itself, again and again. Settings are read of the outermost four levels, and
it is first left hollow below them. -/
def Node.unroll (anchor : String) (n : Node) : Node :=
  let around (inner : Node) := Node.fill anchor inner n
  around (around (around n.hollow))

structure Parsing where
  tokens : List Token
  stop : Problem
  /-- The anchors so far; one whose node is not complete yet has none. -/
  anchors : List (String × Option Node) := []
  handles : List (String × String) := []

abbrev Step (α : Type) := StateT Parsing (Except Problem) α

structure Properties where
  anchor : Option String := none
  tag : Option String := none

namespace Step

def fail {α : Type} : Step α :=
  throw .malformed

def peek : Step Token := do
  let s ← get
  match s.tokens with
  | t :: _ => return t
  | [] => throw s.stop

def skip : Step Unit :=
  modify fun s => { s with tokens := s.tokens.tail }

def skipIf (t : Token) : Step Bool := do
  if (← peek) = t then
    skip
    return true
  else return false

def isNext (ts : List Token) : Step Bool := do
  return ts.contains (← peek)

def anchor? : Step (Option String) := do
  match ← peek with
  | .anchor name =>
    skip
    return some name
  | _ => return none

def tag? : Step (Option String) := do
  match ← peek with
  | .tag none name =>
    skip
    return some name
  | .tag (some handle) name =>
    skip
    match (← get).handles.lookup handle with
    | some target => return some (target ++ name)
    | none => fail
  | _ => return none

def properties : Step Properties := do
  match ← anchor? with
  | some name => return ⟨some name, ← tag?⟩
  | none =>
    let tag ← tag?
    return ⟨← anchor?, tag⟩

def referent (name : String) : Step Node := do
  match (← get).anchors.lookup name with
  | some (some node) => return node
  | some none => return .again name
  | none => fail

def openAnchor : Option String → Step Unit
  | none => pure ()
  | some name => do
    if ((← get).anchors.lookup name).isSome then fail
    else modify fun s => { s with anchors := (name, none) :: s.anchors }

def closeAnchor (node : Node) : Option String → Step Node
  | none => return node
  | some name => do
    let whole := Node.unroll name node
    let complete (known : String × Option Node) := (known.1, known.2.map (Node.fill name whole))
    modify fun s => { s with anchors := (name, some whole) :: s.anchors.map complete }
    return whole

def empty : Node :=
  .scalar .null ""

/-- The kind of a node with a tag, or else `otherwise`. A lone exclamation mark is no tag. -/
def kindOf (tag : Option String) (otherwise : Kind) : Kind :=
  match tag with
  | none | some "!" => otherwise
  | some tag => .ofTag tag

def scalarOf (tag : Option String) (text : String) (plain : Bool) : Node :=
  let shown := if plain || tag.isSome then Kind.ofPlain text else .text
  .scalar (kindOf tag shown) text

mutual

/-- A node. Where a block may begin, a list may stand at the indentation of the key it belongs to if
`aligned`. -/
def node : Nat → Bool → Bool → Step Node
  | 0, _, _ => fail
  | fuel + 1, block, aligned => do
    match ← peek with
    | .reference name =>
      skip
      referent name
    | _ =>
      let props ← properties
      openAnchor props.anchor
      let node ← content fuel block aligned props
      closeAnchor node props.anchor

def content : Nat → Bool → Bool → Properties → Step Node
  | 0, _, _, _ => fail
  | fuel + 1, block, aligned, props => do
    let list := Node.list (kindOf props.tag .list)
    let map := Node.map (kindOf props.tag .map)
    match ← peek with
    | .item =>
      if aligned then return list (← alignedItems fuel)
      else if props.anchor.isSome || props.tag.isSome then return scalarOf props.tag "" true
      else fail
    | .scalar text plain =>
      skip
      return scalarOf props.tag text plain
    | .listOpen =>
      skip
      return list (← members fuel true)
    | .mapOpen =>
      skip
      return map (← fields fuel true)
    | t =>
      if block && t = .blockList then
        skip
        return list (← items fuel)
      else if block && t = .blockMap then
        skip
        return map (← pairs fuel)
      else if props.anchor.isSome || props.tag.isSome then return scalarOf props.tag "" true
      else fail

def part : Nat → Bool → List Token → Step Node
  | 0, _, _ => fail
  | fuel + 1, aligned, ends => do
    if ← isNext ends then return empty else node fuel true aligned

def flowPart : Nat → List Token → Step Node
  | 0, _ => fail
  | fuel + 1, ends => do
    if ← isNext ends then return empty else node fuel false false

def items : Nat → Step (List Node)
  | 0 => fail
  | fuel + 1 => do
    if ← skipIf .item then
      let first ← part fuel false [.item, .blockEnd]
      return first :: (← items fuel)
    else if ← skipIf .blockEnd then return []
    else fail

def alignedItems : Nat → Step (List Node)
  | 0 => fail
  | fuel + 1 => do
    if ← skipIf .item then
      let first ← part fuel false [.item, .key, .value, .blockEnd]
      return first :: (← alignedItems fuel)
    else return []

def pairs : Nat → Step (List (Node × Node))
  | 0 => fail
  | fuel + 1 => do
    if ← skipIf .key then
      let key ← part fuel true [.key, .value, .blockEnd]
      let value ←
        if ← skipIf .value then part fuel true [.key, .value, .blockEnd] else pure empty
      return (key, value) :: (← pairs fuel)
    else if ← skipIf .blockEnd then return []
    else fail

def flowValue : Nat → List Token → Step Node
  | 0, _ => fail
  | fuel + 1, ends => do
    if ← skipIf .value then flowPart fuel ends else pure empty

/-- The members of a flow list to its end. A pair makes a mapping of its own. -/
def members : Nat → Bool → Step (List Node)
  | 0, _ => fail
  | fuel + 1, first => do
    if ← skipIf .listClose then return []
    else
      if !first then
        if !(← skipIf .comma) then fail
      if ← skipIf .key then
        let key ← flowPart fuel [.value, .comma, .listClose]
        let value ← flowValue fuel [.comma, .listClose]
        return .map .map [(key, value)] :: (← members fuel false)
      else if ← skipIf .listClose then return []
      else
        let member ← node fuel false false
        return member :: (← members fuel false)

/-- The pairs of a flow mapping to its end. A node alone is a key without a value. -/
def fields : Nat → Bool → Step (List (Node × Node))
  | 0, _ => fail
  | fuel + 1, first => do
    if ← skipIf .mapClose then return []
    else
      if !first then
        if !(← skipIf .comma) then fail
      if ← skipIf .key then
        let key ← flowPart fuel [.value, .comma, .mapClose]
        let value ← flowValue fuel [.comma, .mapClose]
        return (key, value) :: (← fields fuel false)
      else if ← skipIf .mapClose then return []
      else
        let key ← node fuel false false
        return (key, empty) :: (← fields fuel false)

end

def usualHandles : List (String × String) :=
  [("!", "!"), ("!!", "tag:yaml.org,2002:")]

def directives : Nat → Bool → List (String × String) → Step (List (String × String))
  | 0, _, _ => fail
  | fuel + 1, versioned, handles => do
    match ← peek with
    | .directive d =>
      skip
      match d with
      | .version major =>
        if versioned || major != 1 then fail else directives fuel true handles
      | .handle name target =>
        if (handles.lookup name).isSome then fail
        else directives fuel versioned ((name, target) :: handles)
      | .other => directives fuel versioned handles
    | _ => return handles

def skipEnds : Nat → Step Unit
  | 0 => fail
  | fuel + 1 => do
    if ← skipIf .documentEnd then skipEnds fuel

/-- The document of a text; none if it is empty. A second document is refused. -/
def document (fuel : Nat) : Step (Option Node) := do
  let explicit :=
    match ← peek with
    | .directive _ | .documentStart => true
    | _ => false
  if !explicit && (← skipIf .streamEnd) then return none
  if explicit then
    let handles ← directives fuel false []
    if !(← skipIf .documentStart) then fail
    modify fun s => { s with handles := handles ++ usualHandles }
  else modify fun s => { s with handles := usualHandles }
  let isEmpty :=
    explicit &&
      match ← peek with
      | .directive _ | .documentStart | .documentEnd | .streamEnd => true
      | _ => false
  let root ← if isEmpty then pure empty else node fuel true false
  skipEnds fuel
  if ← skipIf .streamEnd then return some root else fail

end Step

def Node.ofTokens (ts : Tokens) : Except Problem (Option Node) :=
  let fuel := 4 * ts.tokens.length + 16
  (Step.document fuel).run' { tokens := ts.tokens, stop := ts.stop }

end FlowAtlas.Yaml
