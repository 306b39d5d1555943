import FlowAtlas.NodeId

/-! Outlines of files: the calls, the functions and the decisions of a source text in their order,
each function with what stands in it and each decision with its branches. -/

namespace FlowAtlas

/-- A sequence of items. What a decision holds outside its branches runs in the scope around the
decision. -/
inductive Outline where
  | done
  | call (callee : String) (rest : Outline)
  | function (name : String) (line : Nat) (body rest : Outline)
  | decision (display : String) (body rest : Outline)
  | branch (label : Option String) (body rest : Outline)
  deriving DecidableEq, Repr

namespace Outline

def append : Outline → Outline → Outline
  | done, o => o
  | call callee rest, o => call callee (rest.append o)
  | function name line body rest, o => function name line body (rest.append o)
  | decision display body rest, o => decision display body (rest.append o)
  | branch label body rest, o => branch label body (rest.append o)

instance : Append Outline := ⟨append⟩

def concat (os : List Outline) : Outline :=
  os.foldr append done

def decisions : Outline → Nat
  | done => 0
  | call _ rest => rest.decisions
  | function _ _ body rest => body.decisions + rest.decisions
  | decision _ body rest => 1 + body.decisions + rest.decisions
  | branch _ body rest => body.decisions + rest.decisions

@[simp] theorem append_done (o : Outline) : o.append done = o := by
  induction o <;> simp_all [append]

theorem append_assoc (a b c : Outline) : (a.append b).append c = a.append (b.append c) := by
  induction a <;> simp_all [append]

@[simp] theorem decisions_append (a b : Outline) :
    (a.append b).decisions = a.decisions + b.decisions := by
  induction a <;> simp_all [append, decisions] <;> omega

end Outline
end FlowAtlas
