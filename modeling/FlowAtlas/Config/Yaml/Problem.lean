import FlowAtlas.Fault

/-! Why a text of YAML cannot be read. -/

namespace FlowAtlas.Yaml

inductive Problem where
  | malformed
  | unfinished
  | fault (f : Fault)
  deriving DecidableEq, Repr

def Problem.at (rest : List Char) : Problem :=
  if rest.isEmpty then unfinished else malformed

end FlowAtlas.Yaml
