import FlowAtlas.Config.Value

/-! Laying settings over others. Mappings are merged key by key; any other value replaces what it is
laid over. -/

namespace FlowAtlas.Value

mutual

def overlay : Option Value → Value → Value
  | some (map old), map new => map (overlayFields old new)
  | _, v => v

def overlayFields (old : List (Key × Value)) : List (Key × Value) → List (Key × Value)
  | [] => old
  | (key, v) :: rest => overlayFields (setField key (overlay (fieldOf? key old) v) old) rest

end

end FlowAtlas.Value
