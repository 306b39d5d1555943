import FlowAtlas.Text.Casing

/-! Lower case for every script. A sigma at the end of a word has a form of its own, and the dotted
capital I becomes two characters. -/

namespace FlowAtlas.Text

def lowerChar (c : Char) : Char :=
  let n := c.toNat
  match capitals.find? fun r => r.first ≤ n && n ≤ r.last && (n - r.first) % r.step == 0 with
  | none => c
  | some r => Char.ofNat (n + r.distance).toNat

def meetsCased (cs : List Char) : Bool :=
  (cs.find? fun c => !isCaseIgnored c).any isCased

def lowerSigma (before after : List Char) : Char :=
  if meetsCased before && !meetsCased after then 'ς' else 'σ'

def lowerFrom (before : List Char) : List Char → List Char
  | [] => []
  | c :: rest =>
    (if c = 'Σ' then [lowerSigma before rest]
      else if c = 'İ' then ['i', '\u0307']
      else [lowerChar c]) ++ lowerFrom (c :: before) rest

def lower (s : String) : String :=
  String.ofList (lowerFrom [] s.toList)

end FlowAtlas.Text
