/-! Searching in text: the first occurrence of a part, what stands before and after it, and the
parts that separators leave between them. -/

namespace FlowAtlas.Text

def cutChars (part : List Char) : List Char → Option (List Char × List Char)
  | [] => if part.isEmpty then some ([], []) else none
  | c :: rest =>
    if part.isPrefixOf (c :: rest) then some ([], (c :: rest).drop part.length)
    else (cutChars part rest).map fun (before, after) => (c :: before, after)

theorem append_of_cutChars {part s before after : List Char}
    (h : cutChars part s = some (before, after)) : s = before ++ part ++ after := by
  induction s generalizing before with
  | nil =>
    simp only [cutChars] at h
    split at h
    · simp_all
    · simp at h
  | cons c rest ih =>
    simp only [cutChars] at h
    split at h
    · rename_i hp
      obtain ⟨tail, ht⟩ := List.isPrefixOf_iff_prefix.mp hp
      simp only [Option.some.injEq, Prod.mk.injEq] at h
      obtain ⟨rfl, rfl⟩ := h
      rw [← ht]
      simp
    · obtain ⟨⟨b, a⟩, hc, hb⟩ := Option.map_eq_some_iff.mp h
      simp only [Prod.mk.injEq] at hb
      obtain ⟨rfl, rfl⟩ := hb
      simp [ih hc]

def cut (part s : String) : Option (String × String) :=
  (cutChars part.toList s.toList).map fun (before, after) =>
    (String.ofList before, String.ofList after)

def occursIn (part s : String) : Bool :=
  (cutChars part.toList s.toList).isSome

def startsWith (s start : String) : Bool :=
  start.toList.isPrefixOf s.toList

def endsWith (s ending : String) : Bool :=
  ending.toList.isSuffixOf s.toList

def dropStart (s : String) (n : Nat) : String :=
  String.ofList (s.toList.drop n)

def dropEnd (s : String) (n : Nat) : String :=
  String.ofList (s.toList.take (s.toList.length - n))

/-- The pieces between the characters that satisfy `p`; one more than there are such characters. -/
def splitChars (p : Char → Bool) : List Char → List (List Char)
  | [] => [[]]
  | c :: rest =>
    if p c then [] :: splitChars p rest
    else
      match splitChars p rest with
      | [] => [[c]]
      | piece :: pieces => (c :: piece) :: pieces

def splitOnChar (separator : Char) (s : String) : List String :=
  (splitChars (· == separator) s.toList).map String.ofList

def joinWith (separator : String) (parts : List String) : String :=
  separator.intercalate parts

/-- Lower case for the letters A to Z; every other character stays. -/
def lowerAscii (s : String) : String :=
  String.ofList (s.toList.map Char.toLower)

def unifyBreaks : List Char → List Char
  | [] => []
  | '\r' :: '\n' :: rest => '\n' :: unifyBreaks rest
  | c :: rest => (if c == '\r' then '\n' else c) :: unifyBreaks rest

end FlowAtlas.Text
