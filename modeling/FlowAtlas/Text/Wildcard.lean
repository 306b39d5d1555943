/-! File name patterns: `*` stands for any text, `?` for any character, `[...]` for one character of
a set and `[!...]` for one outside it. A pattern fits a whole name. -/

namespace FlowAtlas.Text

inductive Wildcard where
  | literal (c : Char)
  | one
  | many
  | set (negated : Bool) (ranges : List (Char × Char))
  deriving DecidableEq, Repr

namespace Wildcard

/-- The ranges written between brackets. A hyphen with a character on each side makes a range. -/
def rangesOf : List Char → List (Char × Char)
  | low :: '-' :: high :: rest => (low, high) :: rangesOf rest
  | c :: rest => (c, c) :: rangesOf rest
  | [] => []

def ofBrackets : List Char → Wildcard
  | '!' :: body => .set true (rangesOf body)
  | body => .set false (rangesOf body)

/-- Whether the text after an opening bracket closes it. A closing bracket that comes first, or first
after the exclamation mark, belongs to the set. -/
def closes : List Char → Bool
  | '!' :: ']' :: rest => rest.contains ']'
  | '!' :: rest => rest.contains ']'
  | ']' :: rest => rest.contains ']'
  | rest => rest.contains ']'

/-- Reads a pattern; `set?` holds, last character first, what an open bracket has read so far. -/
def read (set? : Option (List Char)) : List Char → List Wildcard
  | [] => []
  | c :: rest =>
    match set? with
    | some body =>
      if c == ']' && body != [] && body != ['!'] then ofBrackets body.reverse :: read none rest
      else read (some (c :: body)) rest
    | none =>
      if c == '*' then .many :: read none rest
      else if c == '?' then .one :: read none rest
      else if c == '[' && closes rest then read (some []) rest
      else .literal c :: read none rest

def ofString (pattern : String) : List Wildcard :=
  read none pattern.toList

def anyTail (p : List Char → Bool) : List Char → Bool
  | [] => p []
  | c :: rest => p (c :: rest) || anyTail p rest

def fitsOne : Wildcard → Char → Bool
  | .literal c, d => c == d
  | .one, _ => true
  | .many, _ => false
  | .set negated ranges, d => (ranges.any fun (low, high) => low ≤ d && d ≤ high) != negated

def fits : List Wildcard → List Char → Bool
  | [], cs => cs.isEmpty
  | .many :: rest, cs => anyTail (fits rest) cs
  | w :: rest, c :: cs => fitsOne w c && fits rest cs
  | _ :: _, [] => false

theorem anyTail_iff {p : List Char → Bool} {cs : List Char} :
    anyTail p cs = true ↔ ∃ before after, cs = before ++ after ∧ p after = true := by
  induction cs with
  | nil =>
    constructor
    · intro h
      exact ⟨[], [], rfl, h⟩
    · rintro ⟨before, after, heq, h⟩
      obtain ⟨rfl, rfl⟩ : before = [] ∧ after = [] := by simpa using heq
      exact h
  | cons c rest ih =>
    simp only [anyTail, Bool.or_eq_true, ih]
    constructor
    · rintro (h | ⟨before, after, rfl, h⟩)
      · exact ⟨[], c :: rest, rfl, h⟩
      · exact ⟨c :: before, after, rfl, h⟩
    · rintro ⟨before, after, heq, h⟩
      cases before with
      | nil => exact .inl (by simpa [heq] using h)
      | cons b before =>
        simp only [List.cons_append, List.cons.injEq] at heq
        exact .inr ⟨before, after, heq.2, h⟩

end Wildcard

def fitsPattern (pattern name : String) : Bool :=
  Wildcard.fits (Wildcard.ofString pattern) name.toList

end FlowAtlas.Text
