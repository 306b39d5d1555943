/-! Blank characters and the trimming of text. A trimmed text neither begins nor ends with a blank. -/

namespace FlowAtlas.Text

/-- The white space characters of Unicode together with the four information separators. -/
def isBlank (c : Char) : Bool :=
  let n := c.toNat
  (9 ≤ n && n ≤ 13) || (28 ≤ n && n ≤ 32) || n == 0x85 || n == 0xA0 || n == 0x1680 ||
    (0x2000 ≤ n && n ≤ 0x200A) || n == 0x2028 || n == 0x2029 || n == 0x202F || n == 0x205F ||
    n == 0x3000

def trimLeft (cs : List Char) : List Char :=
  cs.dropWhile isBlank

def trimRight (cs : List Char) : List Char :=
  (cs.reverse.dropWhile isBlank).reverse

def trimChars (cs : List Char) : List Char :=
  trimRight (trimLeft cs)

def trim (s : String) : String :=
  String.ofList (trimChars s.toList)

def trimStart (s : String) : String :=
  String.ofList (trimLeft s.toList)

def isAllBlank (s : String) : Bool :=
  s.toList.all isBlank

theorem trimLeft_cons_of_not_blank {c : Char} (h : isBlank c = false) (cs : List Char) :
    trimLeft (c :: cs) = c :: cs := by
  simp [trimLeft, h]

/-- Cuts a trimmed text after `limit` characters and marks the cut with an ellipsis. A negative
limit counts from the end of the text. -/
def truncate (s : String) (limit : Int) : String :=
  let cs := trimChars s.toList
  if (cs.length : Int) ≤ limit then String.ofList cs
  else
    let kept := if 0 ≤ limit then limit.toNat else (cs.length + limit).toNat
    String.ofList (cs.take kept ++ ['…'])

end FlowAtlas.Text
