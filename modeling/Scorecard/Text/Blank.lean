set_option autoImplicit false

/-! # White space, lines and case

The characters that count as white space and as ends of lines, with the operations that trim and
split text by them. Lines end at more characters than the newline: a form feed or a Unicode
separator inside a text also ends a line, and a carriage return with a newline is one end.
-/

namespace Scorecard.Text

/-- White space: the separators of Unicode and the control characters that separate text. -/
def isBlank (c : Char) : Bool :=
  let n := c.toNat
  (9 ≤ n && n ≤ 13) || (28 ≤ n && n ≤ 32) || n == 0x85 || n == 0xA0 || n == 0x1680 ||
    (0x2000 ≤ n && n ≤ 0x200A) || n == 0x2028 || n == 0x2029 || n == 0x202F || n == 0x205F ||
      n == 0x3000

/-- A character that ends a line. -/
def isLineEnd (c : Char) : Bool :=
  let n := c.toNat
  (10 ≤ n && n ≤ 13) || (28 ≤ n && n ≤ 30) || n == 0x85 || n == 0x2028 || n == 0x2029

/-- `cs` without the characters at its end that satisfy `p`. -/
def dropEnd (p : Char → Bool) (cs : List Char) : List Char := (cs.reverse.dropWhile p).reverse

/-- The text without white space at either end. -/
def strip (s : String) : String := String.ofList (dropEnd isBlank (s.toList.dropWhile isBlank))

/-- The text without the given character at its end. -/
def stripEnd (c : Char) (s : String) : String := String.ofList (dropEnd (· == c) s.toList)

/-- The lines of a text, given the reversed beginning of the first one. A line end at the very end
opens no further line. -/
def linesFrom (line : List Char) : List Char → List (List Char)
  | [] => if line.isEmpty then [] else [line.reverse]
  | '\r' :: '\n' :: cs => line.reverse :: linesFrom [] cs
  | c :: cs => if isLineEnd c then line.reverse :: linesFrom [] cs else linesFrom (c :: line) cs

/-- The lines of a text, without their ends. -/
def lines (s : String) : List String := (linesFrom [] s.toList).map String.ofList

/-- The parts of a text between the occurrences of a character. -/
def splitOn (separator : Char) (s : String) : List String :=
  (s.toList.splitOn separator).map String.ofList

/-- Lower case of the ASCII letters. It serves comparisons with words in which every letter is the
lower case of ASCII letters only, so no other character has to be folded. -/
def lower (s : String) : String := s.map Char.toLower

/-- Whether `needle` occurs in `cs`. -/
def occursIn (needle : List Char) : List Char → Bool
  | [] => needle.isEmpty
  | c :: cs => needle.isPrefixOf (c :: cs) || occursIn needle cs

/-- Whether one text contains another. -/
def contains (s needle : String) : Bool := occursIn needle.toList s.toList

def startsWith (s start : String) : Bool := start.toList.isPrefixOf s.toList

def endsWith (s ending : String) : Bool := ending.toList.isSuffixOf s.toList

/-- A carriage return, alone or before a newline, becomes a newline. -/
def normalizeNewlines : List Char → List Char
  | [] => []
  | '\r' :: '\n' :: cs => '\n' :: normalizeNewlines cs
  | c :: cs => (if c == '\r' then '\n' else c) :: normalizeNewlines cs

/-- Order of texts by code points. -/
def precedes (a b : String) : Bool := decide (a < b) || a == b

/-- The distinct texts of a list in code point order. -/
def sortedSet (items : List String) : List String := (items.mergeSort precedes).eraseDups

end Scorecard.Text
