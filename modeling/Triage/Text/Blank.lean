/-!
# White space

The characters with the Unicode property White_Space, and texts that hold nothing else.
-/

namespace Triage.Text

def isWhiteSpace (c : Char) : Bool :=
  let n := c.toNat
  (0x09 ≤ n && n ≤ 0x0d) || n == 0x20 || n == 0x85 || n == 0xa0 || n == 0x1680 ||
  (0x2000 ≤ n && n ≤ 0x200a) || n == 0x2028 || n == 0x2029 || n == 0x202f || n == 0x205f ||
  n == 0x3000

def trimEnd (s : String) : String :=
  String.ofList (s.toList.reverse.dropWhile isWhiteSpace).reverse

/-- The text without white space at its ends. -/
def trim (s : String) : String :=
  String.ofList ((s.toList.dropWhile isWhiteSpace).reverse.dropWhile isWhiteSpace).reverse

/-- Whether a text holds nothing but white space. -/
def isBlank (s : String) : Bool := s.toList.all isWhiteSpace

/-- A text that is there and not blank. -/
def nonBlank? (s : Option String) : Option String := s.filter (!isBlank ·)

end Triage.Text
