/-!
# White space

The characters with the Unicode property White_Space, and texts made of nothing else.
-/

namespace DependencyLint.Text

/-- White space, by the Unicode property of that name. -/
def isSpace (c : Char) : Bool :=
  (0x09 ≤ c.val && c.val ≤ 0x0D) || c.val = 0x20 || c.val = 0x85 || c.val = 0xA0 ||
  c.val = 0x1680 || (0x2000 ≤ c.val && c.val ≤ 0x200A) || c.val = 0x2028 || c.val = 0x2029 ||
  c.val = 0x202F || c.val = 0x205F || c.val = 0x3000

/-- A text is blank if it holds white space only. -/
def isBlank (s : String) : Bool := s.toList.all isSpace

/-- The text without the white space at its two ends. -/
def trim (s : String) : String :=
  String.ofList ((s.toList.dropWhile isSpace).reverse.dropWhile isSpace).reverse

end DependencyLint.Text
