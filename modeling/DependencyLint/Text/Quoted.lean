import DependencyLint.Text.Printable

/-!
# Quoted text

A text between double quotes. Quotes, backslashes and the common control characters are written
with a backslash, and other characters that cannot be printed by their number.
-/

namespace DependencyLint.Text

/-- The number of a character in hexadecimal, between braces. -/
def numbered (c : Char) : String :=
  "\\u\x7b" ++ String.ofList (Nat.toDigits 16 c.toNat) ++ "\x7d"

/-- A character as it is written between quotes. -/
def quotedChar (c : Char) : String :=
  match c with
  | '\x00' => "\\0"
  | '\t' => "\\t"
  | '\r' => "\\r"
  | '\n' => "\\n"
  | '\\' => "\\\\"
  | '"' => "\\\""
  | c => if isPrintable c then c.toString else numbered c

/-- A text between double quotes. -/
def quoted (text : String) : String := "\"" ++ String.join (text.toList.map quotedChar) ++ "\""

end DependencyLint.Text
