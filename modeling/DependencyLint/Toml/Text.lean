import DependencyLint.Reader

/-!
# Text in TOML

Blanks, comments, line ends, the four kinds of strings, and keys.
-/

namespace DependencyLint.Toml

/-- A reader of TOML text. -/
abbrev Scan (α : Type) := Reader Char α

namespace Scan

open Reader (next satisfy takeWhile takeWhile1 many oneOf optional tokens)

def char (c : Char) : Scan Unit := tokens [c]

def isBlankChar (c : Char) : Bool := c = ' ' || c = '\t'

def isBeyondAscii (c : Char) : Bool := c.val ≥ 0x80

/-- The characters of comments: tabs and all but the control characters. -/
def isPlain (c : Char) : Bool := c = '\t' || (0x20 ≤ c.val && c.val ≤ 0x7E) || isBeyondAscii c

def blanks : Scan Unit := do
  let _ ← takeWhile isBlankChar

/-- A line feed, with or without a carriage return in front. -/
def newline : Scan Unit := oneOf [char '\n', tokens ['\r', '\n']]

def comment : Scan Unit := do
  char '#'
  let _ ← takeWhile isPlain

def lineEnd : Scan Unit := oneOf [newline, Reader.atEnd]

/-- What may stand between a value and the end of its line. -/
def lineTrailing : Scan Unit := do
  blanks
  let _ ← optional comment
  lineEnd

/-- Blanks, comments and line ends in any number. -/
def gap : Scan Unit := do
  let _ ← many (oneOf [do let _ ← takeWhile1 isBlankChar, newline, comment])

/-! ## Strings -/

def hexValue (c : Char) : Nat :=
  if c.isDigit then c.toNat - '0'.toNat
  else if 'a' ≤ c then c.toNat - 'a'.toNat + 10
  else c.toNat - 'A'.toNat + 10

def isHexDigit (c : Char) : Bool := c.isDigit || ('a' ≤ c && c ≤ 'f') || ('A' ≤ c && c ≤ 'F')

/-- A character by its number in so many hexadecimal digits. -/
def numberedChar (digits : Nat) : Scan Char := do
  let number := (← (satisfy isHexDigit).times digits).foldl (fun n c => n * 16 + hexValue c) 0
  if number.isValidChar then pure (Char.ofNat number) else Reader.fail

/-- What a backslash and the characters behind it stand for. -/
def escape : Scan Char := do
  char '\\'
  match ← next with
  | 'b' => pure '\x08'
  | 't' => pure '\t'
  | 'n' => pure '\n'
  | 'f' => pure '\x0c'
  | 'r' => pure '\r'
  | '"' => pure '"'
  | '\\' => pure '\\'
  | 'u' => numberedChar 4
  | 'U' => numberedChar 8
  | _ => Reader.fail

def isBasicChar (c : Char) : Bool := isPlain c && c ≠ '"' && c ≠ '\\'

def isLiteralChar (c : Char) : Bool := isPlain c && c ≠ '\''

def basicString : Scan String := do
  char '"'
  let parts ← many (oneOf [takeWhile1 isBasicChar, List.singleton <$> escape])
  char '"'
  pure (String.ofList parts.flatten)

def literalString : Scan String := do
  char '\''
  let text ← takeWhile isLiteralChar
  char '\''
  pure (String.ofList text)

/-- A backslash at the end of a line, with all blanks and line ends up to the next character. -/
def lineJoin : Scan Unit := do
  char '\\'
  blanks
  newline
  let _ ← many (oneOf [do let _ ← takeWhile1 isBlankChar, newline])

/-- One or two quotes that do not end a string of several lines. -/
def innerQuotes (quote : Char) : Scan (List Char) := do
  let quotes ← takeWhile1 (· = quote)
  if quotes.length ≤ 2 then pure quotes else Reader.fail

/-- The three quotes at the end of a string of several lines, with up to two more in front of them
that belong to the string. -/
def closingQuotes (quote : Char) : Scan (List Char) := do
  let quotes ← takeWhile1 (· = quote)
  if 3 ≤ quotes.length && quotes.length ≤ 5 then pure (quotes.drop 3) else Reader.fail

/-- A string of several lines between triple quotes. A line end right behind the opening quotes is
not part of it, and other line ends count as line feeds. -/
def multilineString (quote : Char) (part : Scan (List Char)) : Scan String := do
  tokens [quote, quote, quote]
  let _ ← optional newline
  let parts ← many (oneOf [part, do newline; pure ['\n'], innerQuotes quote])
  let quotes ← closingQuotes quote
  pure (String.ofList (parts.flatten ++ quotes))

def string : Scan String :=
  oneOf
    [multilineString '"' (oneOf [takeWhile1 isBasicChar, do lineJoin; pure [], List.singleton <$> escape]),
      multilineString '\'' (takeWhile1 isLiteralChar), basicString, literalString]

/-! ## Keys -/

/-- Tables cannot lie deeper in one another than this. -/
def depthLimit : Nat := 80

def isBareKeyChar (c : Char) : Bool := c.isAlphanum || c = '_' || c = '-'

def simpleKey : Scan String := do
  match ← Reader.peek with
  | some '"' => basicString
  | some '\'' => literalString
  | _ => String.ofList <$> takeWhile1 isBareKeyChar

/-- The parts of a dotted key. -/
def key : Scan (List String) := do
  let parts ← Reader.separated (do blanks; let part ← simpleKey; blanks; pure part) (char '.')
  if parts.isEmpty || depthLimit ≤ parts.length then Reader.fail else pure parts

end Scan

end DependencyLint.Toml
