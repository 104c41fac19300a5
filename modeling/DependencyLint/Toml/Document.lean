import DependencyLint.Toml.Scalar

/-!
# TOML documents

A document is a sequence of lines: key-value lines, and headers that say which table the following
lines belong to. `Toml.parse` gives the table of the whole document.
-/

namespace DependencyLint.Toml

namespace Scan

open Reader (many oneOf optional tokens separated)

/-! ## Values -/

/-- A key-value pair; `value` reads the value. -/
def pair (value : Scan Value) : Scan (List String × Value) := do
  let path ← key
  char '='
  blanks
  let found ← value
  blanks
  pure (path, found)

/-- An array. A comma may stand behind the last item. -/
def array (value : Scan Value) : Scan Value := do
  char '['
  let items ← separated (do gap; let item ← value; gap; pure item) (char ',')
  if !items.isEmpty then
    let _ ← optional (char ',')
  gap
  char ']'
  pure (.array false items)

/-- A table between braces, on one line. -/
def inlineTable (value : Scan Value) : Scan Value := do
  char '{'
  let pairs ← separated (pair value) (char ',')
  blanks
  char '}'
  let entries ← Reader.ofOption (Entries.assignAll pairs [])
  pure (.table .inline entries)

/-- A value, told by its first character; `nested` reads what lies in arrays and inline tables. -/
def valueOver (nested : Scan Value) : Scan Value := do
  match ← Reader.peek with
  | some '"' | some '\'' => .string <$> string
  | some '[' => array nested
  | some '{' => inlineTable nested
  | some 't' => word "true" (.boolean true)
  | some 'f' => word "false" (.boolean false)
  | some c =>
    if c.isDigit || c = '+' || c = '-' then oneOf [dateTime, decimalFloat, specialFloat, integer]
    else specialFloat
  | none => Reader.fail

/-- A value that is neither an array nor an inline table. -/
def scalarOnly : Scan Value := do
  match ← Reader.peek with
  | some '[' | some '{' => Reader.fail
  | _ => valueOver Reader.fail

/-- A value with at most so many arrays and inline tables inside one another. -/
def value : Nat → Scan Value
  | 0 => scalarOnly
  | depth + 1 => valueOver (value depth)

/-! ## Lines -/

/-- A line of a document. -/
inductive Line where
  | blank
  | assign (path : List String) (value : Value)
  | header (path : List String)
  | elementHeader (path : List String)

def header : Scan Line :=
  oneOf
    [do tokens ['[', '[']; let path ← key; tokens [']', ']']; lineTrailing; pure (.elementHeader path),
      do tokens ['[']; let path ← key; tokens [']']; lineTrailing; pure (.header path)]

def assignment : Scan Line := do
  let path ← key
  char '='
  blanks
  let found ← value (depthLimit - 1)
  lineTrailing
  pure (.assign path found)

def line : Scan Line := do
  let found ← match ← Reader.peek with
    | some '#' => do comment; lineEnd; pure .blank
    | some '[' => header
    | some '\n' | some '\r' => do newline; pure .blank
    | _ => assignment
  blanks
  pure found

/-- All lines of a document. A byte order mark in front is skipped. -/
def document : Scan (List Line) := do
  let _ ← optional (char (Char.ofNat 0xFEFF))
  blanks
  many line

end Scan

/-- A header and the key-value lines below it. -/
structure Block where
  header : Scan.Line
  lines : List (List String × Value)

/-- Groups lines under their headers. The lines in front of the first header come with a blank
one. -/
def blocks (lines : List Scan.Line) : List Block :=
  lines.foldr (fun line blocks =>
    match line, blocks with
    | .blank, blocks => blocks
    | .assign path value, block :: rest =>
      match block.header with
      | .blank => ⟨.blank, (path, value) :: block.lines⟩ :: rest
      | _ => ⟨.blank, [(path, value)]⟩ :: block :: rest
    | .assign path value, [] => [⟨.blank, [(path, value)]⟩]
    | header, ⟨.blank, lines⟩ :: rest => ⟨header, lines⟩ :: rest
    | header, blocks => ⟨header, []⟩ :: blocks) []

/-- Enters a block into the table of the document. -/
def addBlock (entries : Entries) (block : Block) : Option Entries :=
  match block.header with
  | .header path => do
    let key ← path.getLast?
    entries.descend (Entries.addTable key block.lines) path.dropLast
  | .elementHeader path => do
    let key ← path.getLast?
    entries.descend (Entries.addElement key block.lines) path.dropLast
  | _ => entries.assignAll block.lines

/-- The table of a TOML document, or `none` if the text is not a TOML document. -/
def parse (text : String) : Option Entries := do
  let lines ← Scan.document.readAll text.toList
  (blocks lines).foldlM addBlock []

end DependencyLint.Toml
