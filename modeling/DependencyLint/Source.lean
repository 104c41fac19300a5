/-!
# Source files

What a Kotlin or Java source file imports, and the package it belongs to. Both are found line by
line: a line is what stands between two line feeds, an import or package line starts with its
keyword, blanks aside, and no other line counts.
-/

namespace DependencyLint

/-- The languages whose files are read. -/
inductive Language where
  | kotlin
  | java
deriving DecidableEq, Repr

namespace Language

def extension : Language → String
  | .kotlin => ".kt"
  | .java => ".java"

/-- The language of a file, by the end of its name. -/
def ofFileName? (name : String) : Option Language :=
  [kotlin, java].find? fun language => language.extension.toList.isSuffixOf name.toList

end Language

namespace Source

/-- The lines of a text; a text without a line feed is one line. -/
def lines (cs : List Char) : List (List Char) :=
  cs.foldr (fun c lines =>
    if c = '\n' then [] :: lines
    else match lines with
      | [] => [[c]]
      | line :: rest => (c :: line) :: rest) [[]]

def isBlankChar (c : Char) : Bool := c = ' ' || c = '\t'

/-- The characters of a dotted name: letters and digits of ASCII, underscore and dot. -/
def isNameChar (c : Char) : Bool := c.isAlphanum || c = '_' || c = '.'

/-- What follows `word` at the front of a line. -/
def afterWord? : List Char → List Char → Option (List Char)
  | [], line => some line
  | _ :: _, [] => none
  | w :: word, c :: line => if w = c then afterWord? word line else none

/-- What follows `word` and at least one blank, without the blanks. -/
def afterKeyword? (word : String) (line : List Char) : Option (List Char) :=
  match afterWord? word.toList line with
  | some (c :: rest) => if isBlankChar c then some (rest.dropWhile isBlankChar) else none
  | _ => none

/-- The longest name at the front of a line, and what follows it. -/
def splitName? (line : List Char) : Option (List Char × List Char) :=
  match line.takeWhile isNameChar with
  | [] => none
  | name => some (name, line.dropWhile isNameChar)

/-- The name behind the keyword that a line starts with, and what follows the name. -/
def statement? (keyword : String) (line : List Char) : Option (List Char × List Char) :=
  (afterKeyword? keyword (line.dropWhile isBlankChar)).bind splitName?

/-- Nothing, or one carriage return, is left of the line. -/
def isLineEnd : List Char → Bool
  | [] | ['\r'] => true
  | _ => false

/-- A semicolon comes next, blanks aside. -/
def startsWithSemicolon (rest : List Char) : Bool :=
  (rest.dropWhile isBlankChar).head? = some ';'

def dropOne (c : Char) : List Char → List Char
  | [] => []
  | d :: rest => if d = c then rest else d :: rest

/-! ## Imports -/

/-- In Kotlin anything may follow the name, and a carriage return only at the end. -/
def kotlinImport? (line : List Char) : Option (List Char) := do
  let (name, rest) ← statement? "import" line
  if isLineEnd (rest.dropWhile (· ≠ '\r')) then some name else none

/-- The name at the front, if a semicolon follows it; a star may stand in between. -/
def terminatedName? (line : List Char) : Option (List Char) := do
  let (name, rest) ← splitName? line
  if startsWithSemicolon (dropOne '*' rest) then some name else none

/-- In Java a semicolon ends an import, and `static` may stand in front of the name. Where no name
follows it, `static` is taken for the name itself. -/
def javaImport? (line : List Char) : Option (List Char) := do
  let rest ← afterKeyword? "import" (line.dropWhile isBlankChar)
  ((afterKeyword? "static" rest).bind terminatedName?).or (terminatedName? rest)

def import? : Language → List Char → Option (List Char)
  | .kotlin => kotlinImport?
  | .java => javaImport?

/-- The names that a source text imports, each once, in the order of their first lines. -/
def imports (language : Language) (text : String) : List String :=
  ((lines text.toList).filterMap fun line => (import? language line).map String.ofList).eraseDups

/-! ## Packages -/

/-- In Kotlin only a semicolon, blanks and the line end follow the name. -/
def kotlinPackage? (line : List Char) : Option (List Char) := do
  let (name, rest) ← statement? "package" line
  let rest := dropOne ';' (rest.dropWhile isBlankChar)
  if isLineEnd (rest.dropWhile isBlankChar) then some name else none

/-- In Java a semicolon follows the name. -/
def javaPackage? (line : List Char) : Option (List Char) := do
  let (name, rest) ← statement? "package" line
  if startsWithSemicolon rest then some name else none

def package? : Language → List Char → Option (List Char)
  | .kotlin => kotlinPackage?
  | .java => javaPackage?

/-- The package of a source text: the name on its first package line, or no name at all. -/
def package (language : Language) (text : String) : String :=
  match (lines text.toList).findSome? (package? language) with
  | some name => String.ofList name
  | none => ""

end Source

end DependencyLint
