/-!
# JSON values

JSON values to be written, and their text.
-/

namespace DependencyLint.Json

inductive Value where
  | null
  | bool (value : Bool)
  | integer (value : Int)
  | text (content : String)
  | array (items : List Value)
  | object (members : List (String × Value))
deriving Repr

namespace Value

def texts (items : List String) : Value := .array (items.map .text)

/-- A control character by its number. -/
def controlEscape (c : Char) : String :=
  "\\u00" ++ (if c.toNat < 16 then "0" else "") ++ String.ofList (Nat.toDigits 16 c.toNat)

def escapeChar (c : Char) : String :=
  match c with
  | '"' => "\\\""
  | '\\' => "\\\\"
  | '\x08' => "\\b"
  | '\t' => "\\t"
  | '\n' => "\\n"
  | '\x0c' => "\\f"
  | '\r' => "\\r"
  | c => if c.val < 0x20 then controlEscape c else c.toString

def quote (text : String) : String := "\"" ++ String.join (text.toList.map escapeChar) ++ "\""

mutual

/-- The text of a value on one line. -/
def render : Value → String
  | .null => "null"
  | .bool value => toString value
  | .integer value => toString value
  | .text content => quote content
  | .array items => "[" ++ ",".intercalate (renderItems items) ++ "]"
  | .object members => "\x7b" ++ ",".intercalate (renderMembers members) ++ "\x7d"

def renderItems : List Value → List String
  | [] => []
  | item :: items => render item :: renderItems items

def renderMembers : List (String × Value) → List String
  | [] => []
  | (key, value) :: members => (quote key ++ ":" ++ render value) :: renderMembers members

end

/-- Parts between brackets, each on a line of its own. -/
def block (first last : String) (depth : Nat) (parts : List String) : String :=
  if parts.isEmpty then first ++ last
  else
    let margin (depth : Nat) := "\n" ++ String.join (List.replicate depth "  ")
    first ++ ",".intercalate (parts.map fun part => margin (depth + 1) ++ part) ++ margin depth ++ last

mutual

/-- The text of a value over several lines, two blanks further in for each level. -/
def pretty (depth : Nat) : Value → String
  | .array items => block "[" "]" depth (prettyItems (depth + 1) items)
  | .object members => block "\x7b" "\x7d" depth (prettyMembers (depth + 1) members)
  | value => render value

def prettyItems (depth : Nat) : List Value → List String
  | [] => []
  | item :: items => pretty depth item :: prettyItems depth items

def prettyMembers (depth : Nat) : List (String × Value) → List String
  | [] => []
  | (key, value) :: members => (quote key ++ ": " ++ pretty depth value) :: prettyMembers depth members

end

end Value

end DependencyLint.Json
