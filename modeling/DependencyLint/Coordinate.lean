/-!
# Library coordinates

A library is named by its group, its artifact and its version, written `group:artifact:version`.
-/

namespace DependencyLint

/-- The pieces of a text between colons; a text without a colon is one piece. -/
def colonPieces (cs : List Char) : List (List Char) :=
  cs.foldr (fun c pieces =>
    if c = ':' then [] :: pieces
    else match pieces with
      | [] => [[c]]
      | piece :: rest => (c :: piece) :: rest) [[]]

/-- The name of a library. -/
structure Coordinate where
  group : String
  artifact : String
  version : String
deriving DecidableEq, Repr, Inhabited

namespace Coordinate

/-- A text that is no coordinate. -/
structure ParseError where
  text : String
deriving DecidableEq, Repr

def ParseError.message (e : ParseError) : String :=
  s!"invalid coordinate `{e.text}`, expected group:artifact:version"

/-- Reads `group:artifact:version`, with three parts that are not empty. -/
def parse (text : String) : Except ParseError Coordinate :=
  match colonPieces text.toList with
  | [group, artifact, version] =>
    if group.isEmpty || artifact.isEmpty || version.isEmpty then .error ⟨text⟩
    else .ok ⟨String.ofList group, String.ofList artifact, String.ofList version⟩
  | _ => .error ⟨text⟩

/-- The text of a coordinate. -/
def render (c : Coordinate) : String := c.group ++ ":" ++ c.artifact ++ ":" ++ c.version

/-- What all versions of a library have in common. -/
def moduleKey (c : Coordinate) : String := c.group ++ ":" ++ c.artifact

/-- Whether two coordinates differ in their versions at most. -/
def sameModule (c d : Coordinate) : Bool := c.group = d.group && c.artifact = d.artifact

/-- Coordinates in the order of their groups, artifacts and versions. -/
def compareTo (c d : Coordinate) : Ordering :=
  (compare c.group d.group).then ((compare c.artifact d.artifact).then (compare c.version d.version))

end Coordinate

end DependencyLint
