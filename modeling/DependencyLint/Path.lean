import DependencyLint.Text.Raw

/-!
# Paths

A path is kept as it was written. Only comparison, the parent, the file name and the stripping of a
leading directory look at its components: the pieces between slashes, where empty pieces and inner
`.` pieces do not count, and a leading `.` and every `..` do.
-/

namespace DependencyLint

/-- A path, as written. -/
structure Path where
  raw : RawText
deriving DecidableEq, Repr, Inhabited

namespace Path

def ofText (text : String) : Path := ⟨text⟩

/-- A path as it is shown. -/
def text (p : Path) : String := p.raw.shown

/-- A step of a path. -/
inductive Component where
  | root
  | here
  | up
  | name (name : RawText)
deriving DecidableEq, Repr

/-- The byte between the pieces of a path. -/
def slash : UInt8 := 0x2F

/-- The pieces of a byte sequence between slashes; one without a slash is one piece. -/
def piecesOf (bytes : List UInt8) : List (List UInt8) :=
  bytes.foldr (fun b pieces =>
    if b = slash then [] :: pieces
    else match pieces with
      | [] => [[b]]
      | piece :: rest => (b :: piece) :: rest) [[]]

/-- The pieces between the slashes of a path. An absolute path starts with an empty piece. -/
def pieces (p : Path) : List RawText := (piecesOf p.raw.bytes).map RawText.mk

/-- Puts pieces together again. -/
def ofPieces (pieces : List RawText) : Path := ⟨⟨[slash].intercalate (pieces.map RawText.bytes)⟩⟩

def isAbsolute (p : Path) : Bool := p.raw.bytes.head? = some slash

/-- A piece that names nothing: two slashes meet there, or it stays in the same directory. -/
def isIdle (piece : RawText) : Bool := piece = "" || piece = "."

/-- A piece that names an entry of a directory. -/
def isName (piece : RawText) : Bool := !isIdle piece && piece ≠ ".."

/-- The component that a piece stands for, where it is not idle. -/
def stepOf (piece : RawText) : Component := if piece = ".." then .up else .name piece

def steps (pieces : List RawText) : List Component :=
  (pieces.filter fun piece => !isIdle piece).map stepOf

/-- The components of a path. -/
def components (p : Path) : List Component :=
  match p.pieces with
  | [] => []
  | first :: rest =>
    if p.isAbsolute then .root :: steps rest
    else if first = "." then .here :: steps rest
    else steps (first :: rest)

/-- Two spellings of one path have the same components. -/
def same (p q : Path) : Bool := p.components = q.components

/-- The last component, if it is a name. -/
def fileName? (p : Path) : Option RawText :=
  match p.components.getLast? with
  | some (.name name) => some name
  | _ => none

/-- Starts from `p` and goes on along `q`; an absolute `q` starts afresh. -/
def join (p q : Path) : Path :=
  if q.isAbsolute || p.raw = "" then q
  else if p.raw.bytes.getLast? = some slash then ⟨p.raw ++ q.raw⟩
  else ⟨p.raw ++ "/" ++ q.raw⟩

/-- Pieces without the idle ones at the end. -/
def trimEnd (pieces : List RawText) : List RawText := (pieces.reverse.dropWhile isIdle).reverse

/-- The pieces in front of the last component, without idle ones at their end. A piece at the
very front counts even where it is idle, since it stands for the root or for a leading `.`. -/
def parentPieces : List RawText → Option (List RawText)
  | [] => none
  | first :: rest =>
    match trimEnd rest with
    | [] => none
    | kept => some (first :: trimEnd kept.dropLast)

/-- The path without its last component; the root and the empty path have none. -/
def parent? (p : Path) : Option Path :=
  match p.pieces with
  | [] => none
  | first :: rest =>
    match parentPieces (first :: rest) with
    | some front =>
      if front = [("" : RawText)] then some ⟨if p.isAbsolute then "/" else ""⟩ else some (ofPieces front)
    | none => if first = "" then none else some ⟨""⟩

/-- Takes the components in the list off the front of a list of pieces. -/
def dropSteps : List Component → List RawText → Option (List RawText)
  | [], pieces => some (pieces.dropWhile isIdle)
  | _ :: _, [] => none
  | step :: steps, piece :: pieces =>
    if isIdle piece then dropSteps (step :: steps) pieces
    else if stepOf piece = step then dropSteps steps pieces
    else none

/-- The rest of `p` behind the directory `dir`, if `p` starts with the components of `dir`. -/
def stripDir? (dir p : Path) : Option Path :=
  match dir.components, p.pieces with
  | [], pieces => some (ofPieces (trimEnd pieces))
  | .root :: steps, _ :: pieces =>
    if p.isAbsolute then (dropSteps steps pieces).map (ofPieces ∘ trimEnd) else none
  | .here :: steps, first :: pieces =>
    if first = "." then (dropSteps steps pieces).map (ofPieces ∘ trimEnd) else none
  | steps, first :: pieces =>
    if p.isAbsolute || first = "." then none
    else (dropSteps steps (first :: pieces)).map (ofPieces ∘ trimEnd)
  | _, [] => none

end Path

end DependencyLint
