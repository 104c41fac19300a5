import DependencyLint.FileTree

/-!
# File systems

A file system is a file tree and the place of the working directory in it. Absolute paths are
followed from the root, all others from the working directory.
-/

namespace DependencyLint

/-- A file tree with a working directory. -/
structure FileSystem where
  tree : FileTree
  workingDir : Place := []

/-- Whether a path has a NUL byte in it. No file can be reached by such a path. -/
def Path.hasNul (p : Path) : Bool := p.raw.bytes.contains 0

namespace FileSystem

/-- A file system whose working directory is its root. -/
def ofEntries (entries : List (RawText × FileTree)) : FileSystem := ⟨.dir entries, []⟩

def empty : FileSystem := ofEntries []

/-- The place that the pieces of a path are followed from. -/
def start (files : FileSystem) (p : Path) : Place := if p.isAbsolute then [] else files.workingDir

/-- The place that a path leads to. The empty path leads nowhere. -/
def place? (files : FileSystem) (p : Path) : Option Place :=
  if p.raw = "" || p.hasNul then none else files.tree.follow (files.start p) p.pieces

/-- The file or directory that a path leads to. -/
def find? (files : FileSystem) (p : Path) : Option FileTree :=
  (files.place? p).bind fun place => files.tree.at? place

def exists? (files : FileSystem) (p : Path) : Bool := (files.find? p).isSome

/-- The bytes in the file that a path leads to, whether they may be read or not. -/
def stored? (files : FileSystem) (p : Path) : Option ByteArray :=
  match files.find? p with
  | some (.fileWith _ content) => some content
  | _ => none

def isFile (files : FileSystem) (p : Path) : Bool := (files.stored? p).isSome

/-- The bytes that can be read from the file that a path leads to. -/
def content? (files : FileSystem) (p : Path) : Option ByteArray :=
  match files.find? p with
  | some (.fileWith access content) => if access.read then some content else none
  | _ => none

/-- The text that can be read from the file that a path leads to, if all of it is UTF-8. -/
def text? (files : FileSystem) (p : Path) : Option String :=
  (files.content? p).bind Text.Utf8.strict

/-! ## Changing files -/

/-- Takes away the file or directory that a path leads to. -/
def remove (files : FileSystem) (p : Path) : FileSystem :=
  match files.place? p with
  | some place => { files with tree := files.tree.removeAt place }
  | none => files

/-- Creates a directory and the missing directories above it. The flag says whether it is there. -/
def makeDirs (files : FileSystem) (p : Path) : FileSystem × Bool :=
  if p.hasNul then (files, false)
  else
    let (tree, isMade) := files.tree.makeDirsFrom (files.start p) p.pieces
    ({ files with tree }, isMade)

/-- The place of a file that can be written. Its directory exists, and it is not a directory
itself. -/
def filePlace? (files : FileSystem) (p : Path) : Option Place := do
  let name ← p.pieces.getLast?
  if p.hasNul || !Path.isName name then none
  else
    let dir ← files.tree.follow (files.start p) p.pieces.dropLast
    if files.tree.canWriteIn dir name then some (dir ++ [name]) else none

/-- Writes a file whose directory exists, over an earlier file of that name. -/
def write? (files : FileSystem) (p : Path) (content : ByteArray) : Option FileSystem :=
  (files.filePlace? p).map fun place =>
    { files with tree := FileTree.put (.fileWith (files.tree.accessAt place) content) place files.tree }

/-- Creates the missing directories above a file, then writes it. The flag says whether the file
was written. -/
def writeDeep (files : FileSystem) (p : Path) (content : ByteArray) : FileSystem × Bool :=
  let (files, isReady) := match p.parent? with
    | some above => files.makeDirs above
    | none => (files, true)
  if !isReady then (files, false)
  else match files.write? p content with
    | some written => (written, true)
    | none => (files, false)

/-! ## Listing files -/

/-- What is found at and below a path, each with the path extended to it. -/
def foundUnder (files : FileSystem) (root : Path) : List (Path × FileTree.Found) :=
  match files.find? root with
  | none => []
  | some tree =>
    (tree.walk true).map fun (place, found) =>
      (place.foldl (fun p name => p.join ⟨name⟩) root, found)

end FileSystem

end DependencyLint
