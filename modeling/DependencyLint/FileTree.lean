import DependencyLint.Path

/-!
# File trees

A file tree is a file or a directory of named trees. A place in it is the list of names that leads
there from the root. Each file and each directory has its access, which says what may be done with
it; nothing that is not allowed is done in part.
-/

namespace DependencyLint

/-- What may be done with a file or a directory. -/
structure Access where
  /-- Reading the bytes of a file, or listing the entries of a directory. -/
  read : Bool := true
  /-- Writing a file, or making new entries in a directory. -/
  write : Bool := true
  /-- Reaching the entries of a directory by their names. -/
  search : Bool := true
deriving DecidableEq, Repr

/-- A file with its bytes, or a directory with its entries. -/
inductive FileTree where
  | fileWith (access : Access) (content : ByteArray)
  | dirWith (access : Access) (entries : List (RawText × FileTree))

/-- The names that lead to a file or a directory. -/
abbrev Place := List RawText

namespace FileTree

/-- A file with which everything may be done. -/
abbrev file (content : ByteArray) : FileTree := .fileWith {} content

/-- A directory with which everything may be done. -/
abbrev dir (entries : List (RawText × FileTree)) : FileTree := .dirWith {} entries

/-- The tree of an empty directory. -/
def empty : FileTree := .dir []

instance : Inhabited FileTree := ⟨empty⟩

def isDir : FileTree → Bool
  | .dirWith .. => true
  | .fileWith .. => false

/-- A directory whose entries can be reached. -/
def isOpen : FileTree → Bool
  | .dirWith access _ => access.search
  | .fileWith .. => false

/-- A directory in which entries can be made. -/
def isExtensible : FileTree → Bool
  | .dirWith access _ => access.search && access.write
  | .fileWith .. => false

def child? (name : RawText) : FileTree → Option FileTree
  | .dirWith _ entries => (entries.find? (·.1 = name)).map (·.2)
  | .fileWith .. => none

/-- What stands at a place. -/
def at? : Place → FileTree → Option FileTree
  | [], tree => some tree
  | name :: place, tree => (tree.child? name).bind (at? place)

def isDirAt (place : Place) (tree : FileTree) : Bool := (tree.at? place).any isDir

def isOpenAt (place : Place) (tree : FileTree) : Bool := (tree.at? place).any isOpen

def isExtensibleAt (place : Place) (tree : FileTree) : Bool := (tree.at? place).any isExtensible

/-! ## Following paths -/

/-- Where a piece of a path leads from the place `here`. The directory above the root is the root. -/
def step? (tree : FileTree) (here : Place) (piece : RawText) : Option Place :=
  if piece = "" then
    if tree.isDirAt here then some here else none
  else if !tree.isOpenAt here then none
  else if piece = "." then some here
  else if piece = ".." then some here.dropLast
  else if (tree.at? (here ++ [piece])).isSome then some (here ++ [piece])
  else none

/-- Follows the pieces of a path from the place `here`. -/
def follow (tree : FileTree) (here : Place) : List RawText → Option Place
  | [] => some here
  | piece :: pieces => (tree.step? here piece).bind fun next => tree.follow next pieces

/-! ## Changing a tree -/

/-- Puts `new` at a place, with directories above it where there are none. A file that stands in
the way stays. -/
def put (new : FileTree) : Place → FileTree → FileTree
  | [], _ => new
  | _ :: _, .fileWith access content => .fileWith access content
  | name :: place, .dirWith access entries =>
    if entries.any (·.1 = name) then
      .dirWith access (entries.map fun entry =>
        (entry.1, if entry.1 = name then put new place entry.2 else entry.2))
    else .dirWith access (entries ++ [(name, put new place empty)])

/-- Takes away what stands at a place. -/
def removeAt : Place → FileTree → FileTree
  | [], tree => tree
  | _ :: _, .fileWith access content => .fileWith access content
  | [name], .dirWith access entries => .dirWith access (entries.filter (·.1 ≠ name))
  | name :: place, .dirWith access entries =>
    .dirWith access (entries.map fun entry =>
      (entry.1, if entry.1 = name then removeAt place entry.2 else entry.2))

/-- Follows the pieces of a path from the place `here` and creates the directories that are missing.
The flag says whether every piece led to a directory. -/
def makeDirsFrom (tree : FileTree) (here : Place) : List RawText → FileTree × Bool
  | [] => (tree, true)
  | piece :: pieces =>
    match tree.step? here piece with
    | some next => if tree.isDirAt next then tree.makeDirsFrom next pieces else (tree, false)
    | none =>
      -- an open directory only lacks names
      if tree.isExtensibleAt here then
        (put empty (here ++ [piece]) tree).makeDirsFrom (here ++ [piece]) pieces
      else (tree, false)

/-- Whether the file `name` of a directory can be written, over an earlier one or as a new one. -/
def canWriteIn (tree : FileTree) (dir : Place) (name : RawText) : Bool :=
  match tree.at? (dir ++ [name]) with
  | some (.fileWith access _) => tree.isOpenAt dir && access.write
  | some (.dirWith ..) => false
  | none => tree.isExtensibleAt dir

/-- The access to a file that is written: that of the earlier file, if there is one. -/
def accessAt (tree : FileTree) (place : Place) : Access :=
  match tree.at? place with
  | some (.fileWith access _) => access
  | _ => {}

/-! ## Walking through a tree -/

/-- What a walk comes upon: a file, whose bytes may be out of reach, or a directory that cannot be
listed. -/
inductive Found where
  | file (content : Option ByteArray)
  | closed

mutual

/-- The files of a tree with their places in it: a directory's entries in the order of their names,
each with all that is below it. The flag says whether all directories above the tree are open. -/
def walk (isReached : Bool) : FileTree → List (Place × Found)
  | .fileWith access content =>
    [([], .file (if isReached && access.read then some content else none))]
  | .dirWith access entries =>
    if isReached && access.read then
      ((walkEntries access.search entries).mergeSort fun a b => !b.1.precedes a.1).flatMap
        fun (name, found) => found.map fun (place, what) => (name :: place, what)
    else [([], .closed)]

/-- What a walk comes upon below each entry of a directory. -/
def walkEntries (isReached : Bool) :
    List (RawText × FileTree) → List (RawText × List (Place × Found))
  | [] => []
  | (name, tree) :: entries => (name, walk isReached tree) :: walkEntries isReached entries

end

end FileTree

end DependencyLint
