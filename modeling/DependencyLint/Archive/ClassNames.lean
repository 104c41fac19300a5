import DependencyLint.Archive.Zip
import DependencyLint.FileSystem
import DependencyLint.Text.Sorted

/-!
# Classes in archives

A library file is a zip archive of class files. The archive may hold another one, `classes.jar`,
with more of them, and that one again; the chain is followed four levels down.
-/

namespace DependencyLint.Archive

/-- Why the classes of a library file cannot be listed: its data cannot be had, or it is no archive
that can be read. -/
inductive Fault where
  | unreadable
  | malformed
deriving DecidableEq, Repr

def archiveExtensions : List String := [".jar", ".aar"]

/-- Whether a path is the path of an archive, by the end of its file name. -/
def isArchive (p : Path) : Bool :=
  match p.fileName?.bind RawText.text? with
  | some name => archiveExtensions.any fun ext => ext.toList.isSuffixOf name.toList
  | none => false

/-- The name of the class in an entry: the entry's name without `.class` and with dots for the
slashes. -/
def classSymbol? (entryName : String) : Option String :=
  if ".class".toList.isSuffixOf entryName.toList then
    some (String.ofList ((entryName.toList.take (entryName.toList.length - 6)).map fun c =>
      if c = '/' then '.' else c))
  else none

def nestedName : String := "classes.jar"

/-- How many archives may lie inside one another below the outermost one. -/
def maxNesting : Nat := 4

/-- The class names that an entry contributes; `nested` gives those of an inner archive. -/
def entryClassNames (bytes : ByteArray) (nested : Entry → Except Fault (List String))
    (entry : Entry) : Except Fault (List String) :=
  if !entry.isLocated bytes then .error .malformed
  else if entry.isDirectory then .ok []
  else match classSymbol? entry.name with
    | some symbol => .ok [symbol]
    | none => if entry.name = nestedName then nested entry else .ok []

/-- The class names of an archive and of `depth` archives inside it. -/
def classNamesIn : Nat → ByteArray → Except Fault (List String)
  | depth, bytes =>
    match entries? bytes with
    | none => .error .malformed
    | some entries => do
      let found ← entries.mapM (entryClassNames bytes fun entry =>
        match depth with
        | 0 => .ok []
        | depth + 1 =>
          match entry.data? bytes with
          | none => .error .unreadable
          | some data => classNamesIn depth data)
      pure found.flatten

/-- The classes of a library file, in the order of their names. A file that is no archive by its
name has none. -/
def classNames (files : FileSystem) (p : Path) : Except Fault (List String) :=
  if !isArchive p then .ok []
  else match files.find? p with
    | none => .error .unreadable
    | some (.dirWith access _) => .error (if access.read then .malformed else .unreadable)
    | some (.fileWith access content) =>
      if access.read then (classNamesIn maxNesting content).map Text.sortedNames
      else .error .unreadable

end DependencyLint.Archive
