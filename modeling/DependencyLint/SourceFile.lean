import DependencyLint.FileSystem
import DependencyLint.Glob
import DependencyLint.Source
import DependencyLint.BuildModule

/-!
# Source files of a module
-/

namespace DependencyLint

/-- A source file with what was found in it. -/
structure SourceFile where
  path : Path
  name : String
  language : Language
  text : String
  imports : List String
  package : String
deriving DecidableEq, Repr

/-- Whether a pattern matches a path. It matches none that is not UTF-8. -/
def Glob.isMatchOf (glob : Glob) (path : Path) : Bool := path.raw.text?.any glob.isMatch

namespace SourceFile

/-- Reads a source file. Bytes that are not UTF-8 become replacement characters. -/
def ofBytes (path : Path) (language : Language) (bytes : ByteArray) : SourceFile :=
  let text := Text.Utf8.lossy bytes
  { path, name := (path.fileName?.map RawText.shown).getD "", language, text
    imports := Source.imports language text
    package := Source.package language text }

/-- The language of the file at a path. A name that is not UTF-8 is not the name of a source file. -/
def languageOf? (path : Path) : Option Language :=
  (path.fileName?.bind RawText.text?).bind Language.ofFileName?

/-- Whether a file is left out: a pattern matches its path, or its path within the module. -/
def isExcluded (exclude : List Glob) (directory path : Path) : Bool :=
  exclude.any fun glob =>
    glob.isMatchOf ((directory.stripDir? path).getD path) || glob.isMatchOf path

/-- The source file in what was found at a path, if there is one, or the path that could not be
read. Files that are left out are not read. -/
def ofFound (exclude : List Glob) (directory path : Path) :
    FileTree.Found → Except Path (Option SourceFile)
  | .closed => .error path
  | .file content =>
    match languageOf? path with
    | none => .ok none
    | some language =>
      if isExcluded exclude directory path then .ok none
      else match content with
        | some bytes => .ok (some (ofBytes path language bytes))
        | none => .error path

/-- The source files of a module, root by root, or the first path that could not be read. -/
def ofModule (files : FileSystem) (exclude : List Glob) (m : BuildModule) :
    Except Path (List SourceFile) := do
  let sources ← (m.sourceDirs.flatMap files.foundUnder).mapM fun (path, found) =>
    ofFound exclude m.directory path found
  pure (sources.filterMap id)

end SourceFile

/-- What a check sees of a source file. -/
structure SourceSummary where
  name : String
  text : String
  imports : List String
deriving DecidableEq, Repr

/-- What a check sees of a module. -/
structure ModuleSummary where
  name : String
  sources : List SourceSummary
deriving DecidableEq, Repr

def SourceFile.summary (file : SourceFile) : SourceSummary := ⟨file.name, file.text, file.imports⟩

end DependencyLint
