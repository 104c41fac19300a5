import DependencyLint.Archive.ClassNames
import DependencyLint.Coordinate
import DependencyLint.Settings

/-!
# Failures of an analysis

What stops an analysis, each with a message, a code and sometimes advice.
-/

namespace DependencyLint

/-- Why an analysis could not go on. -/
inductive Failure where
  /-- The modules have not been indexed yet. -/
  | uninitialized
  /-- A declared library is not one of the resolved libraries, or could be several of them. -/
  | ambiguous (module : String) (declared : Coordinate) (candidates : List Coordinate)
  /-- A file of a library could not be read. -/
  | archive (path : Path) (fault : Archive.Fault)
  /-- A source file, or a directory of source files, could not be read. -/
  | sourceRead (path : Path)
  /-- A pattern of the settings is not a glob. -/
  | badPattern (error : PatternError)
deriving DecidableEq, Repr

namespace Failure

def message : Failure → String
  | uninitialized => "dependency graph queried before initialization"
  | ambiguous module declared candidates =>
    "cannot resolve " ++ declared.render ++ " declared by " ++ module ++ ": candidates [" ++
      ", ".intercalate (candidates.map Coordinate.render) ++ "]"
  | archive path _ => "failed to index artifact " ++ path.text
  | sourceRead path => "failed to read sources at " ++ path.text
  | badPattern error => error.message

def code : Failure → String
  | uninitialized => "dep_seeker::uninitialized"
  | ambiguous .. => "dep_seeker::ambiguous_resolution"
  | archive .. => "dep_seeker::archive"
  | sourceRead _ => "dep_seeker::source_read"
  | badPattern _ => "dep_seeker::config"

def help? : Failure → Option String
  | uninitialized => some "call `DependencyGraph::initialize` once before analyzing modules"
  | ambiguous .. => some ("declare the exact version selected by the build, or add the library to " ++
      "`ignored_dependencies`")
  | _ => none

end Failure

end DependencyLint
