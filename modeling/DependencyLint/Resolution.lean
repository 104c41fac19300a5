import DependencyLint.Failure
import DependencyLint.Library

/-!
# Resolution of declared libraries

Which of the resolved libraries a declared library is, and the list of all libraries of a module.
-/

namespace DependencyLint

/-- The resolved library for a declared one: the same coordinate if there is one, else the only one
of another version. -/
def matchResolved (id : String) (direct : List ResolvedLibrary) (declared : Coordinate) :
    Except Failure ResolvedLibrary :=
  match direct.find? (·.coordinate = declared) with
  | some exact => .ok exact
  | none =>
    match direct.filter (·.coordinate.sameModule declared) with
    | [only] => .ok only
    | candidates => .error (.ambiguous id declared (candidates.map (·.coordinate)))

/-- Adds files to a list, without those that are in it already. -/
def addArtifacts (artifacts more : List Path) : List Path :=
  more.foldl (fun known path => if known.any path.same then known else known ++ [path]) artifacts

/-- Adds a library to a list. If it is in the list already, only its files are added. -/
def addLibrary (libraries : List DeclaredLibrary) (new : DeclaredLibrary) : List DeclaredLibrary :=
  if libraries.any (·.resolved.coordinate = new.resolved.coordinate) then
    libraries.map fun library =>
      if library.resolved.coordinate = new.resolved.coordinate then
        { library with
          resolved.artifacts := addArtifacts library.resolved.artifacts new.resolved.artifacts }
      else library
  else libraries ++ [new]

namespace BuildModule

/-- The libraries that a configuration of a module declares, with what was resolved for them. -/
def selections (m : BuildModule) (c : Configuration) : Except Failure (List DeclaredLibrary) :=
  c.libraries.mapM fun declared =>
    (DeclaredLibrary.mk declared) <$> matchResolved m.id (c.directlyResolved m.fullName) declared

/-- The libraries of a module in the configurations that are checked, each once. -/
def resolvedLibraries (m : BuildModule) : Except Failure (List DeclaredLibrary) := do
  let selected ← (m.configurations.filter (·.isAccepted)).mapM m.selections
  pure (selected.flatten.foldl addLibrary [])

/-- The libraries of a module without the ignored ones. -/
def checkedLibraries (m : BuildModule) (settings : ModuleSettings) :
    Except Failure (List DeclaredLibrary) :=
  m.resolvedLibraries.map (·.filter fun library => !settings.isIgnored library.fullName)

end BuildModule

/-- The classes in the files of a library. -/
def ResolvedLibrary.classes (files : FileSystem) (library : ResolvedLibrary) :
    Except Failure (List String) := do
  let found ← library.artifacts.mapM fun path =>
    (Archive.classNames files path).mapError (Failure.archive path)
  pure (Text.sortedNames found.flatten)

end DependencyLint
