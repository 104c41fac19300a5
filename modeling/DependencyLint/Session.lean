import DependencyLint.ModuleIndex
import DependencyLint.Project
import DependencyLint.Resolution

/-!
# Sessions

A session answers queries about the modules of a project and keeps what it has found, so that no
file is read twice. Most queries need the index of the modules, which is built once.
-/

namespace DependencyLint

/-- What has been found so far. Classes are kept by the coordinate of their library, all else by the
id of the module. -/
structure Session where
  exclude : List Glob := []
  index : Option ModuleIndex := none
  sources : List (String × List SourceFile) := []
  imports : List (String × List String) := []
  libraries : List (String × List DeclaredLibrary) := []
  contents : List (String × List LibraryContent) := []
  classes : List (String × List String) := []

/-- A query about a project. What was found before a failure is kept. -/
abbrev Query (α : Type) := ReaderT Project (ExceptT Failure (StateM Session)) α

namespace Query

/-- The answer to a query, and the session after it. -/
def answer {α : Type} (query : Query α) (project : Project) (session : Session) :
    Except Failure α × Session :=
  (query.run project).run.run session

def ofExcept {α : Type} : Except Failure α → Query α
  | .ok value => pure value
  | .error failure => throw failure

/-- The index, which has to be there. -/
def index : Query ModuleIndex := do
  match (← get).index with
  | some index => pure index
  | none => throw .uninitialized

/-- The source files of a module, with or without an index. -/
def loadSources (m : BuildModule) : Query (List SourceFile) := do
  match (← get).sources.lookup m.id with
  | some found => pure found
  | none =>
    let found ← ofExcept
      ((SourceFile.ofModule (← read).files (← get).exclude m).mapError .sourceRead)
    modify fun session => { session with sources := (m.id, found) :: session.sources }
    pure found

/-- Builds the index, if there is none yet. -/
def buildIndex : Query Unit := do
  if (← get).index.isNone then
    let project ← read
    let exclude ← ofExcept (project.settings.excludeGlobs.mapError .badPattern)
    modify fun session => { session with exclude }
    let sources ← project.modules.mapM fun m => do
      let files ← loadSources m
      pure (m, files)
    modify fun session =>
      { session with index := some (ModuleIndex.ofSources project.manifest sources) }

/-- The module dependencies of a module, by its id. -/
def moduleDependencies (id : String) : Query (List ModuleEdge) := do
  pure ((← index).dependencies id)

/-- The packages of a module, by its id. -/
def modulePackages (id : String) : Query (List String) := do
  pure ((← index).packagesFor id)

/-- The modules that a module depends on, as far as they are part of the build. -/
def dependencyModules (m : BuildModule) : Query (List BuildModule) := do
  let edges ← moduleDependencies m.id
  let project ← read
  pure (edges.filterMap fun edge => project.find? edge.id)

/-- The first module below `start` whose packages are imported. -/
def findSupplier (start : String) (imports : List String) : Query (Option String) := do
  pure ((← index).findSupplier imports start)

def sourceFiles (m : BuildModule) : Query (List SourceFile) := do
  let _ ← index
  loadSources m

/-- What the source files of a module import, each name once. -/
def sourceImports (m : BuildModule) : Query (List String) := do
  match (← get).imports.lookup m.id with
  | some found => pure found
  | none =>
    let files ← sourceFiles m
    let found := (files.flatMap (·.imports)).eraseDups
    modify fun session => { session with imports := (m.id, found) :: session.imports }
    pure found

/-- What a check sees of a module. -/
def summary (m : BuildModule) : Query ModuleSummary := do
  let files ← sourceFiles m
  pure ⟨m.label, files.map SourceFile.summary⟩

/-- The libraries of a module that are checked. -/
def libraries (m : BuildModule) : Query (List DeclaredLibrary) := do
  let _ ← index
  match (← get).libraries.lookup m.id with
  | some found => pure found
  | none =>
    let found ← ofExcept (m.checkedLibraries ((← read).settingsFor m))
    modify fun session => { session with libraries := (m.id, found) :: session.libraries }
    pure found

/-- The classes of a library. -/
def libraryClasses (library : ResolvedLibrary) : Query (List String) := do
  let key := library.coordinate.render
  match (← get).classes.lookup key with
  | some found => pure found
  | none =>
    let found ← ofExcept (library.classes (← read).files)
    modify fun session => { session with classes := (key, found) :: session.classes }
    pure found

/-- The libraries of a module with their classes. -/
def libraryContents (m : BuildModule) : Query (List LibraryContent) := do
  match (← get).contents.lookup m.id with
  | some found => pure found
  | none =>
    let found ← (← libraries m).mapM fun library => do
      let classes ← libraryClasses library.resolved
      pure ⟨library.fullName, library.declared, classes⟩
    modify fun session => { session with contents := (m.id, found) :: session.contents }
    pure found

end Query

end DependencyLint
