import DependencyLint.Coordinate
import DependencyLint.Path
import DependencyLint.Text.Keyword

/-!
# Modules of a build

A build consists of modules. A module declares its dependencies, on other modules and on libraries,
in configurations, and a configuration lists the libraries that the build resolved for it.
-/

namespace DependencyLint

/-- A dependency as declared: on a module, by its id, or on a library. -/
inductive Dependency where
  | onModule (id : String)
  | onLibrary (library : Coordinate)
deriving DecidableEq, Repr

def Dependency.moduleId? : Dependency → Option String
  | .onModule id => some id
  | .onLibrary _ => none

def Dependency.library? : Dependency → Option Coordinate
  | .onModule _ => none
  | .onLibrary library => some library

/-- A library that the build resolved: who asked for it and the files it consists of. -/
structure ResolvedLibrary where
  coordinate : Coordinate
  requestedBy : List String := []
  artifacts : List Path := []
deriving DecidableEq, Repr, Inhabited

def ResolvedLibrary.isRequestedBy (library : ResolvedLibrary) (requester : String) : Bool :=
  library.requestedBy.contains requester

/-- A named group of dependencies. -/
structure Configuration where
  name : String
  canBeResolved : Bool := false
  dependencies : List Dependency := []
  resolved : List ResolvedLibrary := []
deriving DecidableEq, Repr, Inhabited

namespace Configuration

def libraries (c : Configuration) : List Coordinate := c.dependencies.filterMap Dependency.library?

def moduleIds (c : Configuration) : List String := c.dependencies.filterMap Dependency.moduleId?

/-- The resolved libraries that `requester` asked for itself. -/
def directlyResolved (c : Configuration) (requester : String) : List ResolvedLibrary :=
  c.resolved.filter (·.isRequestedBy requester)

/-- Keywords of the configurations whose libraries are checked. -/
def acceptedKeywords : List String := ["runtimeclasspath", "compileclasspath", "implementation", "api"]

/-- Keywords of the configurations that are left out all the same. -/
def refusedKeywords : List String := ["annotationprocessor"]

/-- Whether the libraries of a configuration are checked. -/
def isAccepted (c : Configuration) : Bool :=
  c.canBeResolved &&
  !("DependenciesMetadata".toList.isSuffixOf c.name.toList) &&
  acceptedKeywords.any (Text.containsKeyword c.name) &&
  !refusedKeywords.any (Text.containsKeyword c.name)

/-- Whether a configuration belongs to the product rather than to its tests. -/
def isProduction (c : Configuration) : Bool := !Text.containsKeyword c.name "test"

end Configuration

/-- A module of the build. -/
structure BuildModule where
  id : String
  displayName : Option String := none
  group : String := ""
  name : String := ""
  version : String := ""
  directory : Path
  sourceRoots : List Path := [⟨"src"⟩]
  configurations : List Configuration := []
deriving DecidableEq, Repr, Inhabited

namespace BuildModule

/-- The name that a module goes by in messages. -/
def label (m : BuildModule) : String := m.displayName.getD m.id

/-- The name that a module goes by in the lists of requesters. -/
def fullName (m : BuildModule) : String := m.group ++ ":" ++ m.name ++ ":" ++ m.version

def sourceDirs (m : BuildModule) : List Path := m.sourceRoots.map m.directory.join

/-- The modules that production configurations declare, the module itself left out, each once in
the order of the first declaration. -/
def moduleDependencies (m : BuildModule) : List String :=
  (((m.configurations.filter (·.isProduction)).flatMap (·.moduleIds)).filter (· ≠ m.id)).eraseDups

end BuildModule

end DependencyLint
