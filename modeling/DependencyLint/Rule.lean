import DependencyLint.CustomCheck
import DependencyLint.Finding
import DependencyLint.Session

/-!
# Rules

What is reported about the dependencies of a module.
-/

namespace DependencyLint

/-- A rule. -/
inductive Rule where
  /-- A module dependency with no imported package. -/
  | unusedModules
  /-- A library with no imported class. -/
  | unusedLibraries
  /-- A library that a check has a message for. -/
  | custom (check : CustomCheck)

namespace Rule

def code : Rule → String
  | unusedModules => "DS001"
  | unusedLibraries => "DS002"
  | custom _ => "DS100"

def name : Rule → String
  | unusedModules => "unused-module-dependency"
  | unusedLibraries => "unused-library-dependency"
  | custom _ => "custom-check"

def description : Rule → String
  | unusedModules => "Detects module dependencies whose packages are never imported"
  | unusedLibraries => "Detects external libraries whose classes are never imported"
  | custom _ => "Runs a user-supplied check against each external library"

/-- A finding of a rule about a dependency of a module. -/
def finding (rule : Rule) (m : BuildModule) (dependency : String) (kind : FindingKind) : Finding :=
  ⟨rule.code, rule.name, m.label, dependency, kind⟩

/-- What is wrong with a module dependency that is not used: a module below it may supply what is
imported. -/
def unusedModuleKind (imports : List String) (id : String) : Query FindingKind := do
  match ← Query.findSupplier id imports with
  | some replacement => pure (.replaceableModule replacement)
  | none => pure .unusedModule

def checkModules (m : BuildModule) : Query (List Finding) := do
  let edges ← Query.moduleDependencies m.id
  if edges.isEmpty then pure []
  else
    let settings := (← read).settingsFor m
    let imports ← Query.sourceImports m
    let found ← edges.mapM fun edge => do
      let packages ← Query.modulePackages edge.id
      if importsAnyPackage packages imports || settings.isIgnored edge.id then pure none
      else
        let kind ← unusedModuleKind imports edge.id
        pure (some (unusedModules.finding m edge.id kind))
    pure (found.filterMap id)

def checkLibraries (m : BuildModule) : Query (List Finding) := do
  let libraries ← Query.libraryContents m
  if libraries.isEmpty then pure []
  else
    let own ← Query.sourceImports m
    let others ← (← Query.dependencyModules m).mapM Query.sourceImports
    let imports := own ++ others.flatten
    let unused := libraries.filter fun library => !usesLibrary imports library.classes
    pure (unused.map fun library => unusedLibraries.finding m library.fullName .unusedLibrary)

def checkCustom (check : CustomCheck) (m : BuildModule) : Query (List Finding) := do
  let libraries ← Query.libraryContents m
  if libraries.isEmpty then pure []
  else
    let summary ← Query.summary m
    pure (libraries.filterMap fun library =>
      let message := check.evaluate summary library
      if message = "" then none
      else some ((custom check).finding m library.fullName (.customCheck message)))

/-- The findings of a rule about a module. -/
def check : Rule → BuildModule → Query (List Finding)
  | unusedModules, m => checkModules m
  | unusedLibraries, m => checkLibraries m
  | custom check, m => checkCustom check m

/-- The rules of a project: the two fixed ones, the checks in its settings, and further checks. -/
def defaults (settings : Settings) (extra : List CustomCheck) : Except PatternError (List Rule) := do
  let checks ← settings.checks.mapM CustomCheck.ofSettings
  pure ([unusedModules, unusedLibraries] ++ checks.map custom ++ extra.map custom)

/-- One rule of each kind. -/
def all : List Rule := [unusedModules, unusedLibraries, custom ⟨"custom-check", fun _ _ => ""⟩]

/-- Whether a rule goes by one of the names, be it its name or its code. -/
def isNamedIn (rule : Rule) (names : List String) : Bool :=
  names.contains rule.name || names.contains rule.code

end Rule

end DependencyLint
