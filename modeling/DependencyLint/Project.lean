import DependencyLint.Manifest
import DependencyLint.Settings

/-!
# Projects
-/

namespace DependencyLint

/-- What an analysis works on: a file system, the modules in it, and the settings. -/
structure Project where
  files : FileSystem
  manifest : Manifest
  settings : Settings

namespace Project

def modules (project : Project) : List BuildModule := project.manifest.modules

def find? (project : Project) (id : String) : Option BuildModule := project.manifest.find? id

def settingsFor (project : Project) (m : BuildModule) : ModuleSettings :=
  project.settings.forModule m.id

end Project

/-- A module that names another one which is not part of the build. -/
structure UnknownReference where
  module : String
  dependency : String
deriving DecidableEq, Repr

def UnknownReference.message (reference : UnknownReference) : String :=
  s!"dependency on unknown module module={reference.module} dependency={reference.dependency}"

/-- The references to unknown modules in production configurations, as often as they occur. -/
def Manifest.unknownReferences (manifest : Manifest) : List UnknownReference :=
  manifest.modules.flatMap fun m =>
    ((m.configurations.filter (·.isProduction)).flatMap (·.moduleIds)).filterMap fun id =>
      if id ≠ m.id && (manifest.find? id).isNone then some ⟨m.id, id⟩ else none

end DependencyLint
