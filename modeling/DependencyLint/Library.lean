import DependencyLint.BuildModule

/-!
# Libraries of a module
-/

namespace DependencyLint

/-- A library that a module declares, with what the build resolved for it. -/
structure DeclaredLibrary where
  declared : Coordinate
  resolved : ResolvedLibrary
deriving DecidableEq, Repr, Inhabited

def DeclaredLibrary.fullName (library : DeclaredLibrary) : String := library.resolved.coordinate.render

/-- A library with the classes in it. -/
structure LibraryContent where
  fullName : String
  declared : Coordinate
  classes : List String
deriving DecidableEq, Repr, Inhabited

end DependencyLint
