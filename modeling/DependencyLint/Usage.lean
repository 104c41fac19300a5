/-!
# Signs of use

Whether the imports of a module show that it uses another module or a library.
-/

namespace DependencyLint

/-- Whether one of the imports starts with one of the packages. -/
def importsAnyPackage (packages imports : List String) : Bool :=
  packages.any fun package => imports.any fun name => package.toList.isPrefixOf name.toList

/-- The part of a dotted name up to its last dot, or all of a name without a dot. -/
def packagePrefix (name : String) : String :=
  match name.toList.reverse.dropWhile (· ≠ '.') with
  | [] => name
  | reversed => String.ofList reversed.reverse

/-- Whether the imports use a library with the given classes: they name one of the classes, or
something else in the package of one. -/
def usesLibrary (imports classes : List String) : Bool :=
  let packages := imports.map packagePrefix
  imports.any classes.contains || classes.any fun name => packages.contains (packagePrefix name)

end DependencyLint
