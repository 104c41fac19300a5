/-!
# Sorted names
-/

namespace DependencyLint.Text

/-- The names of a list in ascending order, each once. -/
def sortedNames (names : List String) : List String :=
  (names.mergeSort fun a b => a ≤ b).foldr
    (fun name kept => if kept.head? = some name then kept else name :: kept) []

end DependencyLint.Text
