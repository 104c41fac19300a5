import DependencyLint.Manifest
import DependencyLint.SourceFile
import DependencyLint.Text.Sorted
import DependencyLint.Usage

/-!
# Index of modules

Which modules a module depends on and which packages it has, for every module of a build, and the
search for a module further down that supplies what is imported.
-/

namespace DependencyLint

/-- A dependency on a module, with the directory of that module if it is known. -/
structure ModuleEdge where
  id : String
  locator : Path
deriving DecidableEq, Repr, Inhabited

/-- The edges and packages of the modules of a build, by their ids. -/
structure ModuleIndex where
  edges : List (String × List ModuleEdge) := []
  packages : List (String × List String) := []
deriving DecidableEq, Repr, Inhabited

namespace ModuleIndex

/-- The module dependencies of a module. -/
def edgesOf (manifest : Manifest) (m : BuildModule) : List ModuleEdge :=
  m.moduleDependencies.map fun id => ⟨id, ((manifest.find? id).map (·.directory)).getD ⟨""⟩⟩

/-- The packages that source files belong to. -/
def packagesOf (files : List SourceFile) : List String :=
  Text.sortedNames ((files.map (·.package)).filter (· ≠ ""))

/-- The index of modules with their source files. -/
def ofSources (manifest : Manifest) (sources : List (BuildModule × List SourceFile)) : ModuleIndex where
  edges := sources.map fun (m, _) => (m.id, edgesOf manifest m)
  packages := sources.map fun (m, files) => (m.id, packagesOf files)

def dependencies (index : ModuleIndex) (id : String) : List ModuleEdge :=
  (index.edges.lookup id).getD []

def packagesFor (index : ModuleIndex) (id : String) : List String :=
  (index.packages.lookup id).getD []

/-- Whether something is imported from the packages of a module. -/
def supplies (index : ModuleIndex) (imports : List String) (id : String) : Bool :=
  importsAnyPackage (index.packagesFor id) imports

/-! ## Search -/

/-- The indexed modules that have not been visited. -/
def unvisited (index : ModuleIndex) (visited : List String) : List (String × List ModuleEdge) :=
  index.edges.filter fun entry => !visited.contains entry.1

theorem length_unvisited_cons_le (edges : List (String × List ModuleEdge)) (visited : List String)
    (id : String) :
    (edges.filter fun entry => !(id :: visited).contains entry.1).length ≤
      (edges.filter fun entry => !visited.contains entry.1).length := by
  rw [← List.countP_eq_length_filter, ← List.countP_eq_length_filter]
  refine List.countP_mono_left fun entry _ kept => ?_
  simp only [List.contains_cons, Bool.not_eq_true', Bool.or_eq_false_iff] at kept
  simp only [kept.2, Bool.not_false]

theorem length_unvisited_cons_lt {edges : List (String × List ModuleEdge)} {visited : List String}
    {id : String} {found : List ModuleEdge} (new : ¬visited.contains id)
    (h : edges.lookup id = some found) :
    (edges.filter fun entry => !(id :: visited).contains entry.1).length <
      (edges.filter fun entry => !visited.contains entry.1).length := by
  induction edges with
  | nil => simp at h
  | cons entry rest ih =>
    obtain ⟨key, targets⟩ := entry
    by_cases same : id = key
    · subst same
      have before : visited.contains id = false := by simpa using new
      simp only [List.filter_cons, List.contains_cons, BEq.rfl, Bool.true_or, Bool.not_true, before,
        Bool.not_false, if_true, Bool.false_eq_true, if_false, List.length_cons]
      exact Nat.lt_succ_of_le (length_unvisited_cons_le rest visited id)
    · have later := ih (by simpa [List.lookup_cons, beq_false_of_ne same] using h)
      have apart : (key == id) = false := beq_false_of_ne (Ne.symm same)
      simp only [List.filter_cons, List.contains_cons, apart, Bool.false_or]
      split
      · exact Nat.succ_lt_succ later
      · exact later

/-- Searches the modules on the stack, and what is below them, for one with a direct dependency that
supplies the imports. The dependencies of a module are put in front of the modules that were already
waiting, and no module is searched twice. -/
def searchFrom (index : ModuleIndex) (imports : List String) (visited : List String) :
    List String → Option String
  | [] => none
  | id :: waiting =>
    if visited.contains id then searchFrom index imports visited waiting
    else match _found : index.edges.lookup id with
      | none => searchFrom index imports (id :: visited) waiting
      | some targets =>
        match targets.find? fun edge => index.supplies imports edge.id with
        | some supplier => some supplier.id
        | none => searchFrom index imports (id :: visited) (targets.map (·.id) ++ waiting)
termination_by waiting => ((index.unvisited visited).length, waiting.length)
decreasing_by
  · exact Prod.Lex.right _ (Nat.lt_succ_self _)
  · rcases Nat.lt_or_eq_of_le (length_unvisited_cons_le index.edges visited id) with less | same
    · exact Prod.Lex.left _ _ less
    · unfold unvisited
      rw [same]
      exact Prod.Lex.right _ (Nat.lt_succ_self _)
  · rename_i new
    exact Prod.Lex.left _ _ (length_unvisited_cons_lt new _found)

/-- The first module below `start` whose packages are imported. Direct dependencies of a module come
before what is further below. -/
def findSupplier (index : ModuleIndex) (imports : List String) (start : String) : Option String :=
  searchFrom index imports [] [start]

end ModuleIndex

end DependencyLint
