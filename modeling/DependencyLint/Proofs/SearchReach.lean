import DependencyLint.Proofs.Names
import DependencyLint.Proofs.Replacements
import Mathlib.Data.List.Find
import Mathlib.Data.List.Flatten

/-!
# What the search reaches

**Theorem (`supplier_found_iff_below`).** In every session with an index, whatever its edges are, the
search for a supplier ends after at most one step for each dependency in the index and one for the
start. A module that it gives lies below the start, and one of its packages is the beginning of an
import. If it gives none, no package of any module below the start is the beginning of an import.
The packages of the start itself count only if the start lies below itself.

Each step takes a module off the stack. A module puts its dependencies on the stack the first time it
is taken off and never again, so what waits together with the dependencies of the modules that are
not yet searched (`openEdges`) gets fewer with every step. The search that is cut off after a number
of steps (`searchWithin`) has therefore ended by then.
-/

namespace DependencyLint

namespace ModuleIndex

variable {index : ModuleIndex} {imports : List String}

/-! ## How long the search takes -/

/-- The dependencies of the modules that have not been searched. -/
def openEdges (index : ModuleIndex) (visited : List String) : List ModuleEdge :=
  (index.unvisited visited).flatMap (·.2)

/-- The search, cut off after a number of modules that were taken off the stack; `none` if it has not
ended by then. -/
def searchWithin (index : ModuleIndex) (imports : List String) :
    Nat → List String → List String → Option (Option String)
  | _, _, [] => some none
  | 0, _, _ :: _ => none
  | steps + 1, visited, id :: waiting =>
    if visited.contains id then searchWithin index imports steps visited waiting
    else match index.edges.lookup id with
      | none => searchWithin index imports steps (id :: visited) waiting
      | some targets =>
        match targets.find? fun edge => index.supplies imports edge.id with
        | some supplier => some (some supplier.id)
        | none =>
          searchWithin index imports steps (id :: visited) (targets.map (·.id) ++ waiting)

theorem sublist_openEdges (index : ModuleIndex) (visited : List String) (id : String) :
    (index.openEdges (id :: visited)).Sublist (index.openEdges visited) := by
  refine (List.monotone_filter_right index.edges fun entry kept => ?_).flatMap _
  simp only [List.contains_cons, Bool.not_eq_true', Bool.or_eq_false_iff] at kept
  simp only [kept.2, Bool.not_false]

/-- A module that is searched takes its dependencies with it. -/
theorem length_openEdges_search {visited : List String} {id : String} {targets : List ModuleEdge}
    (hnew : id ∉ visited) (h : index.edges.lookup id = some targets) :
    targets.length + (index.openEdges (id :: visited)).length ≤ (index.openEdges visited).length := by
  obtain ⟨front, back, hedges, -⟩ := List.lookup_eq_some_iff.1 h
  have hfront := (sublist_openEdges ⟨front, []⟩ visited id).length_le
  have hback := (sublist_openEdges ⟨back, []⟩ visited id).length_le
  simp only [openEdges, unvisited, hedges, List.filter_append, List.flatMap_append, List.length_append,
    List.filter_cons] at hfront hback ⊢
  simp [hnew] at hfront hback ⊢
  omega

theorem exists_next_step {id : String} {waiting : List String} {edges : List ModuleEdge} {steps : Nat}
    (h : (id :: waiting).length + edges.length ≤ steps) :
    ∃ rest, steps = rest + 1 ∧ waiting.length + edges.length ≤ rest :=
  ⟨steps - 1, by simp at h; omega, by simp at h; omega⟩

/-- With a step for each waiting module and each open dependency the search comes to its end. -/
theorem searchWithin_eq {steps : Nat} {visited waiting : List String}
    (h : waiting.length + (index.openEdges visited).length ≤ steps) :
    searchWithin index imports steps visited waiting =
      some (searchFrom index imports visited waiting) := by
  fun_induction searchFrom index imports visited waiting generalizing steps with
  | case1 => rw [searchWithin]
  | case2 visited id waiting hv ih =>
    obtain ⟨steps, rfl, hsteps⟩ := exists_next_step h
    rw [searchWithin, if_pos hv]
    exact ih hsteps
  | case3 visited id waiting hv hl ih =>
    obtain ⟨steps, rfl, hsteps⟩ := exists_next_step h
    have hopen := (sublist_openEdges index visited id).length_le
    rw [searchWithin, if_neg hv]
    simp only [hl]
    exact ih (by omega)
  | case4 visited id waiting hv targets hl edge hfind =>
    obtain ⟨steps, rfl, -⟩ := exists_next_step h
    rw [searchWithin, if_neg hv]
    simp only [hl, hfind]
  | case5 visited id waiting hv targets hl hnone ih =>
    obtain ⟨steps, rfl, hsteps⟩ := exists_next_step h
    have hopen := length_openEdges_search (by simpa using hv) hl
    rw [searchWithin, if_neg hv]
    simp only [hl, hnone]
    exact ih (by simp only [List.length_append, List.length_map]; omega)

/-- The search ends after at most one step for each dependency in the index and one for the start. -/
theorem searchWithin_start (index : ModuleIndex) (imports : List String) (start : String) :
    searchWithin index imports ((index.edges.flatMap (·.2)).length + 1) [] [start] =
      some (index.findSupplier imports start) := by
  refine searchWithin_eq ?_
  simp [openEdges, unvisited]
  omega

/-! ## Packages that count -/

/-- Only the packages of the modules below the start count. -/
theorem findSupplier_congr_below {other : ModuleIndex} {start : String}
    (hedges : other.edges = index.edges)
    (hpackages : ∀ id, index.Below start id → other.packagesFor id = index.packagesFor id) :
    other.findSupplier imports start = index.findSupplier imports start := by
  have horder : other.searchOrder start = index.searchOrder start :=
    searchOrderFrom_congr hedges [] [start]
  have hsupplies : ∀ id ∈ index.searchOrder start,
      other.supplies imports id = index.supplies imports id := by
    intro id hid
    rw [supplies, supplies, hpackages id (mem_searchOrder.1 hid)]
  rw [findSupplier_eq_find?, findSupplier_eq_find?, horder, List.find?_congr hsupplies]

/-- A package of the module is the beginning of one of the imports. -/
def IsImported (index : ModuleIndex) (imports : List String) (id : String) : Prop :=
  ∃ package ∈ index.packagesFor id, ∃ name ∈ imports, package.toList <+: name.toList

theorem supplies_iff_isImported {id : String} :
    index.supplies imports id = true ↔ index.IsImported imports id :=
  importsAnyPackage_iff

end ModuleIndex

open ModuleIndex

/-- **The search ends, and what it gives is sound and complete,** for every index, with cycles, with
edges to unknown modules, and wherever it starts. -/
theorem supplier_found_iff_below (project : Project) {session : Session} {index : ModuleIndex}
    (hindex : session.index = some index) (start : String) (imports : List String) :
    ∃ answer,
      (Query.findSupplier start imports).answer project session = (.ok answer, session) ∧
      index.searchWithin imports ((index.edges.flatMap (·.2)).length + 1) [] [start] =
        some answer ∧
      (∀ r, answer = some r → index.Below start r ∧ index.IsImported imports r) ∧
      (answer = none → ∀ r, index.Below start r → ¬index.IsImported imports r) ∧
      (¬index.Below start start → ∀ other : ModuleIndex, other.edges = index.edges →
        (∀ id, id ≠ start → other.packagesFor id = index.packagesFor id) →
        other.findSupplier imports start = answer) := by
  refine ⟨index.findSupplier imports start, ?_, searchWithin_start index imports start, ?_, ?_, ?_⟩
  · simp [Query.findSupplier, Query.index, hindex]
  · intro r hr
    rw [← supplies_iff_isImported]
    exact findSupplier_sound hr
  · intro hnone r hr
    rw [← supplies_iff_isImported, findSupplier_complete hnone hr]
    simp
  · intro hstart other hedges hpackages
    refine findSupplier_congr_below hedges fun id hid => hpackages id ?_
    rintro rfl
    exact hstart hid

/-! ## A module below itself -/

namespace Loop

/-- The module `a` lies below itself, and `x` leads into the cycle. The module `gone` is unknown. -/
def index : ModuleIndex where
  edges := [("a", [⟨"gone", ⟨""⟩⟩, ⟨"b", ⟨"b"⟩⟩]), ("b", [⟨"a", ⟨"a"⟩⟩]), ("x", [⟨"a", ⟨"a"⟩⟩])]
  packages := [("a", ["a"]), ("b", ["b"]), ("x", ["x"])]

def project : Project := ⟨.empty, {}, {}⟩

def session : Session := { index := some index }

end Loop

open Loop in
theorem packages_of_start_count_in_cycle :
    (Query.findSupplier "a" ["a.Main"]).answer project session = (.ok (some "a"), session) ∧
      index.Below "a" "a" ∧
      (Query.findSupplier "x" ["x.Main"]).answer project session = (.ok none, session) ∧
      ¬index.Below "x" "x" := by
  obtain ⟨found, hfound, hends, hsound, -⟩ :=
    supplier_found_iff_below project (rfl : session.index = some index) "a" ["a.Main"]
  obtain ⟨nothing, hnothing, hends', -, hcomplete, -⟩ :=
    supplier_found_iff_below project (rfl : session.index = some index) "x" ["x.Main"]
  have hfound' : found = some "a" := Option.some.inj (hends.symm.trans (by decide))
  have hnothing' : nothing = none := Option.some.inj (hends'.symm.trans (by decide))
  subst hfound' hnothing'
  refine ⟨hfound, (hsound "a" rfl).1, hnothing, fun hx => hcomplete rfl "x" hx ?_⟩
  exact supplies_iff_isImported.1 (by decide)

end DependencyLint
