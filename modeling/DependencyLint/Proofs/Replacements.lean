import DependencyLint.Proofs.UnusedModules

/-!
# Which replacements are proposed

For an unused module dependency the rule proposes a module further down that supplies what is
imported. The search starts at the dependency and knows nothing of the module that is checked, so it
may come back with that module itself, or with one that it declares already.

**The order of the search** (`ModuleIndex.searchOrder`). The modules below the start, in the order in
which the search looks at them. The order does not depend on what is imported, and the search gives
the first module in it that supplies the imports (`findSupplier_eq_find?`).

**Theorem (`replacement_new_iff`).** What is proposed is used by the module, lies below the dependency
and is not reported itself. It is neither the module itself nor a declared module exactly if no such
module is the first in the order of the search to supply the imports.
-/

namespace DependencyLint

open Query Session

/-! ## The order of the search -/

namespace ModuleIndex

variable {index : ModuleIndex} {imports : List String}

/-- The modules that the search looks at, where the modules `visited` have been searched and the
others wait. The dependencies of a module are all looked at before one of them is searched. -/
def searchOrderFrom (index : ModuleIndex) (visited : List String) : List String → List String
  | [] => []
  | id :: waiting =>
    if visited.contains id then searchOrderFrom index visited waiting
    else match _found : index.edges.lookup id with
      | none => searchOrderFrom index (id :: visited) waiting
      | some targets =>
        targets.map (·.id) ++
          searchOrderFrom index (id :: visited) (targets.map (·.id) ++ waiting)
termination_by waiting => ((index.unvisited visited).length, waiting.length)
decreasing_by
  · exact Prod.Lex.right _ (Nat.lt_succ_self _)
  · rcases Nat.lt_or_eq_of_le (length_unvisited_cons_le index.edges visited id) with less | same
    · exact Prod.Lex.left _ _ less
    · unfold unvisited
      rw [same]
      exact Prod.Lex.right _ (Nat.lt_succ_self _)
  · rename_i new
    exact Prod.Lex.left _ _ (length_unvisited_cons_lt new _found)

/-- The modules below the start in the order of the search, some of them several times. -/
def searchOrder (index : ModuleIndex) (start : String) : List String :=
  index.searchOrderFrom [] [start]

theorem searchFrom_eq_find? (index : ModuleIndex) (imports visited waiting : List String) :
    searchFrom index imports visited waiting =
      (index.searchOrderFrom visited waiting).find? (index.supplies imports) := by
  fun_induction searchFrom index imports visited waiting with
  | case1 => rw [searchOrderFrom, List.find?_nil]
  | case2 visited id waiting hv ih => rw [searchOrderFrom, if_pos hv, ih]
  | case3 visited id waiting hv hl ih =>
    rw [searchOrderFrom, if_neg hv]
    split
    next => exact ih
    next targets hl' => rw [hl] at hl'; cases hl'
  | case4 visited id waiting hv targets hl edge hfind =>
    rw [searchOrderFrom, if_neg hv]
    split
    next hl' => rw [hl] at hl'; cases hl'
    next targets' hl' =>
      rw [hl] at hl'
      cases hl'
      have hfirst : (targets.map (·.id)).find? (index.supplies imports) = some edge.id := by
        rw [List.find?_map]
        exact congrArg _ hfind
      rw [List.find?_append, hfirst, Option.some_or]
  | case5 visited id waiting hv targets hl hnone ih =>
    rw [searchOrderFrom, if_neg hv]
    split
    next hl' => rw [hl] at hl'; cases hl'
    next targets' hl' =>
      rw [hl] at hl'
      cases hl'
      have hnothing : (targets.map (·.id)).find? (index.supplies imports) = none := by
        rw [List.find?_map]
        exact congrArg _ hnone
      rw [List.find?_append, hnothing, Option.none_or, ih]

/-- **The search gives the first module in its order that supplies the imports.** -/
theorem findSupplier_eq_find? (index : ModuleIndex) (imports : List String) (start : String) :
    index.findSupplier imports start = (index.searchOrder start).find? (index.supplies imports) :=
  searchFrom_eq_find? index imports [] [start]

theorem searchOrderFrom_congr {a b : ModuleIndex} (h : b.edges = a.edges)
    (visited waiting : List String) :
    b.searchOrderFrom visited waiting = a.searchOrderFrom visited waiting := by
  fun_induction searchOrderFrom a visited waiting with
  | case1 => rw [searchOrderFrom]
  | case2 visited id waiting hv ih => rw [searchOrderFrom, if_pos hv, ih]
  | case3 visited id waiting hv hl ih =>
    rw [searchOrderFrom, if_neg hv]
    split
    next => exact ih
    next targets hl' => rw [h, hl] at hl'; cases hl'
  | case4 visited id waiting hv targets hl ih =>
    rw [searchOrderFrom, if_neg hv]
    split
    next hl' => rw [h, hl] at hl'; cases hl'
    next targets' hl' =>
      rw [h, hl] at hl'
      cases hl'
      rw [ih]

/-- The index with the same edges in which only the module `id` supplies anything. -/
def supplyingOnly (index : ModuleIndex) (id : String) : ModuleIndex :=
  ⟨index.edges, [(id, [""])]⟩

theorem supplies_supplyingOnly {id a : String} :
    (index.supplyingOnly id).supplies [""] a = true ↔ a = id := by
  by_cases h : a = id
  · subst h
    simp [supplies, packagesFor, supplyingOnly, importsAnyPackage]
  · simp [supplies, packagesFor, supplyingOnly, importsAnyPackage, List.lookup_cons,
      beq_false_of_ne h, h]

/-- The order of the search lists what lies below the start. -/
theorem mem_searchOrder {start a : String} : a ∈ index.searchOrder start ↔ index.Below start a := by
  -- The search on an index where only `a` supplies anything looks for `a` itself.
  have hsearch := (index.supplyingOnly a).findSupplier_eq_find? [""] start
  have horder : (index.supplyingOnly a).searchOrder start = index.searchOrder start :=
    searchOrderFrom_congr (a := index) (b := index.supplyingOnly a) rfl [] [start]
  have hfound : ((index.searchOrder start).find? ((index.supplyingOnly a).supplies [""])).isSome ↔
      a ∈ index.searchOrder start := by
    simp only [List.find?_isSome, supplies_supplyingOnly, exists_eq_right]
  rw [← hfound, ← horder, ← hsearch, findSupplier_isSome_iff]
  simp only [supplies_supplyingOnly, exists_eq_right]
  rfl

end ModuleIndex

/-! ## What is proposed -/

namespace Project

variable {project : Project} {m : BuildModule}

/-- The module `r` would be a new dependency of `m`: it is another module, and no production
configuration of `m` declares it. -/
def IsNewFor (m : BuildModule) (r : String) : Prop := r ≠ m.id ∧ ¬m.Declares r

/-- The module `r` is the first one in the order of the search below `id` that `m` imports from. -/
def SuppliesFirst (project : Project) (m : BuildModule) (id r : String) : Prop :=
  ∃ front back, project.moduleIndex.searchOrder id = front ++ r :: back ∧
    (∀ a ∈ front, ¬project.ImportsFrom m a) ∧ project.ImportsFrom m r

theorem mem_searchOrder (hid : project.DistinctIds) {id a : String} :
    a ∈ project.moduleIndex.searchOrder id ↔ Relation.TransGen project.DependsOn id a := by
  rw [ModuleIndex.mem_searchOrder, below_iff hid]

theorem findSupplier_eq_some_iff (hid : project.DistinctIds) {id r : String} :
    project.moduleIndex.findSupplier (project.sourceImports m) id = some r ↔
      project.SuppliesFirst m id r := by
  rw [ModuleIndex.findSupplier_eq_find?, List.find?_eq_some_iff_append, SuppliesFirst]
  simp only [Bool.not_eq_true', ← Bool.not_eq_true, supplies_iff hid]
  constructor
  · rintro ⟨hr, front, back, horder, hfront⟩
    exact ⟨front, back, horder, hfront, hr⟩
  · rintro ⟨front, back, horder, hfront, hr⟩
    exact ⟨hr, front, back, horder, hfront⟩

theorem unusedKind_eq_replaceable_iff (hid : project.DistinctIds) {id r : String} :
    project.unusedKind m id = .replaceableModule r ↔ project.SuppliesFirst m id r := by
  rw [← findSupplier_eq_some_iff hid, unusedKind]
  cases project.moduleIndex.findSupplier (project.sourceImports m) id <;> simp

/-- What supplies the imports first lies below the dependency. -/
theorem SuppliesFirst.below (hid : project.DistinctIds) {id r : String}
    (h : project.SuppliesFirst m id r) : Relation.TransGen project.DependsOn id r := by
  obtain ⟨front, back, horder, -, -⟩ := h
  rw [← mem_searchOrder hid, horder]
  simp

theorem SuppliesFirst.importsFrom {id r : String} (h : project.SuppliesFirst m id r) :
    project.ImportsFrom m r := by
  obtain ⟨front, back, -, -, hr⟩ := h
  exact hr

end Project

/-! ## A project with poor proposals -/

namespace PoorProposals

open CyclicBuild (module)

/-- The module `app` uses `core`, which it declares, and its own package. -/
def app : BuildModule := module "app" ["ui", "core", "shell"]

/-- Below the unused module `ui` lies `core`, and below the unused module `shell` lies `app`. -/
def sample : Project where
  files := .ofEntries [("app", .ofSource "package app\nimport core.Base\nimport app.Own"),
    ("core", .ofSource "package core"), ("ui", .ofSource "package ui"),
    ("shell", .ofSource "package shell")]
  manifest := ⟨[app, module "core" [], module "ui" ["core"], module "shell" ["app"]]⟩
  settings := {}

def history : List (Sigma Request) := [⟨_, .buildIndex⟩]

theorem indexBuilt_history : IndexBuilt sample history :=
  ⟨[], [], rfl, eq_ok_of_toOption (by decide +kernel)⟩

theorem suppliesFirst_ui : sample.SuppliesFirst app "ui" "core" := by
  rw [← Project.findSupplier_eq_some_iff (by decide), ModuleIndex.findSupplier,
    ModuleIndex.searchFrom]
  decide +kernel

theorem suppliesFirst_shell : sample.SuppliesFirst app "shell" "app" := by
  rw [← Project.findSupplier_eq_some_iff (by decide), ModuleIndex.findSupplier,
    ModuleIndex.searchFrom]
  decide +kernel

/-- Both unused modules are reported. -/
theorem reported {found : List Finding}
    (h : ((Rule.unusedModules.check app).answer sample (Session.after sample {} history)).1 =
      .ok found) : found.map (·.dependency) = ["ui", "shell"] := by
  have hid : sample.DistinctIds := by decide
  have hm : app ∈ sample.modules := by decide
  rw [Project.answer_checkModules hid (by decide) indexBuilt_history hm] at h
  cases h
  rw [Project.map_dependency_moduleFindings hid hm]
  decide +kernel

end PoorProposals

/-! ## The theorem -/

variable {project : Project} {m : BuildModule}

/-- **When a proposed replacement is new.** In every session with an index, what the rule about
modules proposes instead of a dependency lies below the dependency, the module imports from it, and
it is not reported itself. It is neither the module itself nor one that the module declares for its
product, unless such a module comes first in the order of the search among those that the module
imports from. The order lists exactly the modules below the dependency. -/
theorem replacement_new_iff (hid : project.DistinctIds) {history : List (Sigma Request)}
    (hh : ∀ r ∈ history, r.2.IsWithin project) (hbuilt : IndexBuilt project history)
    (hm : m ∈ project.modules) :
    ∃ found,
      ((Rule.unusedModules.check m).answer project (Session.after project {} history)).1 = .ok found ∧
      ∀ finding ∈ found,
        (∀ r, finding.kind = .replaceableModule r →
          Relation.TransGen project.DependsOn finding.dependency r ∧ project.ImportsFrom m r ∧
            r ∉ found.map (·.dependency)) ∧
        ((∀ r, finding.kind = .replaceableModule r → Project.IsNewFor m r) ↔
          ¬∃ r, project.SuppliesFirst m finding.dependency r ∧ (r = m.id ∨ m.Declares r)) ∧
        ∀ a, a ∈ project.moduleIndex.searchOrder finding.dependency ↔
          Relation.TransGen project.DependsOn finding.dependency a := by
  refine ⟨project.moduleFindings m, Project.answer_checkModules hid hh hbuilt hm, ?_⟩
  intro finding hf
  have hkind : ∀ r, finding.kind = .replaceableModule r ↔
      project.SuppliesFirst m finding.dependency r := by
    intro r
    rw [← Project.unusedKind_eq_replaceable_iff hid, Project.eq_finding_of_mem_moduleFindings hf]
    rfl
  refine ⟨fun r hr => ?_, ?_, fun a => Project.mem_searchOrder hid⟩
  · have hfirst := (hkind r).1 hr
    refine ⟨hfirst.below hid, hfirst.importsFrom, fun hmem => ?_⟩
    -- What is reported is not imported from.
    rw [Project.map_dependency_moduleFindings hid hm, List.mem_filter, Bool.not_eq_true',
      Project.isSpared_eq_false_iff hid] at hmem
    exact hmem.2.1 hfirst.importsFrom
  · simp only [hkind, Project.IsNewFor, not_exists, not_and, not_or]

open PoorProposals in
theorem proposes_declared_module_and_itself :
    ∃ found,
      ((Rule.unusedModules.check app).answer sample (Session.after sample {} history)).1 = .ok found ∧
      found.map (·.dependency) = ["ui", "shell"] ∧
      app.Declares "core" ∧ sample.SuppliesFirst app "ui" "core" ∧
      sample.SuppliesFirst app "shell" app.id ∧
      ∀ finding ∈ found, ∃ r, finding.kind = .replaceableModule r ∧ ¬Project.IsNewFor app r := by
  obtain ⟨found, hfound, hnew⟩ := replacement_new_iff (by decide) (by decide) indexBuilt_history
    (by decide : app ∈ sample.modules)
  have hcore : app.Declares "core" := BuildModule.mem_declaredIds.1 (by decide)
  refine ⟨found, hfound, reported hfound, hcore, suppliesFirst_ui, suppliesFirst_shell, ?_⟩
  intro finding hf
  have hpoor : ∃ r, sample.SuppliesFirst app finding.dependency r ∧
      (r = app.id ∨ app.Declares r) := by
    have hdependency : finding.dependency ∈ ["ui", "shell"] :=
      reported hfound ▸ List.mem_map_of_mem hf
    rcases List.mem_pair.1 hdependency with h | h
    · exact ⟨"core", h ▸ suppliesFirst_ui, Or.inr hcore⟩
    · exact ⟨"app", h ▸ suppliesFirst_shell, Or.inl rfl⟩
  by_contra hnone
  refine (hnew finding hf).2.1.1 (fun r hr => ?_) hpoor
  by_contra hr'
  exact hnone ⟨r, hr, hr'⟩

end DependencyLint
