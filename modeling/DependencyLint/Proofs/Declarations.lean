import DependencyLint.Proofs.Memory
import DependencyLint.Proofs.Names
import DependencyLint.Proofs.Supplier

/-!
# The index in terms of the manifest

The index of a project is a table of edges and packages. This file says what stands in it in terms
of the manifest and the source files alone:

* `Project.DependsOn`: a module declares another one in a production configuration, and
* `Project.ImportsFrom`: the sources of a module import something from a package of another module.

An id that no module of the project has is not an error. It has no edges and no packages.
-/

namespace DependencyLint

/-! ## Declarations -/

/-- The name of the configuration, in lower case, does not contain `test`. -/
def Configuration.IsForProduct (c : Configuration) : Prop :=
  ¬"test".toList <:+: c.name.toList.flatMap Text.lowerChar

theorem Configuration.isProduction_iff (c : Configuration) :
    c.isProduction = true ↔ c.IsForProduct := by
  rw [isProduction, IsForProduct, ← Text.containsKeyword_iff, Bool.not_eq_true', Bool.not_eq_true]

theorem Configuration.mem_moduleIds {c : Configuration} {id : String} :
    id ∈ c.moduleIds ↔ Dependency.onModule id ∈ c.dependencies := by
  rw [moduleIds, List.mem_filterMap]
  constructor
  · rintro ⟨dependency, hmem, heq⟩
    cases dependency <;> cases heq
    exact hmem
  · exact fun h => ⟨_, h, rfl⟩

namespace BuildModule

/-- A production configuration of the module declares a dependency on a module. -/
def Declares (m : BuildModule) (id : String) : Prop :=
  ∃ c ∈ m.configurations, c.IsForProduct ∧ Dependency.onModule id ∈ c.dependencies

/-- The ids of modules in production configurations, in the order of declaration. -/
def declaredIds (m : BuildModule) : List String :=
  (m.configurations.filter (·.isProduction)).flatMap (·.moduleIds)

theorem mem_declaredIds {m : BuildModule} {id : String} : id ∈ m.declaredIds ↔ m.Declares id := by
  simp only [declaredIds, Declares, List.mem_flatMap, List.mem_filter, Configuration.isProduction_iff,
    Configuration.mem_moduleIds, and_assoc]

theorem mem_moduleDependencies {m : BuildModule} {id : String} :
    id ∈ m.moduleDependencies ↔ id ≠ m.id ∧ m.Declares id := by
  rw [moduleDependencies, List.mem_eraseDups, List.mem_filter, ← declaredIds, mem_declaredIds,
    decide_eq_true_eq, and_comm]

/-- Module dependencies come in the order of their first declarations. -/
theorem pairwise_moduleDependencies (m : BuildModule) :
    m.moduleDependencies.Pairwise fun a b => m.declaredIds.idxOf a < m.declaredIds.idxOf b := by
  refine (pairwise_eraseDups _).imp_of_mem fun {a b} ha hb hab => ?_
  have ha := (mem_moduleDependencies.1 ha).1
  have hb := (mem_moduleDependencies.1 hb).1
  exact idxOf_lt_of_filter (p := fun id => id ≠ m.id) (by simpa using ha) (by simpa using hb) hab

end BuildModule

/-! ## Looking up modules -/

theorem lookup_map_id {β : Type} (modules : List BuildModule) (f : BuildModule → β) (id : String) :
    (modules.map fun m => (m.id, f m)).lookup id = (modules.find? (·.id = id)).map f := by
  induction modules with
  | nil => rfl
  | cons m modules ih =>
    rw [List.map_cons, List.lookup_cons, List.find?_cons]
    by_cases h : m.id = id
    · simp [h]
    · rw [beq_false_of_ne (Ne.symm h), decide_eq_false h]
      exact ih

namespace Project

variable {project : Project}

theorem mem_of_find? {id : String} {m : BuildModule} (h : project.find? id = some m) :
    m ∈ project.modules ∧ m.id = id :=
  ⟨List.mem_of_find?_eq_some h, by simpa using List.find?_some h⟩

theorem find?_eq_some_iff (hid : project.DistinctIds) {id : String} {m : BuildModule} :
    project.find? id = some m ↔ m ∈ project.modules ∧ m.id = id :=
  find?_name_eq_some_iff hid

theorem edges_lookup (id : String) :
    project.moduleIndex.edges.lookup id =
      (project.find? id).map (ModuleIndex.edgesOf project.manifest) := by
  simp only [moduleIndex, ModuleIndex.ofSources, List.map_map]
  exact lookup_map_id project.modules _ id

theorem packages_lookup (id : String) :
    project.moduleIndex.packages.lookup id =
      (project.find? id).map fun m => ModuleIndex.packagesOf (project.sourceFiles m) := by
  simp only [moduleIndex, ModuleIndex.ofSources, List.map_map]
  exact lookup_map_id project.modules _ id

/-! ## Edges -/

/-- A module of the project declares a dependency on another module. -/
def DependsOn (project : Project) (a b : String) : Prop :=
  a ≠ b ∧ ∃ m ∈ project.modules, m.id = a ∧ m.Declares b

theorem map_id_edgesOf (manifest : Manifest) (m : BuildModule) :
    (ModuleIndex.edgesOf manifest m).map (·.id) = m.moduleDependencies := by
  rw [ModuleIndex.edgesOf, List.map_map]
  exact List.map_id _

/-- The ids in the edges of a module of the project. -/
theorem map_id_dependencies (hid : project.DistinctIds) {m : BuildModule}
    (hm : m ∈ project.modules) :
    (project.moduleIndex.dependencies m.id).map (·.id) = m.moduleDependencies := by
  rw [ModuleIndex.dependencies, edges_lookup, (find?_eq_some_iff hid).2 ⟨hm, rfl⟩, Option.map_some,
    Option.getD_some, map_id_edgesOf]

theorem edge_iff (hid : project.DistinctIds) {a b : String} :
    project.moduleIndex.Edge a b ↔ project.DependsOn a b := by
  rw [ModuleIndex.Edge, ← List.mem_map]
  constructor
  · intro h
    cases hf : project.find? a with
    | none => rw [ModuleIndex.dependencies, edges_lookup, hf] at h; simp at h
    | some m =>
      obtain ⟨hm, rfl⟩ := mem_of_find? hf
      rw [map_id_dependencies hid hm] at h
      obtain ⟨hne, hd⟩ := BuildModule.mem_moduleDependencies.1 h
      exact ⟨hne.symm, m, hm, rfl, hd⟩
  · rintro ⟨hne, m, hm, rfl, hd⟩
    rw [map_id_dependencies hid hm]
    exact BuildModule.mem_moduleDependencies.2 ⟨hne.symm, hd⟩

/-- What lies below a module in the index can be reached along declared dependencies. -/
theorem below_iff (hid : project.DistinctIds) {a b : String} :
    project.moduleIndex.Below a b ↔ Relation.TransGen project.DependsOn a b := by
  rw [ModuleIndex.Below, show project.moduleIndex.Edge = project.DependsOn from
    funext fun a => funext fun b => propext (edge_iff hid)]

/-! ## Imports -/

/-- A source file of the module `m` imports a name that starts with a package of the module `id`. -/
def ImportsFrom (project : Project) (m : BuildModule) (id : String) : Prop :=
  ∃ owner ∈ project.modules, owner.id = id ∧
    ∃ file ∈ project.sourceFiles owner, file.package ≠ "" ∧
      ∃ source ∈ project.sourceFiles m, ∃ name ∈ source.imports,
        file.package.toList <+: name.toList

theorem mem_sourceImports {m : BuildModule} {name : String} :
    name ∈ project.sourceImports m ↔ ∃ source ∈ project.sourceFiles m, name ∈ source.imports := by
  rw [sourceImports, List.mem_eraseDups, List.mem_flatMap]

theorem mem_packagesOf {files : List SourceFile} {package : String} :
    package ∈ ModuleIndex.packagesOf files ↔
      ∃ file ∈ files, file.package ≠ "" ∧ file.package = package := by
  rw [ModuleIndex.packagesOf, Text.mem_sortedNames, List.mem_filter, List.mem_map]
  constructor
  · rintro ⟨⟨file, hfile, rfl⟩, hne⟩
    exact ⟨file, hfile, by simpa using hne, rfl⟩
  · rintro ⟨file, hfile, hne, rfl⟩
    exact ⟨⟨file, hfile, rfl⟩, by simpa using hne⟩

theorem packagesFor_id (hid : project.DistinctIds) {m : BuildModule} (hm : m ∈ project.modules) :
    project.moduleIndex.packagesFor m.id = ModuleIndex.packagesOf (project.sourceFiles m) := by
  rw [ModuleIndex.packagesFor, packages_lookup, (find?_eq_some_iff hid).2 ⟨hm, rfl⟩, Option.map_some,
    Option.getD_some]

theorem mem_packagesFor (hid : project.DistinctIds) {id package : String} :
    package ∈ project.moduleIndex.packagesFor id ↔
      ∃ owner ∈ project.modules, owner.id = id ∧
        ∃ file ∈ project.sourceFiles owner, file.package ≠ "" ∧ file.package = package := by
  rw [ModuleIndex.packagesFor, packages_lookup]
  cases hf : project.find? id with
  | none =>
    simp only [Option.map_none, Option.getD_none, List.not_mem_nil, false_iff]
    rintro ⟨owner, howner, hname, -⟩
    rw [(find?_eq_some_iff hid).2 ⟨howner, hname⟩] at hf
    cases hf
  | some m =>
    rw [Option.map_some, Option.getD_some, mem_packagesOf]
    constructor
    · exact fun h => ⟨m, (mem_of_find? hf).1, (mem_of_find? hf).2, h⟩
    · rintro ⟨owner, howner, hname, h⟩
      rw [(find?_eq_some_iff hid).2 ⟨howner, hname⟩] at hf
      cases hf
      exact h

/-- A module supplies what another one imports exactly where the latter imports from its
packages. -/
theorem supplies_iff (hid : project.DistinctIds) {m : BuildModule} {id : String} :
    project.moduleIndex.supplies (project.sourceImports m) id = true ↔ project.ImportsFrom m id := by
  rw [ModuleIndex.supplies, importsAnyPackage_iff]
  constructor
  · rintro ⟨package, hpackage, name, hname, hprefix⟩
    obtain ⟨owner, howner, hid', file, hfile, hne, rfl⟩ := (mem_packagesFor hid).1 hpackage
    obtain ⟨source, hsource, hname⟩ := mem_sourceImports.1 hname
    exact ⟨owner, howner, hid', file, hfile, hne, source, hsource, name, hname, hprefix⟩
  · rintro ⟨owner, howner, hid', file, hfile, hne, source, hsource, name, hname, hprefix⟩
    exact ⟨file.package, (mem_packagesFor hid).2 ⟨owner, howner, hid', file, hfile, hne, rfl⟩, name,
      mem_sourceImports.2 ⟨source, hsource, hname⟩, hprefix⟩

end Project

end DependencyLint
