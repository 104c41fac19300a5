import DependencyLint.Proofs.Declarations
import DependencyLint.Proofs.History

/-!
# What is reported about module dependencies

**Theorem (`unusedModules_reports_exactly`).** In every session with an index, whatever was asked
before, the rule about modules reports a dependency exactly if a production configuration declares
it, it is another module, nothing is imported from its packages, and it is not ignored. Each one is
reported once, in the order of first declarations. A replacement is proposed exactly if the module
imports from some module that can be reached from the dependency along declared dependencies.

The findings of the rule are first written without a session (`Project.moduleFindings`), as a filter
over the edges of the module. The filter keeps the order of the edges, and the search for a
replacement is sound and complete on every index, with or without cycles.
-/

namespace DependencyLint

open Query Session

namespace Project

variable {project : Project} {m : BuildModule}

/-! ## The findings without a session -/

/-- What is wrong with an unused module dependency. -/
def unusedKind (project : Project) (m : BuildModule) (id : String) : FindingKind :=
  match project.moduleIndex.findSupplier (project.sourceImports m) id with
  | some replacement => .replaceableModule replacement
  | none => .unusedModule

/-- Whether a module dependency is left alone: something is imported from it, or it is ignored. -/
def isSpared (project : Project) (m : BuildModule) (id : String) : Bool :=
  importsAnyPackage (project.moduleIndex.packagesFor id) (project.sourceImports m) ||
    (project.settingsFor m).isIgnored id

/-- The finding about a module dependency, if there is one. -/
def moduleFinding? (project : Project) (m : BuildModule) (id : String) : Option Finding :=
  if project.isSpared m id then none
  else some (Rule.unusedModules.finding m id (project.unusedKind m id))

def moduleFindings (project : Project) (m : BuildModule) : List Finding :=
  ((project.moduleIndex.dependencies m.id).map (·.id)).filterMap (project.moduleFinding? m)

theorem answers_unusedModuleKind
    {K : List (String × List LibraryContent) → List (String × List String) → Prop} (id : String) :
    Answers project (Ready project K) (Rule.unusedModuleKind (project.sourceImports m) id)
      (.ok (project.unusedKind m id)) (Ready project K) := by
  refine (answers_findSupplier id (project.sourceImports m)).bind ?_
  rw [unusedKind]
  cases project.moduleIndex.findSupplier (project.sourceImports m) id with
  | some replacement => exact Answers.pure _
  | none => exact Answers.pure _

/-- In a ready session, the rule about modules gives the findings without a session. -/
theorem answers_checkModules
    {K : List (String × List LibraryContent) → List (String × List String) → Prop}
    (hid : project.DistinctIds) (hm : m ∈ project.modules) :
    Answers project (Ready project K) (Rule.checkModules m) (.ok (project.moduleFindings m))
      (Ready project K) := by
  refine (answers_moduleDependencies m.id).bind ?_
  rw [moduleFindings]
  cases project.moduleIndex.dependencies m.id with
  | nil => exact Answers.pure []
  | cons edge edges =>
    refine Answers.read.bind ((answers_sourceImports hid hm).bind ?_)
    have hedges : Answers project (Ready project K)
        ((edge :: edges).mapM fun edge => do
          let packages ← Query.modulePackages edge.id
          if importsAnyPackage packages (project.sourceImports m) ||
              (project.settingsFor m).isIgnored edge.id then pure none
          else
            let kind ← Rule.unusedModuleKind (project.sourceImports m) edge.id
            pure (some (Rule.unusedModules.finding m edge.id kind)))
        (.ok ((edge :: edges).map fun edge => project.moduleFinding? m edge.id))
        (Ready project K) := by
      refine Answers.mapM fun edge _ => (answers_modulePackages edge.id).bind ?_
      rw [moduleFinding?, isSpared]
      split_ifs with h
      · exact Answers.pure none
      · exact (answers_unusedModuleKind edge.id).bind (Answers.pure _)
    have hfound : ((edge :: edges).map fun edge => project.moduleFinding? m edge.id).filterMap id =
        ((edge :: edges).map (·.id)).filterMap (project.moduleFinding? m) := by
      rw [List.filterMap_map, List.filterMap_map]
      rfl
    rw [← hfound]
    exact hedges.bind (Answers.pure _)

/-- Whatever was asked before, the rule gives these findings once the index has been built. -/
theorem answer_checkModules (hid : project.DistinctIds) {history : List (Sigma Request)}
    (hh : ∀ r ∈ history, r.2.IsWithin project) (hbuilt : IndexBuilt project history)
    (hm : m ∈ project.modules) :
    ((Rule.unusedModules.check m).answer project (Session.after project {} history)).1 =
      .ok (project.moduleFindings m) :=
  (answers_checkModules hid hm _ (hbuilt.ready hid hh).2).1

/-! ## What the findings are about -/

theorem map_dependency_moduleFindings (hid : project.DistinctIds) (hm : m ∈ project.modules) :
    (project.moduleFindings m).map (·.dependency) =
      m.moduleDependencies.filter fun id => !project.isSpared m id := by
  rw [moduleFindings, map_id_dependencies hid hm, List.map_filterMap, ← List.filterMap_eq_filter]
  congr 1
  funext id
  rw [moduleFinding?, Option.guard]
  cases project.isSpared m id <;> rfl

theorem isSpared_eq_false_iff (hid : project.DistinctIds) {id : String} :
    project.isSpared m id = false ↔
      ¬project.ImportsFrom m id ∧ id ∉ (project.settingsFor m).ignored := by
  rw [isSpared, Bool.or_eq_false_iff, ← supplies_iff hid, ModuleIndex.supplies, Bool.not_eq_true,
    ModuleSettings.isIgnored]
  simp

/-- The module imports from a module that can be reached from the dependency `id`. -/
def HasReplacement (project : Project) (m : BuildModule) (id : String) : Prop :=
  ∃ r, Relation.TransGen project.DependsOn id r ∧ project.ImportsFrom m r

theorem findSupplier_isSome_iff (hid : project.DistinctIds) {id : String} :
    (project.moduleIndex.findSupplier (project.sourceImports m) id).isSome ↔
      project.HasReplacement m id := by
  rw [ModuleIndex.findSupplier_isSome_iff, HasReplacement]
  simp only [below_iff hid, supplies_iff hid]

theorem unusedKind_iff (hid : project.DistinctIds) (id : String) :
    ((∃ r, project.unusedKind m id = .replaceableModule r) ↔ project.HasReplacement m id) ∧
      (project.unusedKind m id = .unusedModule ↔ ¬project.HasReplacement m id) := by
  rw [unusedKind, ← findSupplier_isSome_iff hid]
  cases project.moduleIndex.findSupplier (project.sourceImports m) id <;> simp

theorem eq_finding_of_mem_moduleFindings {finding : Finding}
    (h : finding ∈ project.moduleFindings m) :
    finding = Rule.unusedModules.finding m finding.dependency
      (project.unusedKind m finding.dependency) := by
  obtain ⟨id, -, hf⟩ := List.mem_filterMap.1 h
  rw [moduleFinding?] at hf
  split_ifs at hf
  cases hf
  rfl

end Project

variable {project : Project} {m : BuildModule}

/-- **The rule about modules reports exactly the unused declared dependencies.** `history` is any
sequence of requests in which the index was built. -/
theorem unusedModules_reports_exactly (hid : project.DistinctIds) {history : List (Sigma Request)}
    (hh : ∀ r ∈ history, r.2.IsWithin project) (hbuilt : IndexBuilt project history)
    (hm : m ∈ project.modules) :
    ∃ found,
      ((Rule.unusedModules.check m).answer project (Session.after project {} history)).1 = .ok found ∧
      (∀ d, d ∈ found.map (·.dependency) ↔
        d ≠ m.id ∧ m.Declares d ∧ ¬project.ImportsFrom m d ∧ d ∉ (project.settingsFor m).ignored) ∧
      (found.map (·.dependency)).Pairwise
        (fun d e => m.declaredIds.idxOf d < m.declaredIds.idxOf e) ∧
      ∀ finding ∈ found,
        finding.code = "DS001" ∧ finding.rule = "unused-module-dependency" ∧
        finding.module = m.label ∧
        ((∃ r, finding.kind = .replaceableModule r) ↔
          project.HasReplacement m finding.dependency) ∧
        (finding.kind = .unusedModule ↔ ¬project.HasReplacement m finding.dependency) := by
  obtain ⟨-, hready⟩ := hbuilt.ready hid hh
  have hids := Project.map_dependency_moduleFindings hid hm
  refine ⟨project.moduleFindings m, (Project.answers_checkModules hid hm _ hready).1, ?_, ?_, ?_⟩
  · intro d
    rw [hids, List.mem_filter, BuildModule.mem_moduleDependencies, Bool.not_eq_true',
      Project.isSpared_eq_false_iff hid, and_assoc]
  · rw [hids]
    exact m.pairwise_moduleDependencies.filter _
  · intro finding hf
    have heq := Project.eq_finding_of_mem_moduleFindings hf
    have hkind : finding.kind = project.unusedKind m finding.dependency := by rw [heq]; rfl
    refine ⟨by rw [heq]; rfl, by rw [heq]; rfl, by rw [heq]; rfl, ?_⟩
    rw [hkind]
    exact Project.unusedKind_iff hid finding.dependency

open CyclicBuild in
theorem cycle_reports_replaceable_module :
    ∃ found,
      ((Rule.unusedModules.check app).answer sample (Session.after sample {} history)).1 = .ok found ∧
      ∃ finding ∈ found, finding.dependency = "ui" ∧ ∃ r, finding.kind = .replaceableModule r := by
  have hid : sample.DistinctIds := by decide
  obtain ⟨found, hfound, hreported, -, hkinds⟩ :=
    unusedModules_reports_exactly hid (by decide) indexBuilt_history
      (by decide : app ∈ sample.modules)
  have hdeclares : app.Declares "ui" := BuildModule.mem_declaredIds.1 (by decide)
  have hunused : ¬sample.ImportsFrom app "ui" := by
    rw [← Project.supplies_iff hid]
    decide +kernel
  have hedge : sample.DependsOn "ui" "core" :=
    ⟨by decide, module "ui" ["core"], by decide, rfl, BuildModule.mem_declaredIds.1 (by decide)⟩
  have himports : sample.ImportsFrom app "core" := by
    rw [← Project.supplies_iff hid]
    decide +kernel
  obtain ⟨finding, hmem, hui⟩ :=
    List.mem_map.1 ((hreported "ui").2 ⟨by decide, hdeclares, hunused, by decide⟩)
  refine ⟨found, hfound, finding, hmem, hui, (hkinds finding hmem).2.2.2.1.2 ?_⟩
  rw [hui]
  exact ⟨"core", .single hedge, himports⟩

end DependencyLint
