import DependencyLint.Proofs.Run

/-!
# Regrouped projects

Two projects have the same modules, but they may list them in a different order and may enable
different ones. Whatever can be told about a module without a session is the same in both
(`Regrouped.findingsAfter_eq`): modules are looked up by their ids, and a module that is not enabled
still counts as a dependency of others.
-/

namespace DependencyLint

/-- The index is only ever looked into by id, so the order of its entries does not matter. -/
theorem ModuleIndex.searchFrom_congr {a b : ModuleIndex}
    (hedges : ∀ id, b.edges.lookup id = a.edges.lookup id)
    (hpackages : ∀ id, b.packages.lookup id = a.packages.lookup id)
    (imports visited waiting : List String) :
    b.searchFrom imports visited waiting = a.searchFrom imports visited waiting := by
  have hsupplies : ∀ id, b.supplies imports id = a.supplies imports id := by
    intro id
    rw [supplies, supplies, packagesFor, packagesFor, hpackages]
  fun_induction searchFrom a imports visited waiting with
  | case1 => rw [searchFrom]
  | case2 visited id waiting hv ih => rw [searchFrom, if_pos hv, ih]
  | case3 visited id waiting hv hl ih =>
    rw [searchFrom, if_neg hv]
    split
    next => exact ih
    next targets hl' => rw [hedges, hl] at hl'; cases hl'
  | case4 visited id waiting hv targets hl edge hfind =>
    rw [searchFrom, if_neg hv]
    split
    next hl' => rw [hedges, hl] at hl'; cases hl'
    next targets' hl' =>
      rw [hedges, hl] at hl'
      cases hl'
      simp only [hsupplies, hfind]
  | case5 visited id waiting hv targets hl hnone ih =>
    rw [searchFrom, if_neg hv]
    split
    next hl' => rw [hedges, hl] at hl'; cases hl'
    next targets' hl' =>
      rw [hedges, hl] at hl'
      cases hl'
      simp only [hsupplies, hnone]
      exact ih

namespace Project

/-- The project `q` has the files and modules of `p` and the same settings, but for the order of the
modules and for which ones are enabled. -/
structure Regrouped (p q : Project) : Prop where
  files : q.files = p.files
  modules : p.modules.Perm q.modules
  exclude : q.settings.exclude = p.settings.exclude
  rules : q.settings.rules = p.settings.rules
  ignored : ∀ id, (q.settings.forModule id).ignored = (p.settings.forModule id).ignored

namespace Regrouped

variable {p q : Project} (h : p.Regrouped q) (hid : p.DistinctIds) (m : BuildModule)

include h

theorem readSources_eq : q.readSources m = p.readSources m := by
  rw [readSources, readSources, globs, globs, Settings.excludeGlobs, Settings.excludeGlobs, h.files,
    h.exclude]

theorem sourceFiles_eq : q.sourceFiles m = p.sourceFiles m := by
  rw [sourceFiles, sourceFiles, h.readSources_eq]

theorem sourceImports_eq : q.sourceImports m = p.sourceImports m := by
  rw [sourceImports, sourceImports, h.sourceFiles_eq]

theorem summary_eq : q.summary m = p.summary m := by
  rw [summary, summary, h.sourceFiles_eq]

theorem isIgnored_eq (name : String) :
    (q.settingsFor m).isIgnored name = (p.settingsFor m).isIgnored name := by
  rw [settingsFor, settingsFor, ModuleSettings.isIgnored, ModuleSettings.isIgnored, h.ignored]

theorem librariesOf_eq : q.librariesOf m = p.librariesOf m := by
  rw [librariesOf, librariesOf, BuildModule.checkedLibraries, BuildModule.checkedLibraries]
  simp only [h.isIgnored_eq]

theorem classesAmong_eq (known : List ResolvedLibrary) (library : ResolvedLibrary) :
    q.classesAmong known library = p.classesAmong known library := by
  rw [classesAmong, classesAmong, h.files]

theorem contentsAfter_eq (known : List ResolvedLibrary) :
    q.contentsAfter known m = p.contentsAfter known m := by
  rw [contentsAfter, contentsAfter, h.librariesOf_eq]
  simp only [contentsAmong, h.classesAmong_eq]

theorem activeRules_eq (rules : List Rule) : q.activeRules rules = p.activeRules rules := by
  simp only [activeRules, Settings.isRuleEnabled, h.rules]

include hid

theorem distinctIds : q.DistinctIds := (h.modules.map _).nodup_iff.1 hid

theorem find?_eq (id : String) : q.find? id = p.find? id := by
  refine Option.ext fun m => ?_
  rw [find?_eq_some_iff (h.distinctIds hid), find?_eq_some_iff hid, h.modules.mem_iff]

theorem edges_lookup_eq (id : String) :
    q.moduleIndex.edges.lookup id = p.moduleIndex.edges.lookup id := by
  have hedges : ModuleIndex.edgesOf q.manifest = ModuleIndex.edgesOf p.manifest := by
    funext m
    refine List.map_congr_left fun id _ => ?_
    rw [show q.manifest.find? id = p.manifest.find? id from h.find?_eq hid id]
  rw [edges_lookup, edges_lookup, h.find?_eq hid, hedges]

theorem packages_lookup_eq (id : String) :
    q.moduleIndex.packages.lookup id = p.moduleIndex.packages.lookup id := by
  simp only [packages_lookup, h.find?_eq hid, h.sourceFiles_eq]

theorem dependencies_eq (id : String) :
    q.moduleIndex.dependencies id = p.moduleIndex.dependencies id := by
  rw [ModuleIndex.dependencies, ModuleIndex.dependencies, h.edges_lookup_eq hid]

theorem moduleFindings_eq : q.moduleFindings m = p.moduleFindings m := by
  have hspared : q.isSpared m = p.isSpared m := by
    funext id
    rw [isSpared, isSpared, ModuleIndex.packagesFor, ModuleIndex.packagesFor,
      h.packages_lookup_eq hid, h.sourceImports_eq, h.isIgnored_eq]
  have hkind : q.unusedKind m = p.unusedKind m := by
    funext id
    rw [unusedKind, unusedKind, ModuleIndex.findSupplier, ModuleIndex.findSupplier,
      ModuleIndex.searchFrom_congr (h.edges_lookup_eq hid) (h.packages_lookup_eq hid),
      h.sourceImports_eq]
  have hfinding : q.moduleFinding? m = p.moduleFinding? m := by
    funext id
    rw [moduleFinding?, moduleFinding?, hspared, hkind]
  rw [moduleFindings, moduleFindings, h.dependencies_eq hid, hfinding]

theorem visibleImports_eq : q.visibleImports m = p.visibleImports m := by
  simp only [visibleImports, dependencyModules, h.dependencies_eq hid, h.find?_eq hid,
    h.sourceImports_eq, List.map_congr_left fun n _ => h.sourceImports_eq n]

theorem findings_eq (contents : List LibraryContent) (rule : Rule) :
    rule.findings q m contents = rule.findings p m contents := by
  have hverdict : rule.verdict q m = rule.verdict p m := by
    funext library
    cases rule with
    | unusedModules => rfl
    | unusedLibraries => rw [Rule.verdict, Rule.verdict, h.visibleImports_eq hid]
    | custom check => rw [Rule.verdict, Rule.verdict, h.summary_eq]
  cases rule with
  | unusedModules => exact h.moduleFindings_eq hid m
  | unusedLibraries => rw [Rule.findings, Rule.findings, hverdict]
  | custom check => rw [Rule.findings, Rule.findings, hverdict]

/-- **What is found about a module is the same in both projects,** as long as the same libraries were
indexed before it. -/
theorem findingsAfter_eq (rules : List Rule) (known : List ResolvedLibrary) :
    q.findingsAfter rules known m = p.findingsAfter rules known m := by
  have hreads : q.readsContents rules = p.readsContents rules := by
    rw [readsContents, readsContents, h.activeRules_eq]
  rw [findingsAfter, findingsAfter, hreads, h.contentsAfter_eq, h.activeRules_eq]
  simp only [h.findings_eq hid]

end Regrouped

end Project

end DependencyLint
