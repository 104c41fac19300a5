import DependencyLint.Proofs.Merging
import DependencyLint.Proofs.Redeclared

/-!
# The order of declarations

Edges, the files of a library and the first match of the search all depend on the order in which
things are declared. What is reported about module dependencies does not, up to the replacement
that is proposed: it is told by the set of declarations.

**Declared alike** (`Project.DeclaredAlike`). The modules of two projects have the same
configurations, each with the same set of dependencies. Permuted configurations and permuted
dependencies are a case of this (`Project.Reordered`).

**Main results.** Modules that are declared alike select the same libraries
(`BuildModule.Alike.selects_iff`) and see the same imports (`DeclaredAlike.mem_visibleImports_iff`),
and the same of their module dependencies are unused, with or without a replacement
(`DeclaredAlike.sameOutlines_moduleFindings`).
-/

namespace DependencyLint

open Query Session

/-! ## Modules declared alike -/

/-- The configurations differ in the order and the number of the same dependencies at most. -/
structure Configuration.Alike (c d : Configuration) : Prop where
  name : d.name = c.name
  canBeResolved : d.canBeResolved = c.canBeResolved
  resolved : d.resolved = c.resolved
  dependencies : ∀ dependency, dependency ∈ d.dependencies ↔ dependency ∈ c.dependencies

namespace Configuration.Alike

variable {c d : Configuration} (h : c.Alike d)

include h

theorem symm : d.Alike c :=
  ⟨h.name.symm, h.canBeResolved.symm, h.resolved.symm, fun _ => (h.dependencies _).symm⟩

theorem isForProduct : c.IsForProduct → d.IsForProduct := by
  unfold IsForProduct
  rw [h.name]
  exact id

theorem isAccepted_eq : d.isAccepted = c.isAccepted := by
  unfold isAccepted
  rw [h.name, h.canBeResolved]

theorem directlyResolved_eq (requester : String) :
    d.directlyResolved requester = c.directlyResolved requester := by
  unfold directlyResolved
  rw [h.resolved]

theorem mem_libraries {library : Coordinate} : library ∈ d.libraries ↔ library ∈ c.libraries := by
  simp only [libraries, List.mem_filterMap, h.dependencies]

end Configuration.Alike

/-- The modules differ in the order and the number of the same declarations at most. -/
structure BuildModule.Alike (m n : BuildModule) : Prop where
  redeclares : m.Redeclares n
  there : ∀ c ∈ m.configurations, ∃ d ∈ n.configurations, c.Alike d
  back : ∀ d ∈ n.configurations, ∃ c ∈ m.configurations, d.Alike c

namespace BuildModule.Alike

variable {m n : BuildModule} (h : m.Alike n)

include h

theorem symm : n.Alike m := by
  refine ⟨?_, h.back, h.there⟩
  obtain ⟨cs, rfl⟩ := h.redeclares
  exact ⟨m.configurations, rfl⟩

theorem fullName_eq : n.fullName = m.fullName := by
  obtain ⟨cs, rfl⟩ := h.redeclares
  rfl

theorem label_eq : n.label = m.label := by
  obtain ⟨cs, rfl⟩ := h.redeclares
  rfl

theorem declares {id : String} (hd : m.Declares id) : n.Declares id := by
  obtain ⟨c, hc, hproduct, hmem⟩ := hd
  obtain ⟨d, hd, hcd⟩ := h.there c hc
  exact ⟨d, hd, hcd.isForProduct hproduct, (hcd.dependencies _).2 hmem⟩

theorem declares_iff {id : String} : n.Declares id ↔ m.Declares id :=
  ⟨h.symm.declares, h.declares⟩

theorem selects {s : DeclaredLibrary} (hs : m.Selects s) : n.Selects s := by
  obtain ⟨c, hc, haccepted, hdeclared, hmatch⟩ := hs
  obtain ⟨d, hd, hcd⟩ := h.there c hc
  refine ⟨d, hd, hcd.isAccepted_eq.trans haccepted, hcd.mem_libraries.2 hdeclared, ?_⟩
  rwa [h.redeclares.id_eq, h.fullName_eq, hcd.directlyResolved_eq]

theorem selects_iff {s : DeclaredLibrary} : n.Selects s ↔ m.Selects s :=
  ⟨h.symm.selects, h.selects⟩

theorem resolves (hr : m.Resolves) : n.Resolves := by
  intro d hd haccepted declared hdeclared
  obtain ⟨c, hc, hdc⟩ := h.back d hd
  obtain ⟨r, hr⟩ := hr c hc (hdc.isAccepted_eq.trans haccepted) declared
    (hdc.mem_libraries.2 hdeclared)
  refine ⟨r, ?_⟩
  rwa [h.redeclares.id_eq, h.fullName_eq, ← hdc.directlyResolved_eq]

end BuildModule.Alike

/-! ## Findings up to the replacement -/

/-- What is wrong, without the module that is proposed. -/
def FindingKind.outline : FindingKind → FindingKind
  | .replaceableModule _ => .replaceableModule ""
  | kind => kind

/-- A finding without the module that is proposed. -/
def Finding.outline (finding : Finding) : Finding := { finding with kind := finding.kind.outline }

/-- The same is found, but for the order, for repetitions and for replacements. -/
def SameOutlines (found found' : List Finding) : Prop :=
  ∀ finding, finding ∈ found'.map Finding.outline ↔ finding ∈ found.map Finding.outline

namespace Project

/-- The projects differ in the order and the number of the same declarations at most. -/
structure DeclaredAlike (p q : Project) : Prop where
  files : q.files = p.files
  settings : q.settings = p.settings
  modules : List.Forall₂ BuildModule.Alike p.modules q.modules

namespace DeclaredAlike

variable {p q : Project} (h : p.DeclaredAlike q)

include h

theorem symm : q.DeclaredAlike p := by
  refine ⟨h.files.symm, h.settings.symm, List.Forall₂.flip (h.modules.imp fun m n hmn => ?_)⟩
  exact hmn.symm

theorem redeclared : p.Redeclared q :=
  ⟨h.files, h.settings, h.modules.imp fun _ _ hmn => hmn.redeclares⟩

theorem exists_mem {m : BuildModule} (hm : m ∈ p.modules) : ∃ n ∈ q.modules, m.Alike n :=
  exists_of_forall₂ h.modules hm

/-! ### Module dependencies -/

theorem dependsOn {a b : String} (hab : p.DependsOn a b) : q.DependsOn a b := by
  obtain ⟨hne, m, hm, hid, hd⟩ := hab
  obtain ⟨n, hn, hmn⟩ := h.exists_mem hm
  exact ⟨hne, n, hn, hmn.redeclares.id_eq.trans hid, hmn.declares hd⟩

variable (hid : p.DistinctIds) {m n : BuildModule} (hmn : m.Alike n)

include hid hmn

theorem importsFrom_iff {id : String} : q.ImportsFrom n id ↔ p.ImportsFrom m id := by
  rw [← supplies_iff hid, ← supplies_iff (h.redeclared.distinctIds hid),
    h.redeclared.supplies_eq hmn.redeclares]

theorem hasReplacement {id : String} (hr : p.HasReplacement m id) : q.HasReplacement n id := by
  obtain ⟨r, hbelow, himports⟩ := hr
  exact ⟨r, Relation.TransGen.mono (fun _ _ hab => h.dependsOn hab) _ _ hbelow,
    (h.importsFrom_iff hid hmn).2 himports⟩

theorem hasReplacement_iff {id : String} : q.HasReplacement n id ↔ p.HasReplacement m id :=
  ⟨h.symm.hasReplacement (h.redeclared.distinctIds hid) hmn.symm, h.hasReplacement hid hmn⟩

/-- What is wrong with an unused dependency is the same, without the replacement. -/
theorem outline_unusedKind (id : String) :
    (q.unusedKind n id).outline = (p.unusedKind m id).outline := by
  obtain ⟨hp, hp'⟩ := unusedKind_iff (m := m) hid id
  obtain ⟨hq, hq'⟩ := unusedKind_iff (m := n) (h.redeclared.distinctIds hid) id
  by_cases hr : p.HasReplacement m id
  · obtain ⟨r, hkind⟩ := hp.2 hr
    obtain ⟨r', hkind'⟩ := hq.2 ((h.hasReplacement_iff hid hmn).2 hr)
    rw [hkind, hkind']
    rfl
  · rw [hp'.2 hr, hq'.2 (mt (h.hasReplacement_iff hid hmn).1 hr)]

theorem moduleFinding_outline (id : String) :
    (q.moduleFinding? n id).map Finding.outline = (p.moduleFinding? m id).map Finding.outline := by
  unfold moduleFinding?
  rw [h.redeclared.isSpared_eq hmn.redeclares]
  split_ifs
  · rfl
  · simp only [Option.map_some, Finding.outline, Rule.finding, hmn.label_eq,
      h.outline_unusedKind hid hmn]

variable (hm : m ∈ p.modules) (hn : n ∈ q.modules)

include hm hn

/-- **Module dependencies are reported alike.** -/
theorem sameOutlines_moduleFindings : SameOutlines (p.moduleFindings m) (q.moduleFindings n) := by
  intro finding
  have hids : ∀ id, id ∈ n.moduleDependencies ↔ id ∈ m.moduleDependencies := by
    intro id
    rw [BuildModule.mem_moduleDependencies, BuildModule.mem_moduleDependencies,
      hmn.redeclares.id_eq, hmn.declares_iff]
  simp only [moduleFindings, List.map_filterMap, List.mem_filterMap,
    map_id_dependencies (h.redeclared.distinctIds hid) hn, map_id_dependencies hid hm, hids,
    h.moduleFinding_outline hid hmn]

/-! ### Imports -/

theorem sees {name : String} (hs : p.Sees m name) : q.Sees n name := by
  obtain ⟨k, hk, hdeclared, source, hsource, hname⟩ := hs
  obtain ⟨l, hl, hkl⟩ := h.exists_mem hk
  refine ⟨l, hl, ?_, source, ?_, hname⟩
  · rcases hdeclared with rfl | hdeclared
    · left
      refine (h.redeclared.distinctIds hid).eq_of_id hl hn ?_
      rw [hkl.redeclares.id_eq, hmn.redeclares.id_eq]
    · right
      rw [hkl.redeclares.id_eq]
      exact hmn.declares hdeclared
  · rwa [h.redeclared.sourceFiles_eq hkl.redeclares]

theorem mem_visibleImports_iff {name : String} :
    name ∈ q.visibleImports n ↔ name ∈ p.visibleImports m := by
  have hid' := h.redeclared.distinctIds hid
  rw [mem_visibleImports hid hm, mem_visibleImports hid' hn]
  exact ⟨h.symm.sees hid' hmn.symm hn hm, h.sees hid hmn hm hn⟩

end DeclaredAlike

end Project

/-! ## Reordered declarations -/

/-- The dependencies in another order. -/
def Configuration.Reorders (c d : Configuration) : Prop :=
  ∃ dependencies, c.dependencies.Perm dependencies ∧ d = { c with dependencies := dependencies }

theorem Configuration.Reorders.alike {c d : Configuration} (h : c.Reorders d) : c.Alike d := by
  obtain ⟨dependencies, hperm, rfl⟩ := h
  exact ⟨rfl, rfl, rfl, fun _ => hperm.mem_iff.symm⟩

/-- The configurations in another order, each with its dependencies in another order. -/
def BuildModule.Reorders (m n : BuildModule) : Prop :=
  ∃ cs ds, m.configurations.Perm cs ∧ List.Forall₂ Configuration.Reorders cs ds ∧
    n = { m with configurations := ds }

theorem BuildModule.Reorders.alike {m n : BuildModule} (h : m.Reorders n) : m.Alike n := by
  obtain ⟨cs, ds, hperm, hcs, rfl⟩ := h
  refine ⟨⟨ds, rfl⟩, fun c hc => ?_, fun d hd => ?_⟩
  · obtain ⟨d, hd, hcd⟩ := exists_of_forall₂ hcs (hperm.mem_iff.1 hc)
    exact ⟨d, hd, hcd.alike⟩
  · obtain ⟨c, hc, hcd⟩ := exists_of_forall₂ hcs.flip hd
    exact ⟨c, hperm.mem_iff.2 hc, (Configuration.Reorders.alike hcd).symm⟩

/-- The modules in the same order, with their declarations in another one. -/
structure Project.Reordered (p q : Project) : Prop where
  files : q.files = p.files
  settings : q.settings = p.settings
  modules : List.Forall₂ BuildModule.Reorders p.modules q.modules

theorem Project.Reordered.declaredAlike {p q : Project} (h : p.Reordered q) : p.DeclaredAlike q :=
  ⟨h.files, h.settings, h.modules.imp fun _ _ hmn => hmn.alike⟩

end DependencyLint
