import DependencyLint.Proofs.UnusedModules
import Mathlib.Data.List.Forall2

/-!
# Projects that differ in what is declared

Two projects have the same files, the same settings and the same modules, except that the
configurations of a module may be different ones. Imports and packages come from the source files
alone, so nothing about them changes, and neither does it change which module dependencies are left
alone (`Redeclared.isSpared_eq`). What can change is which modules are declared at all, and
with that what lies below a module.
-/

namespace DependencyLint

open Query

/-- The module `n` is the module `m` with other configurations. -/
def BuildModule.Redeclares (m n : BuildModule) : Prop :=
  ∃ configurations, n = { m with configurations := configurations }

theorem BuildModule.Redeclares.id_eq {m n : BuildModule} (h : m.Redeclares n) : n.id = m.id := by
  obtain ⟨cs, rfl⟩ := h
  rfl

namespace Project

/-- The project `q` differs from the project `p` in the configurations of its modules at most. -/
structure Redeclared (p q : Project) : Prop where
  files : q.files = p.files
  settings : q.settings = p.settings
  modules : List.Forall₂ BuildModule.Redeclares p.modules q.modules

namespace Redeclared

variable {p q : Project} (h : p.Redeclared q) {m n : BuildModule} (hmn : m.Redeclares n)

include h

theorem map_id_eq : q.modules.map (·.id) = p.modules.map (·.id) :=
  map_eq_of_forall₂ h.modules fun _ _ hmn => hmn.id_eq

theorem distinctIds (hid : p.DistinctIds) : q.DistinctIds := by
  rw [DistinctIds, h.map_id_eq]
  exact hid

include hmn

theorem settingsFor_eq : q.settingsFor n = p.settingsFor m := by
  rw [settingsFor, settingsFor, h.settings, hmn.id_eq]

theorem readSources_eq : q.readSources n = p.readSources m := by
  obtain ⟨cs, rfl⟩ := hmn
  rw [readSources, readSources, globs, globs, h.files, h.settings]
  rfl

theorem sourceFiles_eq : q.sourceFiles n = p.sourceFiles m := by
  rw [sourceFiles, sourceFiles, h.readSources_eq hmn]

theorem sourceImports_eq : q.sourceImports n = p.sourceImports m := by
  rw [sourceImports, sourceImports, h.sourceFiles_eq hmn]

omit hmn

/-- The index of the one project can be built where that of the other can. -/
theorem isIndexable (hp : p.IsIndexable) : q.IsIndexable := by
  refine ⟨?_, fun n hn => ?_⟩
  · rw [globs, h.settings]
    exact hp.globs
  · obtain ⟨m, hm, hmn⟩ := exists_of_forall₂ h.modules.flip hn
    rw [h.readSources_eq hmn, h.sourceFiles_eq hmn, hp.sources m hm]

theorem buildIndex_ok (hid : p.DistinctIds) (hok : (Query.buildIndex.answer p {}).1 = .ok ()) :
    (Query.buildIndex.answer q {}).1 = .ok () :=
  (buildIndex_ok_iff (h.distinctIds hid)).2 (h.isIndexable ((buildIndex_ok_iff hid).1 hok))

/-- Packages do not depend on declarations. -/
theorem packagesFor_eq (id : String) :
    q.moduleIndex.packagesFor id = p.moduleIndex.packagesFor id := by
  have hpackages : q.moduleIndex.packages = p.moduleIndex.packages := by
    simp only [moduleIndex, ModuleIndex.ofSources, List.map_map]
    refine map_eq_of_forall₂ h.modules fun m n hmn => ?_
    simp only [Function.comp_apply, hmn.id_eq, h.sourceFiles_eq hmn]
  rw [ModuleIndex.packagesFor, ModuleIndex.packagesFor, hpackages]

include hmn

theorem supplies_eq (id : String) :
    q.moduleIndex.supplies (q.sourceImports n) id = p.moduleIndex.supplies (p.sourceImports m) id := by
  rw [ModuleIndex.supplies, ModuleIndex.supplies, h.packagesFor_eq, h.sourceImports_eq hmn]

/-- **The same dependencies are left alone in both projects.** -/
theorem isSpared_eq (id : String) : q.isSpared n id = p.isSpared m id := by
  rw [isSpared, isSpared, h.packagesFor_eq, h.sourceImports_eq hmn, h.settingsFor_eq hmn]

end Redeclared

end Project

end DependencyLint
