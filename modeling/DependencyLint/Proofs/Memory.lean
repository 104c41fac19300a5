import DependencyLint.Analysis
import DependencyLint.Proofs.Answers
import Mathlib.Data.List.Nodup

/-!
# What a session remembers

A session keeps what it has found, by the id of the module. Nothing that it keeps is out of date,
because the project does not change: each query answers what can be computed from the project
without any session.

**Direct answers** (`Project.sourceFiles`, `Project.moduleIndex`, ...). The answers as functions of
the project alone.

**The invariants.** Before it has its index, a session keeps nothing but source files
(`Session.Unbuilt`): some may have been read before another one could not be. A session with its index
is `Session.Ready`: every table agrees with the direct answers, for the modules of the project. The two
tables about the contents of libraries are not of this kind and are left to a parameter `K`, so that
each query is also shown to leave them alone.

**Main results.** Building the index makes an unbuilt session ready if the project is `IsIndexable`,
and otherwise fails and leaves the session unbuilt. Every query in a ready session gives its direct
answer and leaves the session ready.
-/

namespace DependencyLint

/-! ## Direct answers -/

namespace Project

/-- No two modules have the same id. This is so in every manifest that was read. -/
def DistinctIds (project : Project) : Prop := (project.modules.map (·.id)).Nodup

instance (project : Project) : Decidable project.DistinctIds :=
  inferInstanceAs (Decidable (project.modules.map (·.id)).Nodup)

/-- The patterns of left-out sources; none where one of them is not a glob. -/
def globs (project : Project) : List Glob := project.settings.excludeGlobs.toOption.getD []

/-- The source files of a module, or why they cannot be read. -/
def readSources (project : Project) (m : BuildModule) : Except Failure (List SourceFile) :=
  (SourceFile.ofModule project.files project.globs m).mapError .sourceRead

/-- The source files of a module; none where they cannot be read. -/
def sourceFiles (project : Project) (m : BuildModule) : List SourceFile :=
  (project.readSources m).toOption.getD []

/-- All patterns of left-out sources are globs, and the sources of all modules can be read. -/
structure IsIndexable (project : Project) : Prop where
  globs : project.settings.excludeGlobs = .ok project.globs
  sources : ∀ m ∈ project.modules, project.readSources m = .ok (project.sourceFiles m)

def sourceImports (project : Project) (m : BuildModule) : List String :=
  ((project.sourceFiles m).flatMap (·.imports)).eraseDups

def moduleIndex (project : Project) : ModuleIndex :=
  ModuleIndex.ofSources project.manifest (project.modules.map fun m => (m, project.sourceFiles m))

def dependencyModules (project : Project) (m : BuildModule) : List BuildModule :=
  (project.moduleIndex.dependencies m.id).filterMap fun edge => project.find? edge.id

def summary (project : Project) (m : BuildModule) : ModuleSummary :=
  ⟨m.label, (project.sourceFiles m).map SourceFile.summary⟩

/-- The libraries of a module that are checked, or why they cannot be told. -/
def librariesOf (project : Project) (m : BuildModule) : Except Failure (List DeclaredLibrary) :=
  m.checkedLibraries (project.settingsFor m)

theorem DistinctIds.eq_of_id {project : Project} (hid : project.DistinctIds) {m n : BuildModule}
    (hm : m ∈ project.modules) (hn : n ∈ project.modules) (h : m.id = n.id) : m = n :=
  List.inj_on_of_nodup_map hid hm hn h

end Project

/-! ## Tables by module -/

/-- A table that is right about all modules stays so when an entry is made that is right. -/
theorem forall_lookup_cons {β : Type} {project : Project} (hid : project.DistinctIds)
    {P : BuildModule → β → Prop} {table : List (String × β)}
    (h : ∀ n ∈ project.modules, ∀ found, table.lookup n.id = some found → P n found)
    {m : BuildModule} (hm : m ∈ project.modules) {found : β} (hfound : P m found) :
    ∀ n ∈ project.modules, ∀ other,
      List.lookup n.id ((m.id, found) :: table) = some other → P n other := by
  intro n hn other hl
  by_cases hmn : n.id = m.id
  · obtain rfl := hid.eq_of_id hn hm hmn
    rw [List.lookup_cons_self, Option.some.injEq] at hl
    rwa [← hl]
  · rw [List.lookup_cons, beq_false_of_ne hmn] at hl
    exact h n hn other hl

/-- What the table holds for a module of the project is the value of that module. -/
def Recalls {β : Type} (project : Project) (table : List (String × β))
    (value : BuildModule → Except Failure β) : Prop :=
  ∀ m ∈ project.modules, ∀ found, table.lookup m.id = some found → value m = .ok found

section Recalls

variable {β : Type} {project : Project} {table : List (String × β)}
  {value : BuildModule → Except Failure β}

theorem Recalls.nil : Recalls project ([] : List (String × β)) value := by
  intro m _ found h
  simp at h

theorem Recalls.cons (hid : project.DistinctIds) (h : Recalls project table value)
    {m : BuildModule} (hm : m ∈ project.modules) {found : β} (hv : value m = .ok found) :
    Recalls project ((m.id, found) :: table) value :=
  forall_lookup_cons (P := fun n found => value n = .ok found) hid h hm hv

end Recalls

/-! ## Sessions without and with an index -/

/-- A session without an index. It keeps nothing but source files. -/
structure Session.Unbuilt (project : Project) (s : Session) : Prop where
  index_eq : s.index = none
  sources : Recalls project s.sources project.readSources
  imports : s.imports = []
  libraries : s.libraries = []
  contents : s.contents = []
  classes : s.classes = []

theorem Session.unbuilt_empty (project : Project) : Unbuilt project {} :=
  ⟨rfl, .nil, rfl, rfl, rfl, rfl⟩

/-- A session with its index: all that is kept by the id of a module agrees with the direct answers.
`K` is what is known about the two tables of library contents. -/
structure Session.Ready (project : Project)
    (K : List (String × List LibraryContent) → List (String × List String) → Prop) (s : Session) :
    Prop where
  indexable : project.IsIndexable
  exclude : s.exclude = project.globs
  index_eq : s.index = some project.moduleIndex
  sources : Recalls project s.sources project.readSources
  imports : Recalls project s.imports fun m => .ok (project.sourceImports m)
  libraries : Recalls project s.libraries project.librariesOf
  kept : K s.contents s.classes

namespace Query

open Session

variable {project : Project} {m : BuildModule}
  {K : List (String × List LibraryContent) → List (String × List String) → Prop}

/-- Source files are read as they are without a session, under every invariant that says enough about
the sources that are kept and lets more of them be kept. -/
theorem answers_loadSources {I : Session → Prop} (hid : project.DistinctIds)
    (hm : m ∈ project.modules) (hexclude : ∀ s, I s → s.exclude = project.globs)
    (hsources : ∀ s, I s → Recalls project s.sources project.readSources)
    (hcons : ∀ s, I s → ∀ sources, Recalls project sources project.readSources →
      I { s with sources }) :
    Answers project I (loadSources m) (project.readSources m) I := by
  intro s hs
  simp only [loadSources, answer_bind, answer_get]
  cases hl : s.sources.lookup m.id with
  | some found => exact ⟨(hsources s hs m hm found hl).symm, hs⟩
  | none =>
    have hread : (SourceFile.ofModule project.files s.exclude m).mapError .sourceRead =
        project.readSources m := by
      rw [hexclude s hs, Project.readSources]
    simp only [answer_bind, answer_read, answer_get, answer_ofExcept, hread]
    cases hv : project.readSources m with
    | error e => exact ⟨rfl, hs⟩
    | ok found => exact ⟨rfl, hcons s hs _ ((hsources s hs).cons hid hm hv)⟩

/-! ## Building the index -/

/-- The source files of all modules are loaded before there is an index. -/
theorem answers_loadAll (hid : project.DistinctIds) :
    Answers project (fun s => Unbuilt project s ∧ s.exclude = project.globs)
      (project.modules.mapM fun m => do let files ← loadSources m; pure (m, files))
      (project.modules.mapM fun m => do let files ← project.readSources m; pure (m, files))
      (fun s => Unbuilt project s ∧ s.exclude = project.globs) := by
  refine Answers.mapM_inv fun m hm => Answers.bind_inv ?_ fun files => Answers.pure (m, files)
  exact answers_loadSources hid hm (fun _ hs => hs.2) (fun _ hs => hs.1.sources)
    fun _ hs _ hsources => ⟨{ hs.1 with sources := hsources }, hs.2⟩

theorem mapM_readSources (h : project.IsIndexable) :
    (project.modules.mapM fun m => do let files ← project.readSources m; pure (m, files)) =
      .ok (project.modules.map fun m => (m, project.sourceFiles m)) := by
  refine mapM_eq_ok fun m hm => ?_
  rw [h.sources m hm]
  rfl

/-- **Building the index makes a session ready,** if it can be built. -/
theorem answers_buildIndex (hid : project.DistinctIds) (hK : K [] []) (h : project.IsIndexable) :
    Answers project (Unbuilt project) buildIndex (.ok ()) (Ready project K) := by
  intro s hs
  obtain ⟨s', hload, hs', hexclude⟩ := (answers_loadAll hid).answer_eq
    (s := { s with exclude := project.globs }) ⟨{ hs with }, rfl⟩
  rw [mapM_readSources h, hs.index_eq] at hload
  simp only [buildIndex, answer_bind, answer_get, answer_read, answer_ofExcept, answer_modify, h.globs,
    hs.index_eq, Option.isNone_none, if_true, Except.mapError, hload]
  refine ⟨trivial, h, hexclude, rfl, hs'.sources, ?_, ?_, ?_⟩
  · rw [hs'.imports]
    exact .nil
  · rw [hs'.libraries]
    exact .nil
  · rw [hs'.contents, hs'.classes]
    exact hK

/-- A pattern that is not a glob, or a source that cannot be read, is a failure. -/
theorem answers_buildIndex_error (hid : project.DistinctIds) (h : ¬project.IsIndexable) :
    ∃ e, Answers project (Unbuilt project) buildIndex (.error e) (Unbuilt project) := by
  cases hglobs : project.settings.excludeGlobs with
  | error e =>
    refine ⟨.badPattern e, fun s hs => ?_⟩
    simp only [buildIndex, answer_bind, answer_get, answer_read, answer_ofExcept, hglobs, hs.index_eq,
      Option.isNone_none, if_true, Except.mapError]
    exact ⟨trivial, hs⟩
  | ok globs =>
    have heq : project.globs = globs := by rw [Project.globs, hglobs]; rfl
    cases hread : project.modules.mapM fun m => do
      let files ← project.readSources m
      pure (m, files) with
    | ok found =>
      refine absurd ⟨heq ▸ hglobs, fun m hm => ?_⟩ h
      obtain ⟨entry, hentry⟩ := forall_of_mapM_ok hread m hm
      obtain ⟨files, hfiles, -⟩ := bind_eq_ok hentry
      rw [Project.sourceFiles, hfiles]
      rfl
    | error e =>
      refine ⟨e, fun s hs => ?_⟩
      obtain ⟨s', hload, hs', -⟩ := (answers_loadAll hid).answer_eq
        (s := { s with exclude := project.globs }) ⟨{ hs with }, rfl⟩
      rw [hread, heq, hs.index_eq] at hload
      simp only [buildIndex, answer_bind, answer_get, answer_read, answer_ofExcept, answer_modify,
        hglobs, hs.index_eq, Option.isNone_none, if_true, Except.mapError, hload]
      exact ⟨trivial, hs'⟩

theorem buildIndex_ok_iff_of_unbuilt (hid : project.DistinctIds) {s : Session}
    (hs : Unbuilt project s) :
    (Query.buildIndex.answer project s).1 = .ok () ↔ project.IsIndexable := by
  by_cases h : project.IsIndexable
  · exact iff_of_true (answers_buildIndex (K := fun _ _ => True) hid trivial h s hs).1 h
  · obtain ⟨e, herror⟩ := answers_buildIndex_error hid h
    refine iff_of_false (fun hok => ?_) h
    cases (herror s hs).1.symm.trans hok

theorem answers_buildIndex_again :
    Answers project (Ready project K) buildIndex (.ok ()) (Ready project K) := by
  intro s hs
  simp only [buildIndex, answer_bind, answer_get, hs.index_eq, Option.isNone_some, Bool.false_eq_true,
    if_false, answer_pure]
  exact ⟨trivial, hs⟩

/-! ## Queries in a ready session -/

theorem answers_index :
    Answers project (Ready project K) index (.ok project.moduleIndex) (Ready project K) := by
  intro s hs
  simp only [index, answer_bind, answer_get, hs.index_eq, answer_pure]
  exact ⟨trivial, hs⟩

theorem answers_moduleDependencies (id : String) :
    Answers project (Ready project K) (moduleDependencies id)
      (.ok (project.moduleIndex.dependencies id)) (Ready project K) :=
  answers_index.bind (Answers.pure _)

theorem answers_modulePackages (id : String) :
    Answers project (Ready project K) (modulePackages id)
      (.ok (project.moduleIndex.packagesFor id)) (Ready project K) :=
  answers_index.bind (Answers.pure _)

theorem answers_dependencyModules (m : BuildModule) :
    Answers project (Ready project K) (dependencyModules m) (.ok (project.dependencyModules m))
      (Ready project K) :=
  (answers_moduleDependencies m.id).bind (Answers.read.bind (Answers.pure _))

theorem answers_findSupplier (start : String) (imports : List String) :
    Answers project (Ready project K) (findSupplier start imports)
      (.ok (project.moduleIndex.findSupplier imports start)) (Ready project K) :=
  answers_index.bind (Answers.pure _)

theorem answers_sourceFiles (hid : project.DistinctIds) (hm : m ∈ project.modules) :
    Answers project (Ready project K) (sourceFiles m) (.ok (project.sourceFiles m))
      (Ready project K) := by
  intro s hs
  rw [← hs.indexable.sources m hm]
  refine answers_index.bind (answers_loadSources hid hm ?_ ?_ ?_) s hs
  · exact fun _ hs => hs.exclude
  · exact fun _ hs => hs.sources
  · exact fun _ hs _ hsources => { hs with sources := hsources }

theorem answers_sourceImports (hid : project.DistinctIds) (hm : m ∈ project.modules) :
    Answers project (Ready project K) (sourceImports m) (.ok (project.sourceImports m))
      (Ready project K) := by
  intro s hs
  simp only [sourceImports, answer_bind, answer_get]
  cases hl : s.imports.lookup m.id with
  | some found => exact ⟨(hs.imports m hm found hl).symm, hs⟩
  | none =>
    obtain ⟨s', hload, hs'⟩ := (answers_sourceFiles hid hm).answer_eq hs
    simp only [answer_bind, answer_modify, answer_pure, hload]
    exact ⟨rfl, { hs' with imports := hs'.imports.cons hid hm rfl }⟩

theorem answers_summary (hid : project.DistinctIds) (hm : m ∈ project.modules) :
    Answers project (Ready project K) (summary m) (.ok (project.summary m)) (Ready project K) :=
  (answers_sourceFiles hid hm).bind (Answers.pure _)

theorem answers_libraries (hid : project.DistinctIds) (hm : m ∈ project.modules) :
    Answers project (Ready project K) (libraries m) (project.librariesOf m) (Ready project K) := by
  refine answers_index.bind fun s hs => ?_
  simp only [answer_bind, answer_get]
  cases hl : s.libraries.lookup m.id with
  | some found => exact ⟨(hs.libraries m hm found hl).symm, hs⟩
  | none =>
    simp only [answer_bind, answer_read, answer_ofExcept]
    cases hv : m.checkedLibraries (project.settingsFor m) with
    | error e => exact ⟨hv.symm, hs⟩
    | ok found =>
      simp only [answer_modify, answer_pure]
      exact ⟨hv.symm, { hs with libraries := hs.libraries.cons hid hm hv }⟩

end Query

end DependencyLint
