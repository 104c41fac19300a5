import DependencyLint.Proofs.Run

/-!
# A whole run without a session

A run over all modules can be told without its session, failures included: the modules are taken one
after the other, and each one is checked behind the libraries of those before it
(`Project.blocksAfter`). What is found about one module is a block of the result.

**Main result** (`analyze_eq_ok_iff`). A run succeeds exactly if the index can be built and every
enabled module can be checked behind the ones before it, and its result is the list of the
blocks.
-/

namespace DependencyLint

open Query Session

namespace Project

/-- The findings about modules that are checked one after the other, where the libraries `known` are
indexed: one block for each module. -/
def blocksAfter (project : Project) (rules : List Rule) :
    List ResolvedLibrary → List BuildModule → Except Failure (List (List Finding))
  | _, [] => .ok []
  | known, m :: modules => do
    let found ← project.findingsAfter rules known m
    let others ← project.blocksAfter rules (known ++ project.librariesRead rules [m]) modules
    pure (found :: others)

/-- The blocks of a run over all enabled modules. -/
def blocks (project : Project) (rules : List Rule) : Except Failure (List (List Finding)) :=
  project.blocksAfter rules [] project.enabledModules

theorem blocksAfter_cons_eq_ok {project : Project} {rules : List Rule} {known : List ResolvedLibrary}
    {m : BuildModule} {modules : List BuildModule} {blocks : List (List Finding)} :
    project.blocksAfter rules known (m :: modules) = .ok blocks ↔
      ∃ found others, project.findingsAfter rules known m = .ok found ∧
        project.blocksAfter rules (known ++ project.librariesRead rules [m]) modules = .ok others ∧
        blocks = found :: others := by
  constructor
  · intro h
    obtain ⟨found, hfound, h⟩ := bind_eq_ok h
    obtain ⟨others, hothers, h⟩ := bind_eq_ok h
    cases h
    exact ⟨found, others, hfound, hothers, rfl⟩
  · rintro ⟨found, others, hfound, hothers, rfl⟩
    rw [blocksAfter, hfound]
    simp only [bind, Except.bind, hothers]
    rfl

end Project

section Run

variable {project : Project} {rules : List Rule}

/-- **Checking modules one after the other in a session gives their blocks,** or the failure of the
first module that cannot be checked. -/
theorem mapM_analyzeModule_answer (hid : project.DistinctIds) {modules : List BuildModule}
    (hmem : ∀ n ∈ modules, n ∈ project.modules) (hnodup : (modules.map (·.id)).Nodup)
    {known : List ResolvedLibrary} {s : Session}
    (hs : Ready project (Tables project (Unasked modules) known) s) :
    ((modules.mapM (analyzeModule rules)).answer project s).1 =
      project.blocksAfter rules known modules := by
  induction modules generalizing known s with
  | nil => rfl
  | cons m modules ih =>
    rw [List.map_cons, List.nodup_cons] at hnodup
    have hm : m ∈ project.modules := hmem m List.mem_cons_self
    have hrest : ∀ n ∈ modules, n.id ≠ m.id := by
      intro n hn heq
      exact hnodup.1 (heq ▸ List.mem_map_of_mem hn)
    rw [List.mapM_cons, answer_bind, Project.blocksAfter]
    cases hfound : project.findingsAfter rules known m with
    | error e =>
      obtain ⟨s', hanswer, -⟩ := (answers_analyzeModule_error hid hm hfound).answer_eq hs
      rw [hanswer]
      rfl
    | ok found =>
      obtain ⟨s', hanswer, hs'⟩ := (answers_analyzeModule hid hm hrest hfound).answer_eq hs
      have hothers := ih (fun n hn => hmem n (List.mem_cons_of_mem m hn)) hnodup.2 hs'
      rw [hanswer]
      simp only [answer_bind]
      rw [← hothers]
      rcases (modules.mapM (analyzeModule rules)).answer project s' with ⟨e | others, s''⟩ <;> rfl

theorem nodup_enabledModules (hid : project.DistinctIds) :
    (project.enabledModules.map (·.id)).Nodup :=
  List.Nodup.sublist (List.filter_sublist.map _) hid

theorem mem_of_mem_enabledModules {m : BuildModule} (h : m ∈ project.enabledModules) :
    m ∈ project.modules :=
  List.mem_of_mem_filter h

/-- A run whose index was built gives the blocks of its modules. -/
theorem mapM_enabled_answer (hid : project.DistinctIds)
    (hok : (Query.buildIndex.answer project {}).1 = .ok ()) :
    ((project.enabledModules.mapM (analyzeModule rules)).answer project project.freshSession).1 =
      project.blocks rules :=
  mapM_analyzeModule_answer hid (fun _ => mem_of_mem_enabledModules) (nodup_enabledModules hid)
    (ready_freshSession hid ⟨fun _ _ => rfl, Indexes.nil⟩ hok)

theorem analyze_of_buildIndex_ok (hid : project.DistinctIds)
    (hok : (Query.buildIndex.answer project {}).1 = .ok ()) :
    project.analyze rules =
      (project.blocks rules).map fun blocks =>
        ⟨blocks.flatten, project.enabledModules.length⟩ := by
  have hbuild : Query.buildIndex.answer project {} = (.ok (), project.freshSession) :=
    Prod.ext hok rfl
  rw [← mapM_enabled_answer hid hok, Project.analyze, analyzeModules, answer_bind, hbuild]
  simp only [answer_bind, answer_read]
  rw [← Project.enabledModules]
  rcases (project.enabledModules.mapM (analyzeModule rules)).answer project project.freshSession with
    ⟨e | found, s⟩ <;> rfl

/-- **When a run succeeds, and with what result.** -/
theorem analyze_eq_ok_iff (hid : project.DistinctIds) {result : LintResult} :
    project.analyze rules = .ok result ↔
      project.IsIndexable ∧
        ∃ blocks, project.blocks rules = .ok blocks ∧
          result = ⟨blocks.flatten, project.enabledModules.length⟩ := by
  rw [← buildIndex_ok_iff hid]
  constructor
  · intro h
    have hok := (analyze_eq_ok h).1
    rw [analyze_of_buildIndex_ok hid hok] at h
    obtain ⟨blocks, hblocks, hresult⟩ := map_eq_ok h
    exact ⟨hok, blocks, hblocks, hresult.symm⟩
  · rintro ⟨hok, blocks, hblocks, rfl⟩
    rw [analyze_of_buildIndex_ok hid hok, hblocks]
    rfl

end Run

end DependencyLint
