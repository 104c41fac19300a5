import DependencyLint.Proofs.Redeclared
import DependencyLint.Proofs.Replacements

/-!
# Acting on a finding

A finding about a module dependency says what to do: declare the proposed module in its place, or
delete it. The edit is made in the production configurations of the checked module, wherever the
dependency is declared (`Project.actOn`).

**Theorem (`acting_resolves_exactly`).** After the edit, the rule reports the same
dependencies in the same order, without the one that was acted on.

The edit changes no source file, so a dependency that was left alone still is. The proposed module is
one that the checked module imports from, hence it is left alone wherever it is put: it
may be declared elsewhere already, and it may be the checked module itself.
-/

namespace DependencyLint

open Query Session

/-! ## The edit -/

/-- The dependency that stands in the place of another one: references to the module `id` are
replaced, or deleted where there is no replacement. -/
def Dependency.redirect (id : String) (replacement : Option String) (dependency : Dependency) :
    Option Dependency :=
  if dependency = .onModule id then replacement.map .onModule else some dependency

def Configuration.redirect (id : String) (replacement : Option String) (c : Configuration) :
    Configuration :=
  if c.isProduction then
    { c with dependencies := c.dependencies.filterMap (·.redirect id replacement) }
  else c

def BuildModule.redirect (id : String) (replacement : Option String) (m : BuildModule) :
    BuildModule :=
  { m with configurations := m.configurations.map (·.redirect id replacement) }

/-- The module that a finding proposes. -/
def Finding.replacement? (finding : Finding) : Option String :=
  match finding.kind with
  | .replaceableModule r => some r
  | _ => none

/-- The module after someone has acted on a finding about it. -/
def BuildModule.actOn (m : BuildModule) (finding : Finding) : BuildModule :=
  m.redirect finding.dependency finding.replacement?

/-- The project after someone has acted on a finding about the module `m`. -/
def Project.actOn (project : Project) (m : BuildModule) (finding : Finding) : Project :=
  { project with
    manifest := ⟨project.modules.map fun n => if n = m then m.actOn finding else n⟩ }

/-! ## What is declared afterwards -/

/-- The id that stands in the place of another one. -/
def redirectId (id : String) (replacement : Option String) (declared : String) : Option String :=
  if declared = id then replacement else some declared

theorem Dependency.bind_moduleId?_redirect (id : String) (replacement : Option String)
    (dependency : Dependency) :
    (dependency.redirect id replacement).bind Dependency.moduleId? =
      dependency.moduleId?.bind (redirectId id replacement) := by
  rw [redirect]
  cases dependency with
  | onLibrary library => rfl
  | onModule declared =>
    by_cases h : declared = id
    · subst h
      cases replacement <;> simp [redirectId, moduleId?]
    · simp [redirectId, moduleId?, h]

theorem Configuration.isProduction_redirect (id : String) (replacement : Option String)
    (c : Configuration) : (c.redirect id replacement).isProduction = c.isProduction := by
  rw [redirect]
  split_ifs <;> rfl

theorem Configuration.moduleIds_redirect {c : Configuration} (h : c.isProduction = true)
    (id : String) (replacement : Option String) :
    (c.redirect id replacement).moduleIds = c.moduleIds.filterMap (redirectId id replacement) := by
  rw [redirect, if_pos h, moduleIds, moduleIds, List.filterMap_filterMap, List.filterMap_filterMap]
  congr 1
  funext dependency
  exact dependency.bind_moduleId?_redirect id replacement

/-- The declared ids are replaced or deleted in their places. -/
theorem BuildModule.declaredIds_redirect (id : String) (replacement : Option String)
    (m : BuildModule) :
    (m.redirect id replacement).declaredIds =
      m.declaredIds.filterMap (redirectId id replacement) := by
  rw [declaredIds, declaredIds, redirect, List.filter_map, List.flatMap_map, List.filterMap_flatMap]
  simp only [Function.comp_def, Configuration.isProduction_redirect]
  refine List.flatMap_congr fun c hc => ?_
  exact Configuration.moduleIds_redirect (List.mem_filter.1 hc).2 id replacement

/-! ## What is reported afterwards -/

/-- Erasing repetitions and leaving items out can be done in either order. -/
theorem filter_eraseDups {α : Type} [BEq α] [LawfulBEq α] (p : α → Bool) :
    ∀ l : List α, l.eraseDups.filter p = (l.filter p).eraseDups
  | [] => by simp
  | x :: l => by
    rw [List.eraseDups_cons, List.filter_cons, List.filter_cons,
      filter_eraseDups p (l.filter fun b => !b == x), List.filter_filter, List.filter_congr
        (fun b _ => Bool.and_comm (p b) (!b == x)), ← List.filter_filter]
    cases hx : p x with
    | true => rw [if_pos rfl, if_pos rfl, List.eraseDups_cons]
    | false =>
      -- The item itself is left out, so its repetitions are gone already.
      have hself : (l.filter p).filter (fun b => !b == x) = l.filter p := by
        rw [List.filter_eq_self]
        intro b hb
        have hb := (List.mem_filter.1 hb).2
        rw [Bool.not_eq_true', beq_eq_false_iff_ne]
        rintro rfl
        rw [hx] at hb
        cases hb
      rw [if_neg Bool.false_ne_true, if_neg Bool.false_ne_true, hself]
termination_by l => l.length
decreasing_by exact Nat.lt_succ_of_le (List.length_filter_le _ _)

/-- Where the replacement is not kept, an edited list keeps what the list keeps, without the id that
was replaced. -/
theorem filter_filterMap_redirectId {id : String} {replacement : Option String} {p : String → Bool}
    (hr : ∀ r ∈ replacement, p r = false) (ids : List String) :
    (ids.filterMap (redirectId id replacement)).filter p = (ids.filter p).filter (· ≠ id) := by
  rw [List.filter_filterMap, List.filter_filter, ← List.filterMap_eq_filter]
  congr 1
  funext declared
  rw [redirectId, Option.guard]
  by_cases h : declared = id
  · cases replacement with
    | none => simp [h]
    | some r => simp [h, hr r rfl]
  · cases hp : p declared <;> simp [h, hp]

/-- The same for the dependencies of a module. -/
theorem BuildModule.filter_moduleDependencies_redirect {id : String} {replacement : Option String}
    {p : String → Bool} (hr : ∀ r ∈ replacement, p r = false) (m : BuildModule) :
    (m.redirect id replacement).moduleDependencies.filter p =
      (m.moduleDependencies.filter p).filter (· ≠ id) := by
  have hids : (m.redirect id replacement).moduleDependencies =
      ((m.declaredIds.filterMap (redirectId id replacement)).filter (· ≠ m.id)).eraseDups := by
    rw [← declaredIds_redirect]
    rfl
  have hown : m.moduleDependencies = (m.declaredIds.filter (· ≠ m.id)).eraseDups := by
    rw [moduleDependencies, declaredIds]
  have hskip : ∀ ids : List String, (ids.filter (· ≠ m.id)).filter p =
      ids.filter fun declared => p declared && decide (declared ≠ m.id) :=
    fun _ => List.filter_filter
  have hr : ∀ r ∈ replacement, (p r && decide (r ≠ m.id)) = false := by
    intro r hmem
    rw [hr r hmem, Bool.false_and]
  rw [hids, hown, filter_eraseDups, filter_eraseDups, filter_eraseDups, hskip, hskip,
    filter_filterMap_redirectId hr]

section ActOn

variable {project : Project} {m : BuildModule} {finding : Finding}

theorem Finding.replacement?_eq_some {r : String} (h : r ∈ finding.replacement?) :
    finding.kind = .replaceableModule r := by
  rw [replacement?] at h
  split at h
  next hkind => rw [hkind, Option.mem_some_iff.1 h]
  next => cases h

/-- What is proposed is left alone. -/
theorem Project.isSpared_replacement (hid : project.DistinctIds)
    (hf : finding ∈ project.moduleFindings m) {r : String} (hr : r ∈ finding.replacement?) :
    project.isSpared m r = true := by
  have hkind := Finding.replacement?_eq_some hr
  rw [eq_finding_of_mem_moduleFindings hf] at hkind
  have himports : project.ImportsFrom m r :=
    ((unusedKind_eq_replaceable_iff hid).1 hkind).importsFrom
  by_contra hspared
  exact ((isSpared_eq_false_iff hid).1 (Bool.eq_false_iff.2 hspared)).1 himports

theorem Project.redeclared_actOn (project : Project) (m : BuildModule) (finding : Finding) :
    project.Redeclared (project.actOn m finding) where
  files := rfl
  settings := rfl
  modules := by
    rw [show (project.actOn m finding).modules =
      project.modules.map fun n => if n = m then m.actOn finding else n from rfl,
      List.forall₂_map_right_iff, List.forall₂_same]
    intro n _
    split_ifs with hn
    · exact ⟨_, by rw [hn]; rfl⟩
    · exact ⟨n.configurations, rfl⟩

theorem Project.mem_modules_actOn (hm : m ∈ project.modules) (finding : Finding) :
    m.actOn finding ∈ (project.actOn m finding).modules :=
  List.mem_map.2 ⟨m, hm, if_pos rfl⟩

/-- The findings without a session, before and after. -/
theorem Project.map_dependency_actOn (hid : project.DistinctIds) (hm : m ∈ project.modules)
    (hf : finding ∈ project.moduleFindings m) :
    ((project.actOn m finding).moduleFindings (m.actOn finding)).map (·.dependency) =
      ((project.moduleFindings m).map (·.dependency)).filter (· ≠ finding.dependency) := by
  have hproject := project.redeclared_actOn m finding
  have hmodule : m.Redeclares (m.actOn finding) := ⟨_, rfl⟩
  rw [map_dependency_moduleFindings (hproject.distinctIds hid) (mem_modules_actOn hm finding),
    map_dependency_moduleFindings hid hm]
  simp only [hproject.isSpared_eq hmodule]
  refine BuildModule.filter_moduleDependencies_redirect (fun r hr => ?_) m
  rw [isSpared_replacement hid hf hr, Bool.not_true]

end ActOn

/-! ## The theorem -/

/-- **Acting on a finding resolves it and causes no other.** Both projects are checked in any session
with an index, and the index of the edited project can be built. -/
theorem acting_resolves_exactly {project : Project} (hid : project.DistinctIds)
    {history : List (Sigma Request)} (hh : ∀ r ∈ history, r.2.IsWithin project)
    (hbuilt : IndexBuilt project history) {m : BuildModule} (hm : m ∈ project.modules)
    {found : List Finding}
    (hfound : ((Rule.unusedModules.check m).answer project (Session.after project {} history)).1 =
      .ok found)
    {finding : Finding} (hf : finding ∈ found) :
    (Query.buildIndex.answer (project.actOn m finding) {}).1 = .ok () ∧
    ∀ later : List (Sigma Request), (∀ r ∈ later, r.2.IsWithin (project.actOn m finding)) →
      IndexBuilt (project.actOn m finding) later →
      ∃ left,
        ((Rule.unusedModules.check (m.actOn finding)).answer (project.actOn m finding)
          (Session.after (project.actOn m finding) {} later)).1 = .ok left ∧
        left.map (·.dependency) = (found.map (·.dependency)).filter (· ≠ finding.dependency) := by
  have hproject := project.redeclared_actOn m finding
  have hid' := hproject.distinctIds hid
  rw [Project.answer_checkModules hid hh hbuilt hm] at hfound
  cases hfound
  refine ⟨hproject.buildIndex_ok hid (hbuilt.ready hid hh).1, fun later hlater hbuilt' => ?_⟩
  have hm' := Project.mem_modules_actOn hm finding
  exact ⟨_, Project.answer_checkModules hid' hlater hbuilt' hm',
    Project.map_dependency_actOn hid hm hf⟩

open PoorProposals in
theorem poor_proposals_can_be_acted_on :
    ∃ found,
      ((Rule.unusedModules.check app).answer sample (Session.after sample {} history)).1 = .ok found ∧
      found.map (·.dependency) = ["ui", "shell"] ∧
      ∀ finding ∈ found, ∃ left,
        ((Rule.unusedModules.check (app.actOn finding)).answer (sample.actOn app finding)
          (Session.after (sample.actOn app finding) {} history)).1 = .ok left ∧
        left.map (·.dependency) = ["ui", "shell"].filter (· ≠ finding.dependency) := by
  have hid : sample.DistinctIds := by decide
  have hm : app ∈ sample.modules := by decide
  have hfound := Project.answer_checkModules hid (by decide) indexBuilt_history hm
  refine ⟨_, hfound, reported hfound, fun finding hf => ?_⟩
  obtain ⟨hok, hlater⟩ :=
    acting_resolves_exactly hid (by decide) indexBuilt_history hm hfound hf
  obtain ⟨left, hleft, hids⟩ := hlater history
    (fun r hr n hn => by rw [List.mem_singleton.1 hr] at hn; cases hn) ⟨[], [], rfl, hok⟩
  exact ⟨left, hleft, by rw [hids, reported hfound]⟩

end DependencyLint
