import DependencyLint.Proofs.Ignoring
import DependencyLint.Proofs.Matching

/-!
# Ambiguous libraries

What a session answers when a declared library cannot be told from the libraries that the build
resolved.

**Theorem (`fails_at_first_ambiguous`).** In a session that does not know the libraries of a module
yet, asking for them fails exactly if some declaration is ambiguous. The failure names the first such
declaration and its candidates, and leaves the session as it was. Otherwise every declaration has
picked its library, and the answer holds it unless it is ignored.

**Theorem (`ambiguity_survives_ignoring`).** Ignored libraries are taken out of the list after all
declarations have been looked up. So ignoring a library filters a successful answer and does nothing
about a failure: a module with an ambiguous declaration still fails for it when the declared library
and all its candidates are ignored.
-/

namespace DependencyLint

open Query

/-! ## Asking for libraries -/

section Answer

variable {project : Project} {m : BuildModule}

/-- The answer of a session that does not know the libraries yet. -/
theorem answer_libraries {s : Session} (hindex : s.index.isSome = true)
    (hnew : s.libraries.lookup m.id = none) :
    (libraries m).answer project s =
      match project.librariesOf m with
      | .ok found => (.ok found, { s with libraries := (m.id, found) :: s.libraries })
      | .error e => (.error e, s) := by
  obtain ⟨index, hindex⟩ := Option.isSome_iff_exists.1 hindex
  simp only [libraries, Query.index, answer_bind, answer_get, answer_pure, hindex, hnew, answer_read,
    answer_ofExcept, Project.librariesOf]
  cases m.checkedLibraries (project.settingsFor m) with
  | error e => rfl
  | ok found => simp only [answer_modify, hindex]

theorem answer_libraries_fst {s : Session} (hindex : s.index.isSome = true)
    (hnew : s.libraries.lookup m.id = none) :
    ((libraries m).answer project s).1 = project.librariesOf m := by
  rw [answer_libraries hindex hnew]
  cases project.librariesOf m <;> rfl

/-- A failure leaves the session as it was. -/
theorem answer_libraries_eq_error_iff {s : Session} (hindex : s.index.isSome = true)
    (hnew : s.libraries.lookup m.id = none) {e : Failure} :
    (libraries m).answer project s = (.error e, s) ↔ project.librariesOf m = .error e := by
  rw [answer_libraries hindex hnew]
  cases project.librariesOf m <;> simp

theorem librariesOf_eq_error_iff {e : Failure} :
    project.librariesOf m = .error e ↔ m.resolvedLibraries = .error e :=
  map_eq_error_iff

theorem librariesOf_fails_iff :
    (∃ e, project.librariesOf m = .error e) ↔ ∃ d ∈ m.declarations, m.IsAmbiguous d := by
  rw [← not_iff_not]
  push Not
  rw [← BuildModule.resolvedLibraries_ok_iff_clear]
  simp only [ne_eq, librariesOf_eq_error_iff]
  cases m.resolvedLibraries <;> simp

/-- A library that a declaration picks is in the list, with its files, unless it is ignored. -/
theorem mem_librariesOf_of_picks {found : List DeclaredLibrary}
    (h : project.librariesOf m = .ok found) {d : Declaration} (hd : d ∈ m.declarations)
    {r : ResolvedLibrary} (hr : m.Picks d r) :
    (project.settingsFor m).isIgnored r.coordinate.render = true ∨
      ∃ library ∈ found, library.resolved.coordinate = r.coordinate ∧
        FilesAmong r library.resolved := by
  obtain ⟨all, hall, rfl⟩ := map_eq_ok h
  obtain ⟨hc, haccepted, hlibrary⟩ := BuildModule.mem_declarations.1 hd
  have hselects : m.Selects ⟨d.library, r⟩ :=
    ⟨d.configuration, hc, haccepted, hlibrary, hr.lookUp_eq⟩
  obtain ⟨library, hmem, hcoordinate, hfiles⟩ :=
    (BuildModule.collects_resolvedLibraries hall).covers _ hselects
  cases hignored : (project.settingsFor m).isIgnored r.coordinate.render with
  | true => exact Or.inl rfl
  | false =>
    refine Or.inr ⟨library, List.mem_filter.2 ⟨hmem, ?_⟩, hcoordinate, hfiles⟩
    rw [DeclaredLibrary.fullName, hcoordinate, hignored, Bool.not_false]

end Answer

/-! ## Versions that differ from the declared ones -/

namespace Drifted

def resolved (artifact version requester : String) : ResolvedLibrary :=
  ⟨⟨"org", artifact, version⟩, [requester], [⟨artifact ++ version ++ ".jar"⟩]⟩

/-- One library is there as declared and in another version. The other one was resolved to another
version, and as declared it is there for a library only. -/
def clear : Configuration where
  name := "api"
  canBeResolved := true
  dependencies := [.onLibrary ⟨"org", "lib", "1"⟩, .onLibrary ⟨"org", "old", "1"⟩]
  resolved := [resolved "lib" "2" ":app:", resolved "lib" "1" ":app:", resolved "old" "1" "org:lib:1",
    resolved "old" "2" ":app:"]

/-- One library is there in two other versions, and one is missing. -/
def unclear : Configuration where
  name := "implementation"
  canBeResolved := true
  dependencies := [.onLibrary ⟨"org", "new", "1"⟩, .onLibrary ⟨"org", "gone", "1"⟩]
  resolved := [resolved "new" "2" ":app:", resolved "new" "3" ":app:"]

def app (configurations : List Configuration) : BuildModule where
  id := "app"
  name := "app"
  directory := ⟨"app"⟩
  configurations := configurations

def sample (configurations : List Configuration) : Project where
  files := .empty
  manifest := ⟨[app configurations]⟩
  settings := {}

/-- Settings that ignore the library that is there in two versions. -/
def settings : Settings :=
  { modules := [("app", { ignored := some ["org:new:1", "org:new:2", "org:new:3"] })] }

def failure : Failure :=
  .ambiguous "app" ⟨"org", "new", "1"⟩ [⟨"org", "new", "2"⟩, ⟨"org", "new", "3"⟩]

/-- The third declaration is the first that is ambiguous, and the last one is ambiguous too. -/
theorem first_ambiguous :
    ∃ earlier d later, (app [clear, unclear]).declarations = earlier ++ d :: later ∧
      (∀ other ∈ earlier, ¬(app [clear, unclear]).IsAmbiguous other) ∧
      (app [clear, unclear]).IsAmbiguous d ∧
      failure = .ambiguous "app" d.library
        (((app [clear, unclear]).candidates d).map (·.coordinate)) := by
  refine ⟨[⟨clear, ⟨"org", "lib", "1"⟩⟩, ⟨clear, ⟨"org", "old", "1"⟩⟩],
    ⟨unclear, ⟨"org", "new", "1"⟩⟩, [⟨unclear, ⟨"org", "gone", "1"⟩⟩], rfl, ?_, ?_, rfl⟩
  · decide
  · decide

theorem librariesOf_sample :
    (sample [clear, unclear]).librariesOf (app [clear, unclear]) = .error failure :=
  librariesOf_eq_error_iff.2 (BuildModule.resolvedLibraries_eq_error_iff.2 first_ambiguous)

end Drifted

/-! ## The first ambiguous declaration -/

/-- **Asking for the libraries of a module fails exactly at the first ambiguous declaration.** The
failure lists the candidates of that declaration, and nothing is kept of it. Without a failure every
declaration has picked one of the libraries that the module itself asked for, and that library is in
the answer unless it is ignored. -/
theorem fails_at_first_ambiguous {project : Project} {m : BuildModule} {s : Session}
    (hindex : s.index.isSome = true) (hnew : s.libraries.lookup m.id = none) :
    ((∃ e, ((libraries m).answer project s).1 = .error e) ↔
      ∃ c ∈ m.configurations, c.isAccepted = true ∧
        ∃ library ∈ c.libraries, m.IsAmbiguous ⟨c, library⟩) ∧
    (∀ e, (libraries m).answer project s = (.error e, s) ↔
      ∃ earlier d later, m.declarations = earlier ++ d :: later ∧
        (∀ other ∈ earlier, ¬m.IsAmbiguous other) ∧ m.IsAmbiguous d ∧
        e = .ambiguous m.id d.library ((m.candidates d).map (·.coordinate))) ∧
    ∀ found, ((libraries m).answer project s).1 = .ok found → ∀ d ∈ m.declarations,
      ∃ r ∈ d.configuration.resolved, m.Picks d r ∧ m.fullName ∈ r.requestedBy ∧
        r.coordinate.group = d.library.group ∧ r.coordinate.artifact = d.library.artifact ∧
        (m.HasExact d → r.coordinate.version = d.library.version) ∧
        ((project.settingsFor m).isIgnored r.coordinate.render = true ∨
          ∃ library ∈ found, library.resolved.coordinate = r.coordinate ∧
            FilesAmong r library.resolved) := by
  rw [answer_libraries_fst hindex hnew, librariesOf_fails_iff]
  refine ⟨?_, fun e => ?_, fun found hfound d hd => ?_⟩
  · constructor
    · rintro ⟨d, hd, hambiguous⟩
      obtain ⟨hc, haccepted, hlibrary⟩ := BuildModule.mem_declarations.1 hd
      exact ⟨d.configuration, hc, haccepted, d.library, hlibrary, hambiguous⟩
    · rintro ⟨c, hc, haccepted, library, hlibrary, hambiguous⟩
      exact ⟨⟨c, library⟩, BuildModule.mem_declarations.2 ⟨hc, haccepted, hlibrary⟩, hambiguous⟩
  · rw [answer_libraries_eq_error_iff hindex hnew, librariesOf_eq_error_iff,
      BuildModule.resolvedLibraries_eq_error_iff]
  · obtain ⟨all, hall, -⟩ := map_eq_ok hfound
    have hclear := BuildModule.resolvedLibraries_ok_iff_clear.1 ⟨all, hall⟩ d hd
    obtain ⟨r, hr⟩ := BuildModule.not_isAmbiguous_iff.1 hclear
    obtain ⟨hmem, hrequested, hgroup, hartifact, hversion⟩ := hr.spec
    exact ⟨r, hmem, hr, hrequested, hgroup, hartifact, hversion,
      mem_librariesOf_of_picks hfound hd hr⟩

open Drifted in
/-- Two declarations are ambiguous and the first of them is the failure. Without their configuration
the library of another version is picked. -/
theorem drifted_versions_fail_at_first :
    (libraries (app [clear, unclear])).answer (sample [clear, unclear])
        (sample [clear, unclear]).freshSession =
      (.error failure, (sample [clear, unclear]).freshSession) ∧
    ∃ found, ((libraries (app [clear])).answer (sample [clear]) (sample [clear]).freshSession).1 =
        .ok found ∧
      ∃ library ∈ found, library.resolved.coordinate = ⟨"org", "old", "2"⟩ := by
  constructor
  · exact ((fails_at_first_ambiguous (by decide +kernel) (by decide +kernel)).2.1 failure).2
      first_ambiguous
  · obtain ⟨hfails, -, hpicks⟩ := @fails_at_first_ambiguous (sample [clear]) (app [clear])
      (sample [clear]).freshSession (by decide +kernel) (by decide +kernel)
    cases h : ((libraries (app [clear])).answer (sample [clear]) (sample [clear]).freshSession).1 with
    | error e => exact absurd (hfails.1 ⟨e, h⟩) (by decide)
    | ok found =>
      obtain ⟨r, hmem, -, hrequested, -, hartifact, -, hshown⟩ := hpicks found h
        ⟨clear, ⟨"org", "old", "1"⟩⟩ (BuildModule.mem_declarations.2 (by decide))
      have honly : ∀ r ∈ clear.resolved, (app [clear]).fullName ∈ r.requestedBy →
          r.coordinate.artifact = "old" → r.coordinate = ⟨"org", "old", "2"⟩ := by
        decide
      rw [honly r hmem hrequested hartifact] at hshown
      rcases hshown with hignored | ⟨library, hlibrary, hcoordinate, -⟩
      · exact absurd hignored (by decide)
      · exact ⟨found, rfl, library, hlibrary, hcoordinate⟩

/-! ## Ignoring an ambiguous library -/

section Ignoring

variable {project : Project} {m : BuildModule}

theorem answer_libraries_fresh (hid : project.DistinctIds) (hm : m ∈ project.modules)
    (h : project.IsIndexable) :
    ((libraries m).answer project project.freshSession).1 = project.librariesOf m := by
  have hready := ready_freshSession (K := fun _ _ => True) hid trivial ((buildIndex_ok_iff hid).2 h)
  exact (answers_libraries hid hm _ hready).1

theorem answer_libraries_unindexed (hid : project.DistinctIds) (h : ¬project.IsIndexable) :
    ((libraries m).answer project project.freshSession).1 = .error .uninitialized :=
  congrArg Prod.fst ((Request.libraries m).answer_unbuilt rfl (unbuilt_freshSession hid h))

/-- Ignored names are taken out of a list, and a failure stays as it is. -/
theorem answer_libraries_ignoringAll (hid : project.DistinctIds) (hm : m ∈ project.modules)
    {t : Settings} {names : List String} (h : project.settings.IgnoresAll t m.id names) :
    ((libraries m).answer (project.withSettings t) (project.withSettings t).freshSession).1 =
      ((libraries m).answer project project.freshSession).1.map
        (·.filter fun library => library.fullName ∉ names) := by
  -- The excluded files are the same, so the index can be built under both settings or under none.
  have hid' : (project.withSettings t).DistinctIds := hid
  have hiff := Project.isIndexable_withSettings h.exclude
  by_cases hi : project.IsIndexable
  · rw [answer_libraries_fresh hid hm hi, answer_libraries_fresh hid' hm (hiff.2 hi),
      Project.librariesOf_ignoringAll h]
  · rw [answer_libraries_unindexed hid hi, answer_libraries_unindexed hid' (mt hiff.1 hi)]
    rfl

/-- **Ignoring a library does not help where it is ambiguous.** With more ignored names the answer for
a module is the same failure as before, or what is left of the same list. So a module that fails for a
declared library still fails for it when this library and all its candidates are ignored. -/
theorem ambiguity_survives_ignoring (hid : project.DistinctIds) (hm : m ∈ project.modules) :
    (∀ names t, project.settings.IgnoresAll t m.id names →
      ((libraries m).answer (project.withSettings t) (project.withSettings t).freshSession).1 =
        ((libraries m).answer project project.freshSession).1.map
          (·.filter fun library => library.fullName ∉ names)) ∧
    ∀ declared candidates t,
      ((libraries m).answer project project.freshSession).1 =
        .error (.ambiguous m.id declared candidates) →
      project.settings.IgnoresAll t m.id ((declared :: candidates).map Coordinate.render) →
      (∀ c ∈ declared :: candidates,
        ((project.withSettings t).settingsFor m).isIgnored c.render = true) ∧
      ((libraries m).answer (project.withSettings t) (project.withSettings t).freshSession).1 =
        .error (.ambiguous m.id declared candidates) := by
  refine ⟨fun names t => answer_libraries_ignoringAll hid hm, fun declared candidates t hfails h => ?_⟩
  constructor
  · intro c hc
    rw [Project.isIgnored_ignoringAll h, decide_eq_true (List.mem_map_of_mem hc), Bool.true_or]
  · rw [answer_libraries_ignoringAll hid hm h, hfails]
    rfl

end Ignoring

open Drifted in
theorem ignored_library_still_ambiguous :
    ((libraries (app [clear, unclear])).answer (sample [clear, unclear])
        (sample [clear, unclear]).freshSession).1 = .error failure ∧
    ((libraries (app [clear, unclear])).answer ((sample [clear, unclear]).withSettings settings)
        ((sample [clear, unclear]).withSettings settings).freshSession).1 = .error failure := by
  have hfails : ((libraries (app [clear, unclear])).answer (sample [clear, unclear])
      (sample [clear, unclear]).freshSession).1 = .error failure := by
    rw [answer_libraries_fst (by decide +kernel) (by decide +kernel), librariesOf_sample]
  have hignores : (sample [clear, unclear]).settings.IgnoresAll settings "app"
      ["org:new:1", "org:new:2", "org:new:3"] := by
    refine ⟨rfl, fun other => ?_⟩
    simp [sample, settings, Settings.forModule]
  have hm : app [clear, unclear] ∈ (sample [clear, unclear]).modules := by decide
  exact ⟨hfails, ((ambiguity_survives_ignoring (by decide) hm).2 _ _ settings hfails hignores).2⟩

end DependencyLint
