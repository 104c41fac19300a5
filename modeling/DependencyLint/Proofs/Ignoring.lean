import DependencyLint.Proofs.DirectRun
import DependencyLint.Proofs.Isolation

/-!
# Ignored dependencies

A module can have dependencies that are not reported. For module dependencies the list of ignored
names is looked at when a finding is due, for libraries when the list of libraries is made, so that
the files of an ignored library are not even opened.

**Theorem (`ignoring_removes_exactly`).** Ignoring one more name removes the findings about this name
and changes nothing else. A check that succeeds still succeeds, and no finding of any rule is ever
about an ignored name, whatever the session was asked before and wherever in a run the module is
checked.

Libraries are told apart by their texts when their classes are kept. All libraries of the ignored
text leave the list together, so the first one of any other text stays the first
(`firstNamed_ignoring`), and the remaining libraries are shown with the same classes.
-/

namespace DependencyLint

open Query Session

/-! ## Settings with more ignored names -/

/-- The settings `t` are the settings `s`, except that the names in effect for the module `id` have
all of `names` among them as well. -/
structure Settings.IgnoresAll (s t : Settings) (id : String) (names : List String) : Prop where
  others : { t with ignored := s.ignored, modules := s.modules } = s
  ignored : ∀ other, other ∈ (t.forModule id).ignored ↔
    other ∈ names ∨ other ∈ (s.forModule id).ignored

theorem Settings.IgnoresAll.exclude {s t : Settings} {id : String} {names : List String}
    (h : s.IgnoresAll t id names) : t.exclude = s.exclude :=
  (congrArg Settings.exclude h.others :)

/-- The settings `t` are the settings `s`, except that the names in effect for the module `id` have
`name` among them as well. Whether this is set for the module or for the project does not matter. -/
structure Settings.IgnoresAlso (s t : Settings) (id name : String) : Prop where
  others : { t with ignored := s.ignored, modules := s.modules } = s
  ignored : ∀ other, other ∈ (t.forModule id).ignored ↔
    other = name ∨ other ∈ (s.forModule id).ignored

theorem Settings.IgnoresAlso.ignoresAll {s t : Settings} {id name : String}
    (h : s.IgnoresAlso t id name) : s.IgnoresAll t id [name] where
  others := h.others
  ignored := by
    intro other
    rw [List.mem_singleton]
    exact h.ignored other

theorem Settings.IgnoresAlso.exclude {s t : Settings} {id name : String}
    (h : s.IgnoresAlso t id name) : t.exclude = s.exclude :=
  h.ignoresAll.exclude

theorem Settings.IgnoresAlso.checks {s t : Settings} {id name : String}
    (h : s.IgnoresAlso t id name) : t.checks = s.checks :=
  (congrArg Settings.checks h.others :)

namespace Project

/-- The project with other settings. -/
def withSettings (project : Project) (t : Settings) : Project := { project with settings := t }

section SameSources

variable {project : Project} {t : Settings} (h : t.exclude = project.settings.exclude)

include h

theorem excludeGlobs_withSettings :
    (project.withSettings t).settings.excludeGlobs = project.settings.excludeGlobs := by
  rw [Settings.excludeGlobs, Settings.excludeGlobs, ← h]
  rfl

theorem readSources_withSettings :
    (project.withSettings t).readSources = project.readSources := by
  funext m
  rw [readSources, readSources, globs, globs, excludeGlobs_withSettings h]
  rfl

theorem sourceFiles_withSettings :
    (project.withSettings t).sourceFiles = project.sourceFiles := by
  funext m
  rw [sourceFiles, sourceFiles, readSources_withSettings h]

theorem isIndexable_withSettings :
    (project.withSettings t).IsIndexable ↔ project.IsIndexable := by
  have hglobs : (project.withSettings t).globs = project.globs := by
    rw [globs, globs, excludeGlobs_withSettings h]
  constructor
  · rintro ⟨hg, hsources⟩
    rw [excludeGlobs_withSettings h, hglobs] at hg
    rw [readSources_withSettings h, sourceFiles_withSettings h] at hsources
    exact ⟨hg, hsources⟩
  · rintro ⟨hg, hsources⟩
    rw [← excludeGlobs_withSettings h, ← hglobs] at hg
    rw [← readSources_withSettings h, ← sourceFiles_withSettings h] at hsources
    exact ⟨hg, hsources⟩

theorem sourceImports_withSettings :
    (project.withSettings t).sourceImports = project.sourceImports := by
  funext m
  rw [sourceImports, sourceImports, sourceFiles_withSettings h]

theorem moduleIndex_withSettings :
    (project.withSettings t).moduleIndex = project.moduleIndex := by
  rw [moduleIndex, moduleIndex, sourceFiles_withSettings h]
  rfl

/-- What a rule says about a library depends on sources and declarations alone. -/
theorem verdict_withSettings (m : BuildModule) (rule : Rule) :
    rule.verdict (project.withSettings t) m = rule.verdict project m := by
  funext library
  cases rule with
  | unusedModules => rfl
  | unusedLibraries =>
    have himports : (project.withSettings t).visibleImports m = project.visibleImports m := by
      rw [visibleImports, visibleImports, dependencyModules, dependencyModules,
        moduleIndex_withSettings h, sourceImports_withSettings h]
      rfl
    rw [Rule.verdict, Rule.verdict, himports]
  | custom check =>
    have hsummary : (project.withSettings t).summary m = project.summary m := by
      rw [summary, summary, sourceFiles_withSettings h]
    rw [Rule.verdict, Rule.verdict, hsummary]

theorem unusedKind_withSettings (m : BuildModule) (id : String) :
    (project.withSettings t).unusedKind m id = project.unusedKind m id := by
  rw [unusedKind, unusedKind, moduleIndex_withSettings h, sourceImports_withSettings h]

end SameSources

/-! ## What is left of the findings -/

section IgnoringAll

variable {project : Project} {t : Settings} {m : BuildModule} {names : List String}
  (h : project.settings.IgnoresAll t m.id names)

include h

theorem isIgnored_ignoringAll (other : String) :
    ((project.withSettings t).settingsFor m).isIgnored other =
      (decide (other ∈ names) || (project.settingsFor m).isIgnored other) := by
  have hiff := h.ignored other
  rw [Bool.eq_iff_iff]
  simpa [ModuleSettings.isIgnored, settingsFor, withSettings] using hiff

/-- Libraries: the names are looked at when all declarations have been looked up. -/
theorem librariesOf_ignoringAll :
    (project.withSettings t).librariesOf m =
      (project.librariesOf m).map (·.filter fun library => library.fullName ∉ names) := by
  rw [librariesOf, librariesOf, BuildModule.checkedLibraries, BuildModule.checkedLibraries]
  cases m.resolvedLibraries with
  | error e => rfl
  | ok all =>
    refine congrArg Except.ok ?_
    simp only [List.filter_filter, isIgnored_ignoringAll h, Bool.not_or, decide_not]

end IgnoringAll

section Ignoring

variable {project : Project} {t : Settings} {m : BuildModule} {name : String}
  (h : project.settings.IgnoresAlso t m.id name)

include h

theorem isIgnored_ignoring (other : String) :
    ((project.withSettings t).settingsFor m).isIgnored other =
      (decide (other = name) || (project.settingsFor m).isIgnored other) := by
  rw [isIgnored_ignoringAll h.ignoresAll]
  simp only [List.mem_singleton]

/-- Module dependencies: the name is looked at after the imports. -/
theorem moduleFindings_ignoring :
    (project.withSettings t).moduleFindings m =
      (project.moduleFindings m).filter fun finding => finding.dependency ≠ name := by
  rw [moduleFindings, moduleFindings, moduleIndex_withSettings h.exclude, List.filter_filterMap]
  apply List.filterMap_congr
  intro id _
  have hspared : (project.withSettings t).isSpared m id =
      (decide (id = name) || project.isSpared m id) := by
    rw [isSpared, isSpared, moduleIndex_withSettings h.exclude, sourceImports_withSettings h.exclude,
      isIgnored_ignoring h, Bool.or_left_comm]
  rw [moduleFinding?, moduleFinding?, hspared, unusedKind_withSettings h.exclude]
  by_cases hname : id = name
  · cases project.isSpared m id <;> simp [hname, Rule.finding, Option.filter]
  · cases project.isSpared m id <;> simp [hname, Rule.finding, Option.filter]

theorem librariesOf_ignoring {libraries : List DeclaredLibrary}
    (hl : project.librariesOf m = .ok libraries) :
    (project.withSettings t).librariesOf m =
      .ok (libraries.filter fun library => library.fullName ≠ name) := by
  rw [librariesOf_ignoringAll h.ignoresAll, hl]
  simp only [List.mem_singleton]
  rfl

end Ignoring

end Project

/-- The libraries of another text are not affected: the first of them stays the first. -/
theorem firstNamed_ignoring (known : List ResolvedLibrary) (libraries : List DeclaredLibrary)
    {name text : String} (h : text ≠ name) :
    firstNamed (known ++ (libraries.filter fun library => library.fullName ≠ name).map (·.resolved))
        text =
      firstNamed (known ++ libraries.map (·.resolved)) text := by
  rw [firstNamed_append, firstNamed_append]
  congr 1
  induction libraries with
  | nil => rfl
  | cons library rest ih =>
    by_cases hname : library.fullName = name
    · have hskip : firstNamed [library.resolved] text = none := by
        apply firstNamed_singleton_of_ne
        intro htext
        exact h (htext.trans hname)
      rw [List.filter_cons_of_neg (by simp [hname]), List.map_cons, ih, ← List.singleton_append,
        firstNamed_append, hskip, Option.none_or]
    · rw [List.filter_cons_of_pos (by simp [hname]), List.map_cons, List.map_cons,
        ← List.singleton_append, firstNamed_append, ih, ← firstNamed_append, List.singleton_append]

/-- Results for some of the items are some of the results. -/
theorem mapM_filter_eq_ok {α β ε : Type} {f g : α → Except ε β} {p : α → Bool} {q : β → Bool}
    {l : List α} (hf : ∀ a b, f a = .ok b → q b = p a) (hg : ∀ a ∈ l, p a = true → g a = f a)
    {found : List β} (h : l.mapM f = .ok found) : (l.filter p).mapM g = .ok (found.filter q) := by
  induction l generalizing found with
  | nil =>
    cases h
    rfl
  | cons a l ih =>
    obtain ⟨b, bs, hb, hbs, rfl⟩ := mapM_cons_eq_ok h
    have hrest := ih (fun a' ha' => hg a' (List.mem_cons_of_mem a ha')) hbs
    cases hp : p a with
    | true =>
      rw [List.filter_cons_of_pos hp, List.filter_cons_of_pos (by rw [hf a b hb, hp]), List.mapM_cons,
        hg a List.mem_cons_self hp, hb, hrest]
      rfl
    | false =>
      rw [List.filter_cons_of_neg (by simp [hp]),
        List.filter_cons_of_neg (by rw [hf a b hb, hp]; simp), hrest]

namespace Project

variable {project : Project} {t : Settings} {m : BuildModule} {name : String}

/-- The remaining libraries are shown with the same classes. -/
theorem contentsAfter_ignoring (h : project.settings.IgnoresAlso t m.id name)
    {known : List ResolvedLibrary} {contents : List LibraryContent}
    (hc : project.contentsAfter known m = .ok contents) :
    (project.withSettings t).contentsAfter known m =
      .ok (contents.filter fun library => library.fullName ≠ name) := by
  obtain ⟨libraries, hl, -, hc⟩ := contentsAfter_eq_ok hc
  rw [contentsAfter, librariesOf_ignoring h hl]
  refine mapM_filter_eq_ok ?_ ?_ hc
  · intro library content hcontent
    obtain ⟨classes, -, hcontent⟩ := bind_eq_ok hcontent
    cases hcontent
    rfl
  · intro library _ hname
    have hother : library.fullName ≠ name := by simpa using hname
    have hfirst := firstNamed_ignoring known libraries hother
    have hclasses : (project.withSettings t).classesAmong
        (known ++ (libraries.filter fun library => library.fullName ≠ name).map (·.resolved))
        library.resolved =
          project.classesAmong (known ++ libraries.map (·.resolved)) library.resolved := by
      rw [DeclaredLibrary.fullName] at hfirst
      rw [classesAmong, classesAmong, hfirst]
      rfl
    rw [hclasses]

/-- Findings about the remaining libraries are the remaining findings. -/
theorem findings_ignoring (h : project.settings.IgnoresAlso t m.id name)
    (contents : List LibraryContent) (rule : Rule) :
    rule.findings (project.withSettings t) m
        (contents.filter fun library => library.fullName ≠ name) =
      (rule.findings project m contents).filter fun finding => finding.dependency ≠ name := by
  cases hr : rule.readsContents with
  | false =>
    cases rule with
    | unusedModules => exact moduleFindings_ignoring h
    | unusedLibraries => cases hr
    | custom check => cases hr
  | true =>
    rw [Rule.findings_of_reads hr, Rule.findings_of_reads hr, verdict_withSettings h.exclude,
      List.filter_filterMap, List.filterMap_filter]
    apply List.filterMap_congr
    intro library _
    cases hverdict : rule.verdict project m library with
    | none => simp
    | some finding =>
      have hdependency := Rule.dependency_of_verdict hverdict
      by_cases hname : library.fullName = name
      · simp [hname, hdependency, Option.filter]
      · simp [hname, hdependency, Option.filter]

end Project

/-! ## Checking one rule -/

section Check

variable {project : Project} {m : BuildModule} {rule : Rule}

/-- Without an index, every check fails. -/
theorem Rule.check_unbuilt (rule : Rule) {s : Session} (hs : Unbuilt project s) :
    (rule.check m).answer project s = (.error .uninitialized, s) := by
  obtain ⟨exclude, index, sources, imports, libraries, contents, classes⟩ := s
  obtain ⟨rfl, -, rfl, rfl, rfl, rfl⟩ := hs
  cases rule <;> rfl

theorem buildIndex_ok_of_check (hid : project.DistinctIds) {found : List Finding}
    (h : ((rule.check m).answer project project.freshSession).1 = .ok found) :
    (Query.buildIndex.answer project {}).1 = .ok () := by
  rw [buildIndex_ok_iff hid]
  by_contra hnot
  rw [rule.check_unbuilt (unbuilt_freshSession hid hnot)] at h
  cases h

/-- **One more ignored name.** The check still succeeds, and its findings are the remaining ones. -/
theorem Rule.check_ignoring (hid : project.DistinctIds) (hm : m ∈ project.modules) {t : Settings}
    {name : String} (h : project.settings.IgnoresAlso t m.id name) {found : List Finding}
    (hfound : ((rule.check m).answer project project.freshSession).1 = .ok found) :
    ((rule.check m).answer (project.withSettings t) (project.withSettings t).freshSession).1 =
      .ok (found.filter fun finding => finding.dependency ≠ name) := by
  have hok := buildIndex_ok_of_check hid hfound
  have hid' : (project.withSettings t).DistinctIds := hid
  have hok' : (Query.buildIndex.answer (project.withSettings t) {}).1 = .ok () := by
    rw [buildIndex_ok_iff hid] at hok
    rw [buildIndex_ok_iff hid']
    exact (Project.isIndexable_withSettings h.exclude).2 hok
  rw [Rule.check_fresh hid hm hok] at hfound
  obtain ⟨contents, hcontents, rfl⟩ := map_eq_ok hfound
  have hcontents' :
      (if rule.readsContents then (project.withSettings t).contentsAfter [] m else .ok []) =
        .ok (contents.filter fun library => library.fullName ≠ name) := by
    cases hr : rule.readsContents with
    | true =>
      rw [hr, if_pos rfl] at hcontents
      rw [if_pos rfl, Project.contentsAfter_ignoring h hcontents]
    | false =>
      rw [hr, if_neg Bool.false_ne_true] at hcontents
      cases hcontents
      rfl
  rw [Rule.check_fresh hid' hm hok', hcontents', ← Project.findings_ignoring h]
  rfl

end Check

/-! ## Whatever was asked before -/

section Histories

variable {project : Project} {m : BuildModule}

/-- The contents are those of the libraries of the module, in their order. Whose classes they show is
left open. -/
def Project.Shows (project : Project) (m : BuildModule) (contents : List LibraryContent) : Prop :=
  ∃ libraries, project.librariesOf m = .ok libraries ∧
    contents.map (·.fullName) = libraries.map (·.fullName)

/-- What is kept about the contents of a module are contents of its libraries. -/
def ShowsLibraries (project : Project) (contents : List (String × List LibraryContent))
    (_ : List (String × List String)) : Prop :=
  ∀ m ∈ project.modules, ∀ found, contents.lookup m.id = some found → project.Shows m found

theorem ensures_libraryContents (hid : project.DistinctIds) (hm : m ∈ project.modules) :
    Ensures project (Ready project (ShowsLibraries project)) (libraryContents m) (project.Shows m) := by
  have hclasses : ∀ library, Ensures project (Ready project (ShowsLibraries project))
      (libraryClasses library) fun _ => True := fun _ =>
    ensures_libraryClasses (fun _ _ _ _ => trivial) fun _ hs _ _ => ⟨{ hs with }, trivial⟩
  refine ensures_libraryContents_of hid hm (fun _ _ hK => hK m hm)
    (fun _ _ _ hK hfound => forall_lookup_cons hid hK hm hfound) fun libraries hlibraries => ?_
  refine Ensures.mono (Ensures.mapM fun library _ => ensures_contentOf (hclasses library.resolved)) ?_
  intro contents hcontents
  refine ⟨libraries, hlibraries, map_eq_of_forall₂ hcontents ?_⟩
  rintro library _ ⟨classes, -, rfl⟩
  rfl

/-- Along every history, nothing but contents of libraries of the module is kept for a module. -/
theorem showsLibraries_after (hid : project.DistinctIds) (history : List (Sigma Request))
    (hh : ∀ r ∈ history, r.2.IsWithin project) :
    ShowsLibraries project (Session.after project {} history).contents
      (Session.after project {} history).classes :=
  kept_after hid (fun m _ found hfound => by cases hfound)
    (fun m hm => (ensures_libraryContents hid hm).keeps) history hh

end Histories

/-! ## No finding about an ignored name -/

section NotIgnored

variable {project : Project} {m : BuildModule} {rule : Rule}

/-- What is shown for a module are libraries that it does not ignore. -/
theorem Rule.not_ignored_of_mem_findings (hid : project.DistinctIds) (hm : m ∈ project.modules)
    {contents : List LibraryContent} (hc : rule.readsContents = true → project.Shows m contents)
    {finding : Finding} (hf : finding ∈ rule.findings project m contents) :
    finding.dependency ∉ (project.settingsFor m).ignored := by
  cases hr : rule.readsContents with
  | false =>
    cases rule with
    | unusedModules =>
      have hdependency : finding.dependency ∈ (project.moduleFindings m).map (·.dependency) :=
        List.mem_map_of_mem hf
      rw [Project.map_dependency_moduleFindings hid hm, List.mem_filter, Bool.not_eq_true',
        Project.isSpared_eq_false_iff hid] at hdependency
      exact hdependency.2.2
    | unusedLibraries => cases hr
    | custom check => cases hr
  | true =>
    rw [findings_of_reads hr] at hf
    obtain ⟨content, hcontent, hverdict⟩ := List.mem_filterMap.1 hf
    obtain ⟨libraries, hl, hnames⟩ := hc hr
    obtain ⟨all, -, rfl⟩ := map_eq_ok hl
    have hname : finding.dependency ∈ contents.map (·.fullName) := by
      rw [dependency_of_verdict hverdict]
      exact List.mem_map_of_mem hcontent
    rw [hnames] at hname
    obtain ⟨library, hlibrary, hname⟩ := List.mem_map.1 hname
    rw [← hname]
    simpa [ModuleSettings.isIgnored] using (List.mem_filter.1 hlibrary).2

/-- In a session that keeps nothing else, no check finds anything about an ignored name. -/
theorem Rule.not_ignored_of_check (hid : project.DistinctIds) (hm : m ∈ project.modules)
    {s : Session} (hs : Ready project (ShowsLibraries project) s) {found : List Finding}
    (h : ((rule.check m).answer project s).1 = .ok found) {finding : Finding}
    (hf : finding ∈ found) : finding.dependency ∉ (project.settingsFor m).ignored := by
  obtain ⟨contents, hshows, rfl⟩ :=
    (ensures_check hid hm (ensures_libraryContents hid hm) rule s hs).2 found h
  exact not_ignored_of_mem_findings hid hm hshows hf

/-- The same where a run checks the module behind others. -/
theorem Project.not_ignored_of_findingsAfter (hid : project.DistinctIds) (hm : m ∈ project.modules)
    {rules : List Rule} {known : List ResolvedLibrary} {found : List Finding}
    (h : project.findingsAfter rules known m = .ok found) {finding : Finding} (hf : finding ∈ found) :
    finding.dependency ∉ (project.settingsFor m).ignored := by
  obtain ⟨contents, hcontents, rfl⟩ := map_eq_ok h
  obtain ⟨rule, hrule, hf⟩ := List.mem_flatMap.1 hf
  refine Rule.not_ignored_of_mem_findings hid hm (fun hr => ?_) hf
  rw [if_pos (readsContents_of_mem hrule hr)] at hcontents
  exact fullNames_of_contentsAfter hcontents

end NotIgnored

/-! ## A project with two unused libraries -/

namespace TwoUnused

open TwoLibraries (app)

/-- Settings with a list of ignored names for the module `app`. -/
def settings (ignored : List String) : Settings :=
  { modules := [("app", { ignored := some ignored })] }

/-- The module `app` declares two libraries and imports nothing. -/
def sample : Project where
  files := .ofEntries [("lib.jar", .file (Archive.ofEntry "lib/Lib.class")),
    ("old.jar", .file (Archive.ofEntry "old/Old.class"))]
  manifest := ⟨[app]⟩
  settings := settings ["org:new:1"]

def unused (name : String) : Finding :=
  ⟨"DS002", "unused-library-dependency", "app", name, .unusedLibrary⟩

theorem check_sample :
    ((Rule.unusedLibraries.check app).answer sample sample.freshSession).1 =
      .ok [unused "org:lib:1", unused "org:old:1"] :=
  eq_ok_of_toOption (by decide +kernel)

theorem ignoresAlso :
    sample.settings.IgnoresAlso (settings ["org:new:1", "org:old:1"]) "app" "org:old:1" where
  others := rfl
  ignored := by
    intro other
    simp [sample, settings, Settings.forModule, or_comm]

end TwoUnused

/-! ## The theorem -/

variable {project : Project} {m : BuildModule}

/-- **Ignoring is exactly a filter.** Where one more name is ignored for a module, the same rules
apply, every check of the module that succeeds still succeeds, and it finds what it found before less
the findings about this name, in the same order. No check of a module finds anything about an ignored
name, neither after any history of requests nor where the module is checked in a run. -/
theorem ignoring_removes_exactly (hid : project.DistinctIds) (hm : m ∈ project.modules) :
    (∀ t name, project.settings.IgnoresAlso t m.id name →
      (∀ extra, Rule.defaults t extra = Rule.defaults project.settings extra) ∧
      ∀ (rule : Rule) found,
        ((rule.check m).answer project project.freshSession).1 = .ok found →
        ((rule.check m).answer (project.withSettings t) (project.withSettings t).freshSession).1 =
          .ok (found.filter fun finding => finding.dependency ≠ name)) ∧
    (∀ history, (∀ r ∈ history, r.2.IsWithin project) → ∀ (rule : Rule) found,
      ((rule.check m).answer project (Session.after project {} history)).1 = .ok found →
      ∀ finding ∈ found, finding.dependency ∉ (project.settingsFor m).ignored) ∧
    ∀ rules result earlier later, project.analyze rules = .ok result →
      project.enabledModules = earlier ++ m :: later →
      ∃ front found back,
        ((analyzeModule rules m).answer project (project.sessionAfter rules earlier)).1 = .ok found ∧
        result.findings = front ++ found ++ back ∧
        ∀ finding ∈ found, finding.dependency ∉ (project.settingsFor m).ignored := by
  refine ⟨?_, ?_, ?_⟩
  · intro t name h
    refine ⟨fun extra => ?_, fun rule found => Rule.check_ignoring hid hm h⟩
    rw [Rule.defaults, Rule.defaults, h.checks]
  · intro history hh rule found h finding hf
    rcases after_unbuilt_or_ready hid history hh with ⟨-, hunbuilt⟩ | ⟨-, hready⟩
    · rw [rule.check_unbuilt hunbuilt] at h
      cases h
    · exact Rule.not_ignored_of_check hid hm
        { hready with kept := showsLibraries_after hid history hh } h hf
  · intro rules result earlier later hrun hsplit
    obtain ⟨hready, front, found, back, -, hfound, hresult⟩ := checked_in_run hid hrun hsplit
    refine ⟨front.flatten, found, back.flatten, ?_, hresult, ?_⟩
    · rw [analyzeModule_answer hid hm (enabled_split hid hsplit).2.2 hready, hfound]
    · intro finding hf
      exact Project.not_ignored_of_findingsAfter hid hm hfound hf

open TwoUnused TwoLibraries in
theorem ignoring_one_of_two_libraries :
    ((Rule.unusedLibraries.check app).answer TwoUnused.sample TwoUnused.sample.freshSession).1 =
        .ok [unused "org:lib:1", unused "org:old:1"] ∧
      ((Rule.unusedLibraries.check app).answer
        (TwoUnused.sample.withSettings (settings ["org:new:1", "org:old:1"]))
        (TwoUnused.sample.withSettings (settings ["org:new:1", "org:old:1"])).freshSession).1 =
          .ok [unused "org:lib:1"] := by
  have hm : app ∈ TwoUnused.sample.modules := by decide
  obtain ⟨-, hremoves⟩ := (ignoring_removes_exactly (by decide) hm).1 _ _ ignoresAlso
  exact ⟨check_sample, hremoves _ _ check_sample⟩

end DependencyLint
