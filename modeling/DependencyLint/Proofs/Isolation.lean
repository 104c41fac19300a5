import DependencyLint.Proofs.Regrouping

/-!
# Modules in a run and on their own

A run checks all modules in one session, and the session keeps the classes of a library by the text
of its coordinate. A module can therefore be shown the classes of files that another module has
under the same coordinate, and what is reported about it need not be what a check of this
module alone would report (`SharedName.analyze_sample`).

**Theorem (`found_as_alone_iff`).** In a run that succeeds, a rule finds about a module what it
finds about the module alone exactly if, for each library of the module, the files of the library
itself can be read and the rule says the same about their classes as about the classes that were
indexed first under its name (`Rule.JudgesAlike`). If this holds of all rules, the module is checked
as if it were alone; and then it does not matter which other modules are enabled and in
which order they come.
-/

namespace DependencyLint

open Query Session

/-! ## Alone or not -/

/-- Behind the modules `earlier` of a run, the check of `m` finds what it finds in a session of its
own. -/
def Project.FindsAsAlone (project : Project) (rules : List Rule) (earlier : List BuildModule)
    (m : BuildModule) : Prop :=
  ((analyzeModule rules m).answer project (project.sessionAfter rules earlier)).1 =
    ((analyzeModule rules m).answer project project.freshSession).1

/-- The same for one rule. -/
def Rule.FindsAsAlone (rule : Rule) (project : Project) (rules : List Rule)
    (earlier : List BuildModule) (m : BuildModule) : Prop :=
  ((rule.check m).answer project (project.sessionAfter rules earlier)).1 =
    ((rule.check m).answer project project.freshSession).1

/-- A library with the given classes in it. -/
def DeclaredLibrary.content (library : DeclaredLibrary) (classes : List String) : LibraryContent :=
  ⟨library.fullName, library.declared, classes⟩

/-- The rule says the same about a library with the classes of its own files as with the classes
that are shown for it where the libraries `known` are indexed. -/
def Rule.JudgesAlike (rule : Rule) (project : Project) (known : List ResolvedLibrary)
    (m : BuildModule) (library : DeclaredLibrary) : Prop :=
  ∃ own shown, library.resolved.classes project.files = .ok own ∧
    project.classesAmong known library.resolved = .ok shown ∧
    rule.verdict project m (library.content own) = rule.verdict project m (library.content shown)

/-- The rule reads no contents, or it judges all libraries of the module alike, with their own
classes and with those that the modules `earlier` of a run have left. -/
def Rule.IsUnaffected (rule : Rule) (project : Project) (rules : List Rule)
    (earlier : List BuildModule) (m : BuildModule) : Prop :=
  rule.readsContents = true → ∀ libraries, project.librariesOf m = .ok libraries →
    ∀ library ∈ libraries,
      rule.JudgesAlike project (project.librariesRead rules earlier) m library

/-! ## Verdicts and findings -/

/-- What a rule says about a library is a finding of this rule about this library. -/
theorem Rule.eq_finding_of_verdict {rule : Rule} {project : Project} {m : BuildModule}
    {library : LibraryContent} {finding : Finding}
    (h : rule.verdict project m library = some finding) :
    finding = rule.finding m library.fullName finding.kind := by
  cases rule with
  | unusedModules => cases h
  | unusedLibraries =>
    rw [verdict] at h
    split_ifs at h
    cases h
    rfl
  | custom check =>
    simp only [verdict] at h
    split_ifs at h
    cases h
    rfl

theorem Rule.dependency_of_verdict {rule : Rule} {project : Project} {m : BuildModule}
    {library : LibraryContent} {finding : Finding}
    (h : rule.verdict project m library = some finding) : finding.dependency = library.fullName := by
  rw [eq_finding_of_verdict h]
  rfl

/-- Libraries with different names can be told apart in the findings about them. -/
theorem eq_some_of_filterMap_eq {libraries : List DeclaredLibrary}
    (hnodup : (libraries.map (·.fullName)).Nodup) {f g : DeclaredLibrary → Option Finding}
    (hf : ∀ library finding, f library = some finding → finding.dependency = library.fullName)
    (hg : ∀ library finding, g library = some finding → finding.dependency = library.fullName)
    (h : libraries.filterMap f = libraries.filterMap g) {library : DeclaredLibrary}
    (hl : library ∈ libraries) {finding : Finding} (hfinding : f library = some finding) :
    g library = some finding := by
  have hmem : finding ∈ libraries.filterMap g := h ▸ List.mem_filterMap.2 ⟨library, hl, hfinding⟩
  obtain ⟨other, hother, hfound⟩ := List.mem_filterMap.1 hmem
  have hname : other.fullName = library.fullName := by
    rw [← hg other finding hfound, hf library finding hfinding]
  rwa [← List.inj_on_of_nodup_map hnodup hother hl hname]

theorem filterMap_eq_filterMap_iff {libraries : List DeclaredLibrary}
    (hnodup : (libraries.map (·.fullName)).Nodup) {f g : DeclaredLibrary → Option Finding}
    (hf : ∀ library finding, f library = some finding → finding.dependency = library.fullName)
    (hg : ∀ library finding, g library = some finding → finding.dependency = library.fullName) :
    libraries.filterMap f = libraries.filterMap g ↔ ∀ library ∈ libraries, f library = g library :=
  ⟨fun h _ hl => Option.ext fun _ =>
    ⟨eq_some_of_filterMap_eq hnodup hf hg h hl, eq_some_of_filterMap_eq hnodup hg hf h.symm hl⟩,
    List.filterMap_congr⟩

/-- Contents that are answered show some classes for each library. -/
theorem exists_shown {project : Project} {known : List ResolvedLibrary}
    {libraries : List DeclaredLibrary} {contents : List LibraryContent}
    (h : project.contentsAmong known libraries = .ok contents) :
    ∃ shown : DeclaredLibrary → List String,
      (∀ library ∈ libraries, project.classesAmong known library.resolved = .ok (shown library)) ∧
      contents = libraries.map fun library => library.content (shown library) := by
  have hshown : ∀ library ∈ libraries, ∃ shown,
      project.classesAmong known library.resolved = .ok shown := by
    intro library hl
    obtain ⟨content, hcontent⟩ := forall_of_mapM_ok h library hl
    obtain ⟨shown, hshown, -⟩ := bind_eq_ok hcontent
    exact ⟨shown, hshown⟩
  choose! shown hshown using hshown
  refine ⟨shown, hshown, Except.ok.inj (h.symm.trans (mapM_eq_ok fun library hl => ?_))⟩
  rw [hshown library hl]
  rfl

/-- Contents that are answered are those of the libraries of the module, in their order. -/
theorem Project.fullNames_of_contentsAfter {project : Project} {m : BuildModule}
    {known : List ResolvedLibrary} {contents : List LibraryContent}
    (h : project.contentsAfter known m = .ok contents) :
    ∃ libraries, project.librariesOf m = .ok libraries ∧
      contents.map (·.fullName) = libraries.map (·.fullName) := by
  obtain ⟨libraries, hl, -, hc⟩ := contentsAfter_eq_ok h
  obtain ⟨shown, -, rfl⟩ := exists_shown hc
  refine ⟨libraries, hl, ?_⟩
  rw [List.map_map]
  rfl

/-- Contents are given for all libraries of the module, whatever was indexed before. -/
theorem Project.map_fullName_contentsAfter {project : Project} {m : BuildModule}
    {known known' : List ResolvedLibrary} {contents contents' : List LibraryContent}
    (h : project.contentsAfter known m = .ok contents)
    (h' : project.contentsAfter known' m = .ok contents') :
    contents.map (·.fullName) = contents'.map (·.fullName) := by
  obtain ⟨libraries, hl, hnames⟩ := fullNames_of_contentsAfter h
  obtain ⟨libraries', hl', hnames'⟩ := fullNames_of_contentsAfter h'
  cases hl.symm.trans hl'
  rw [hnames, hnames']

section Alike

variable {project : Project} {m : BuildModule} {libraries : List DeclaredLibrary}
  {known : List ResolvedLibrary} {rule : Rule}

/-- The findings about libraries whose classes are `own` or `shown`. -/
theorem Rule.findings_eq_iff (hr : rule.readsContents = true)
    (hnodup : (libraries.map (·.fullName)).Nodup) (own shown : DeclaredLibrary → List String) :
    rule.findings project m (libraries.map fun library => library.content (shown library)) =
        rule.findings project m (libraries.map fun library => library.content (own library)) ↔
      ∀ library ∈ libraries, rule.verdict project m (library.content (own library)) =
        rule.verdict project m (library.content (shown library)) := by
  rw [findings_of_reads hr, findings_of_reads hr, List.filterMap_map, List.filterMap_map, eq_comm]
  exact filterMap_eq_filterMap_iff hnodup (fun _ _ h => dependency_of_verdict h)
    fun _ _ h => dependency_of_verdict h

/-- A rule finds the same in both sessions exactly if it judges each library alike. -/
theorem Rule.map_findings_eq_iff (hapart : m.TellsLibrariesApart) (hr : rule.readsContents = true)
    (hl : project.librariesOf m = .ok libraries) {contents : List LibraryContent}
    (hc : project.contentsAfter known m = .ok contents) :
    ((project.contentsAfter known m).map fun contents => rule.findings project m contents) =
        ((project.contentsAfter [] m).map fun contents => rule.findings project m contents) ↔
      ∀ library ∈ libraries, rule.JudgesAlike project known m library := by
  have hnodup := BuildModule.nodup_fullName hapart hl
  rw [Project.contentsAfter_eq hl hnodup] at hc
  obtain ⟨shown, hshown, rfl⟩ := exists_shown hc
  rw [Project.contentsAfter_eq hl hnodup, Project.contentsAfter_eq hl hnodup, hc]
  constructor
  · intro h
    -- The run shows contents, so the module alone can be told its own.
    obtain ⟨contents, hown, hfindings⟩ := map_eq_ok h.symm
    obtain ⟨own, hown', rfl⟩ := exists_shown hown
    have hverdict := (findings_eq_iff hr hnodup own shown).1 hfindings.symm
    exact fun library hlib => ⟨own library, shown library, hown' library hlib,
      hshown library hlib, hverdict library hlib⟩
  · intro h
    choose! own shown' hown hshown' hverdict using h
    have hcontents : project.contentsAmong [] libraries =
        .ok (libraries.map fun library => library.content (own library)) := by
      refine mapM_eq_ok fun library hlib => ?_
      rw [show project.classesAmong [] library.resolved = .ok (own library) from hown library hlib]
      rfl
    rw [hcontents]
    refine congrArg Except.ok ((findings_eq_iff hr hnodup own shown).2 fun library hlib => ?_)
    have hsame : shown' library = shown library :=
      Except.ok.inj ((hshown' library hlib).symm.trans (hshown library hlib))
    rw [← hsame]
    exact hverdict library hlib

end Alike

/-! ## Checks in the settings -/

/-- The check goes by the name of a library and not by what is in it. -/
def CustomCheck.IgnoresContents (check : CustomCheck) : Prop :=
  ∀ summary (a b : LibraryContent), a.fullName = b.fullName →
    check.evaluate summary a = check.evaluate summary b

theorem CustomCheck.ofSettings_ignoresContents {settings : CheckSettings} {check : CustomCheck}
    (h : CustomCheck.ofSettings settings = .ok check) : check.IgnoresContents := by
  obtain ⟨glob, -, h⟩ := bind_eq_ok h
  cases h
  intro summary a b hab
  simp only [hab]

theorem Rule.findings_of_ignoresContents {check : CustomCheck} (h : check.IgnoresContents)
    {project : Project} {m : BuildModule} {a b : List LibraryContent}
    (hnames : a.map (·.fullName) = b.map (·.fullName)) :
    (custom check).findings project m a = (custom check).findings project m b := by
  have hverdict : (custom check).verdict project m =
      (fun name => (custom check).verdict project m ⟨name, default, []⟩) ∘ (·.fullName) := by
    funext library
    simp only [Function.comp_apply, verdict]
    rw [h (project.summary m) library ⟨library.fullName, default, []⟩ rfl]
  rw [findings, findings, hverdict, ← List.filterMap_map, ← List.filterMap_map, hnames]

/-- Without further checks, the rules of a project are the two fixed ones and checks that go by
names. -/
theorem Rule.defaults_eq_ok {settings : Settings} {rules : List Rule}
    (h : Rule.defaults settings [] = .ok rules) :
    ∃ checks : List CustomCheck, (∀ check ∈ checks, check.IgnoresContents) ∧
      rules = [unusedModules, unusedLibraries] ++ checks.map custom := by
  obtain ⟨checks, hc, h⟩ := bind_eq_ok h
  cases h
  refine ⟨checks, fun check hcheck => ?_, by simp⟩
  obtain ⟨set, -, hset⟩ := mem_of_mapM_ok hc hcheck
  exact CustomCheck.ofSettings_ignoresContents hset

/-! ## The two sessions compared -/

section Compared

variable {project : Project} {rules : List Rule} {result : LintResult}
  {earlier later : List BuildModule} {m : BuildModule} {rule : Rule}

/-- Right after the index was built, nothing is indexed and no module was asked for. -/
theorem ready_alone (hid : project.DistinctIds) (hrun : project.analyze rules = .ok result)
    (modules : List BuildModule) :
    Ready project (Tables project (Unasked modules) []) project.freshSession :=
  ready_freshSession hid ⟨fun _ _ => rfl, Indexes.nil⟩ (analyze_eq_ok hrun).1

/-- What is found about a module alone is told by the project. -/
theorem answer_alone (hid : project.DistinctIds) (hrun : project.analyze rules = .ok result)
    (hsplit : project.enabledModules = earlier ++ m :: later) :
    ((analyzeModule rules m).answer project project.freshSession).1 =
      project.findingsAfter rules [] m := by
  obtain ⟨hmem, -, hlater⟩ := enabled_split hid hsplit
  exact analyzeModule_answer hid (hmem m (by simp)) hlater (ready_alone hid hrun (m :: later))

theorem findsAsAlone_iff (hid : project.DistinctIds) (hrun : project.analyze rules = .ok result)
    (hsplit : project.enabledModules = earlier ++ m :: later) :
    project.FindsAsAlone rules earlier m ↔
      project.findingsAfter rules (project.librariesRead rules earlier) m =
        project.findingsAfter rules [] m := by
  obtain ⟨hmem, -, hlater⟩ := enabled_split hid hsplit
  have hm := hmem m (by simp)
  rw [Project.FindsAsAlone, answer_alone hid hrun hsplit,
    analyzeModule_answer hid hm hlater (checked_in_run hid hrun hsplit).1]

theorem rule_findsAsAlone_iff (hid : project.DistinctIds)
    (hrun : project.analyze rules = .ok result)
    (hsplit : project.enabledModules = earlier ++ m :: later) (hr : rule.readsContents = true) :
    rule.FindsAsAlone project rules earlier m ↔
      ((project.contentsAfter (project.librariesRead rules earlier) m).map
          fun contents => rule.findings project m contents) =
        (project.contentsAfter [] m).map fun contents => rule.findings project m contents := by
  obtain ⟨hmem, -, hlater⟩ := enabled_split hid hsplit
  have hm := hmem m (by simp)
  rw [Rule.FindsAsAlone,
    Rule.check_answer hid hm hlater (checked_in_run hid hrun hsplit).1 hr,
    Rule.check_answer hid hm hlater (ready_alone hid hrun (m :: later)) hr]

/-- A rule that reads no contents does not see what was indexed. -/
theorem rule_findsAsAlone_of_not_reads (hid : project.DistinctIds)
    (hrun : project.analyze rules = .ok result)
    (hsplit : project.enabledModules = earlier ++ m :: later) (hr : rule.readsContents = false) :
    rule.FindsAsAlone project rules earlier m := by
  have hm := (enabled_split hid hsplit).1 m (by simp)
  have hanswer := fun known => Rule.answers_check_of_not_reads
    (K := Tables project (Unasked (m :: later)) known) hid hm [] hr
  rw [Rule.FindsAsAlone, (hanswer _ _ (checked_in_run hid hrun hsplit).1).1,
    (hanswer _ _ (ready_alone hid hrun (m :: later))).1]

/-- Where a rule reads contents, the run has found them. -/
theorem contentsAfter_ok_of_run (hid : project.DistinctIds)
    (hrun : project.analyze rules = .ok result)
    (hsplit : project.enabledModules = earlier ++ m :: later)
    (hreads : project.readsContents rules = true) :
    ∃ contents, project.contentsAfter (project.librariesRead rules earlier) m = .ok contents := by
  obtain ⟨-, front, found, back, -, hfound, -⟩ := checked_in_run hid hrun hsplit
  rw [Project.findingsAfter, if_pos hreads] at hfound
  obtain ⟨contents, hcontents, -⟩ := map_eq_ok hfound
  exact ⟨contents, hcontents⟩

theorem readsContents_of_mem (hrule : rule ∈ project.activeRules rules)
    (hr : rule.readsContents = true) : project.readsContents rules = true :=
  List.any_eq_true.2 ⟨rule, hrule, hr⟩

/-- A rule finds what it finds alone exactly if it is not affected by the earlier modules. -/
theorem rule_findsAsAlone_iff_isUnaffected (hid : project.DistinctIds)
    (hrun : project.analyze rules = .ok result)
    (hsplit : project.enabledModules = earlier ++ m :: later) (hplain : m.HasPlainLibraries)
    (hrule : rule ∈ project.activeRules rules) :
    rule.FindsAsAlone project rules earlier m ↔ rule.IsUnaffected project rules earlier m := by
  rw [Rule.IsUnaffected]
  cases hr : rule.readsContents with
  | false =>
    exact iff_of_true (rule_findsAsAlone_of_not_reads hid hrun hsplit hr) fun h => by cases h
  | true =>
    obtain ⟨contents, hc⟩ :=
      contentsAfter_ok_of_run hid hrun hsplit (readsContents_of_mem hrule hr)
    obtain ⟨libraries, hl, -, -⟩ := Project.contentsAfter_eq_ok hc
    rw [rule_findsAsAlone_iff hid hrun hsplit hr, Rule.map_findings_eq_iff hplain.tellsLibrariesApart hr hl hc]
    constructor
    · intro h _ others hothers
      cases hl.symm.trans hothers
      exact h
    · exact fun h => h rfl libraries hl

/-- If every rule finds what it finds alone, so does the check of the module. -/
theorem findsAsAlone_of_rules (hid : project.DistinctIds)
    (hrun : project.analyze rules = .ok result)
    (hsplit : project.enabledModules = earlier ++ m :: later)
    (h : ∀ rule ∈ project.activeRules rules, rule.FindsAsAlone project rules earlier m) :
    project.FindsAsAlone rules earlier m := by
  rw [findsAsAlone_iff hid hrun hsplit, Project.findingsAfter, Project.findingsAfter]
  cases hreads : project.readsContents rules with
  | false => rfl
  | true =>
    obtain ⟨shown, hshown⟩ := contentsAfter_ok_of_run hid hrun hsplit hreads
    obtain ⟨reader, hreader, hr⟩ := List.any_eq_true.1 hreads
    have hfound := (rule_findsAsAlone_iff hid hrun hsplit hr).1 (h reader hreader)
    rw [hshown] at hfound
    obtain ⟨own, hown, -⟩ := map_eq_ok hfound.symm
    rw [if_pos rfl, if_pos rfl, hshown, hown]
    refine congrArg Except.ok (List.flatMap_congr fun rule hrule => ?_)
    cases hr : rule.readsContents with
    | false => exact Rule.findings_of_not_reads hr own
    | true =>
      have hfound := (rule_findsAsAlone_iff hid hrun hsplit hr).1 (h rule hrule)
      rw [hshown, hown] at hfound
      exact Except.ok.inj hfound

/-- If all rules but one find the same, and all of them together do, then so does the one. -/
theorem findings_eq_of_flatMap {front back : List Rule} {a b : List LibraryContent}
    (hfront : ∀ rule ∈ front, rule.findings project m a = rule.findings project m b)
    (hback : ∀ rule ∈ back, rule.findings project m a = rule.findings project m b)
    (h : (front ++ rule :: back).flatMap (·.findings project m a) =
      (front ++ rule :: back).flatMap (·.findings project m b)) :
    rule.findings project m a = rule.findings project m b := by
  rw [List.flatMap_append, List.flatMap_append, List.flatMap_cons, List.flatMap_cons,
    List.flatMap_congr hfront, List.flatMap_congr hback] at h
  exact List.append_cancel_right (List.append_cancel_left h)

theorem activeRules_of_enabled (checks : List CustomCheck)
    (h : project.settings.isRuleEnabled Rule.unusedLibraries.name = true) :
    project.activeRules ([.unusedModules, .unusedLibraries] ++ checks.map .custom) =
      project.activeRules [.unusedModules] ++
        .unusedLibraries :: project.activeRules (checks.map .custom) := by
  simp only [Project.activeRules, List.cons_append, List.nil_append, List.filter_cons,
    List.filter_nil, h, if_true]
  split_ifs <;> rfl

/-- With the rules of the settings alone, no difference in one rule makes up for a difference in
another: there is one rule that goes by classes. -/
theorem rules_find_as_alone (hid : project.DistinctIds)
    (hrun : project.analyze rules = .ok result)
    (hsplit : project.enabledModules = earlier ++ m :: later)
    (hdefaults : Rule.defaults project.settings [] = .ok rules)
    (h : project.FindsAsAlone rules earlier m) :
    ∀ rule ∈ project.activeRules rules, rule.FindsAsAlone project rules earlier m := by
  intro rule hrule
  cases hr : rule.readsContents with
  | false => exact rule_findsAsAlone_of_not_reads hid hrun hsplit hr
  | true =>
    have hreads := readsContents_of_mem hrule hr
    obtain ⟨shown, hshown⟩ := contentsAfter_ok_of_run hid hrun hsplit hreads
    rw [findsAsAlone_iff hid hrun hsplit, Project.findingsAfter, Project.findingsAfter,
      if_pos hreads, if_pos hreads, hshown] at h
    obtain ⟨own, hown, hall⟩ := map_eq_ok h.symm
    rw [rule_findsAsAlone_iff hid hrun hsplit hr, hshown, hown]
    refine congrArg Except.ok ?_
    have hnames := Project.map_fullName_contentsAfter hshown hown
    obtain ⟨checks, hignores, rfl⟩ := Rule.defaults_eq_ok hdefaults
    obtain ⟨hmem, henabled⟩ := List.mem_filter.1 hrule
    cases rule with
    | unusedModules => cases hr
    | custom check =>
      have hcheck : check ∈ checks := by simpa using hmem
      exact Rule.findings_of_ignoresContents (hignores check hcheck) hnames
    | unusedLibraries =>
      -- All other rules find the same with both contents, so their findings cancel.
      rw [activeRules_of_enabled checks henabled] at hall
      refine findings_eq_of_flatMap (fun rule hrule => ?_) (fun rule hrule => ?_) hall.symm
      · rw [List.mem_singleton.1 (List.mem_filter.1 hrule).1]
        rfl
      · obtain ⟨check, hcheck, rfl⟩ := List.mem_map.1 (List.mem_filter.1 hrule).1
        exact Rule.findings_of_ignoresContents (hignores check hcheck) hnames

end Compared

/-! ## A project in which two modules share a name -/

namespace SharedName

/-- A module that uses the library `org:lib:1`, which consists of the given file. -/
def user (name file : String) : BuildModule where
  id := name
  name := name
  directory := ⟨name⟩
  configurations := [{
    name := "api"
    canBeResolved := true
    dependencies := [.onLibrary ⟨"org", "lib", "1"⟩]
    resolved := [⟨⟨"org", "lib", "1"⟩, [":" ++ name ++ ":"], [⟨file⟩]⟩] }]

/-- Both modules use the one class of their own file, under one coordinate. -/
def sample : Project where
  files := .ofEntries [
    ("a.jar", .file (Archive.ofEntry "a/A.class")), ("a", .ofSource "import a.A"),
    ("b.jar", .file (Archive.ofEntry "b/B.class")), ("b", .ofSource "import b.B")]
  manifest := ⟨[user "a" "a.jar", user "b" "b.jar"]⟩
  settings := {}

def fixedRules : List Rule := [.unusedModules, .unusedLibraries]

/-- The run reports a library that the second module uses. -/
theorem analyze_sample : sample.analyze fixedRules =
    .ok ⟨[⟨"DS002", "unused-library-dependency", "b", "org:lib:1", .unusedLibrary⟩], 2⟩ :=
  eq_ok_of_toOption (by decide +kernel)

theorem not_findsAsAlone :
    ¬sample.FindsAsAlone fixedRules [user "a" "a.jar"] (user "b" "b.jar") := by
  intro h
  exact absurd (congrArg Except.toOption h) (by decide +kernel)

end SharedName

/-! ## The theorem -/

/-- **Being checked in a run and being checked alone.** In a run that succeeds, the module `m` is
checked behind the modules `earlier`, and what is found about it stands in the result as one block.
Each rule that is active finds what it finds about the module alone exactly if it judges each library
of the module alike by the classes of its own files and by those that the session shows for it. If
all rules do, the module is checked as if alone; with the rules of the settings, only then. Modules
that are checked as if alone are reported alike whichever other modules are enabled and in whatever
order they come. -/
theorem found_as_alone_iff {project : Project} (hid : project.DistinctIds) {rules : List Rule}
    {result : LintResult} (hrun : project.analyze rules = .ok result)
    {earlier later : List BuildModule} {m : BuildModule}
    (hsplit : project.enabledModules = earlier ++ m :: later) (hplain : m.HasPlainLibraries) :
    (∃ (front : List (List Finding)) (found : List Finding) (back : List (List Finding)),
      (earlier.mapM (analyzeModule rules)).answer project project.freshSession =
        (.ok front, project.sessionAfter rules earlier) ∧
      ((analyzeModule rules m).answer project (project.sessionAfter rules earlier)).1 = .ok found ∧
      result.findings = front.flatten ++ found ++ back.flatten) ∧
    (∀ rule ∈ project.activeRules rules,
      rule.FindsAsAlone project rules earlier m ↔ rule.IsUnaffected project rules earlier m) ∧
    ((∀ rule ∈ project.activeRules rules, rule.IsUnaffected project rules earlier m) →
      project.FindsAsAlone rules earlier m) ∧
    (Rule.defaults project.settings [] = .ok rules → project.FindsAsAlone rules earlier m →
      ∀ rule ∈ project.activeRules rules, rule.IsUnaffected project rules earlier m) ∧
    (∀ (q : Project) (result' : LintResult) (earlier' later' : List BuildModule),
      project.Regrouped q → q.analyze rules = .ok result' →
      q.enabledModules = earlier' ++ m :: later' →
      project.FindsAsAlone rules earlier m → q.FindsAsAlone rules earlier' m →
      ((analyzeModule rules m).answer q (q.sessionAfter rules earlier')).1 =
        ((analyzeModule rules m).answer project (project.sessionAfter rules earlier)).1) := by
  obtain ⟨hmem, -, hlater⟩ := enabled_split hid hsplit
  have hm := hmem m (by simp)
  obtain ⟨hready, front, found, back, hfront, hfound, hresult⟩ := checked_in_run hid hrun hsplit
  have hiff := fun rule (hrule : rule ∈ project.activeRules rules) =>
    rule_findsAsAlone_iff_isUnaffected hid hrun hsplit hplain hrule
  refine ⟨⟨front, found, back, hfront, ?_, hresult⟩, hiff, fun h => ?_,
    fun hdefaults h rule hrule => ?_, fun q result' earlier' later' hq hrun' hsplit' h h' => ?_⟩
  · rw [analyzeModule_answer hid hm hlater hready, hfound]
  · exact findsAsAlone_of_rules hid hrun hsplit fun rule hrule => (hiff rule hrule).2 (h rule hrule)
  · exact (hiff rule hrule).1 (rules_find_as_alone hid hrun hsplit hdefaults h rule hrule)
  · rw [Project.FindsAsAlone, answer_alone hid hrun hsplit] at h
    rw [Project.FindsAsAlone, answer_alone (hq.distinctIds hid) hrun' hsplit'] at h'
    rw [h, h', hq.findingsAfter_eq hid]

open SharedName in
theorem sharedName_affects_rule :
    (∃ result, sample.analyze fixedRules = .ok result) ∧
      ¬sample.FindsAsAlone fixedRules [user "a" "a.jar"] (user "b" "b.jar") ∧
      ∃ rule ∈ sample.activeRules fixedRules,
        ¬rule.IsUnaffected sample fixedRules [user "a" "a.jar"] (user "b" "b.jar") := by
  refine ⟨⟨_, analyze_sample⟩, not_findsAsAlone, ?_⟩
  by_contra hnone
  have hsplit : sample.enabledModules = [user "a" "a.jar"] ++ user "b" "b.jar" :: [] := by decide
  refine not_findsAsAlone ((found_as_alone_iff (by decide) analyze_sample hsplit (by decide)).2.2.1
    fun rule hrule => ?_)
  by_contra hrule'
  exact hnone ⟨rule, hrule, hrule'⟩

end DependencyLint
