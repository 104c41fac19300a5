import DependencyLint.Command.Run
import DependencyLint.Proofs.DirectRun
import DependencyLint.Proofs.Isolation

/-!
# Runs with fewer rules

Rules can be selected by their names and codes, and they can be switched off in the settings.

**Theorem (`analyze_fewer_rules`).** A run with fewer rules succeeds where the run with all of them
does, checks the same modules, and finds what that run finds by the remaining rules.

All rules of a run share one session, and what it shows for a library depends on the libraries
that were indexed before. A rule that is left out does not index anything, but this makes no
difference to the others: as soon as one of the remaining rules reads contents, it has the libraries
of a module indexed in the same place, and if none of them does, nothing is read
(`Project.findingsAfter_selected`).
-/

namespace DependencyLint

open Query Session

/-! ## Findings and their rules -/

/-- A finding carries the code and the name of the rule that it comes from. -/
theorem Rule.of_mem_findings {rule : Rule} {project : Project} {m : BuildModule}
    {contents : List LibraryContent} {finding : Finding}
    (h : finding ∈ rule.findings project m contents) :
    finding.code = rule.code ∧ finding.rule = rule.name := by
  cases rule with
  | unusedModules =>
    rw [Project.eq_finding_of_mem_moduleFindings h]
    exact ⟨rfl, rfl⟩
  | unusedLibraries =>
    obtain ⟨library, -, hverdict⟩ := List.mem_filterMap.1 h
    rw [eq_finding_of_verdict hverdict]
    exact ⟨rfl, rfl⟩
  | custom check =>
    obtain ⟨library, -, hverdict⟩ := List.mem_filterMap.1 h
    rw [eq_finding_of_verdict hverdict]
    exact ⟨rfl, rfl⟩

/-- Keeping some rules keeps their findings. -/
theorem flatMap_filter_findings {project : Project} {m : BuildModule}
    {contents : List LibraryContent} {keeps : Rule → Bool} {shows : Finding → Bool}
    (hshows : ∀ rule : Rule, ∀ finding ∈ rule.findings project m contents,
      shows finding = keeps rule) (rules : List Rule) :
    (rules.filter keeps).flatMap (·.findings project m contents) =
      (rules.flatMap (·.findings project m contents)).filter shows := by
  induction rules with
  | nil => rfl
  | cons rule rules ih =>
    rw [List.flatMap_cons, List.filter_append, ← ih, List.filter_cons]
    cases hkeeps : keeps rule with
    | true =>
      have hall : (rule.findings project m contents).filter shows =
          rule.findings project m contents :=
        List.filter_eq_self.2 fun finding hf => by rw [hshows rule finding hf, hkeeps]
      rw [if_pos rfl, List.flatMap_cons, hall]
    | false =>
      have hnone : (rule.findings project m contents).filter shows = [] :=
        List.filter_eq_nil_iff.2 fun finding hf => by simp [hshows rule finding hf, hkeeps]
      rw [if_neg Bool.false_ne_true, hnone, List.nil_append]

/-! ## Projects with other switches -/

namespace Project

/-- The project with another table of switches for its rules. -/
def withSwitches (project : Project) (table : List (String × RuleSettings)) : Project :=
  { project with settings := { project.settings with rules := table } }

/-- In the project with the switches `table`, the active ones among `chosen` are those of the active
ones among `rules` that `keeps` keeps. -/
def Selects (project : Project) (rules : List Rule) (table : List (String × RuleSettings))
    (chosen : List Rule) (keeps : Rule → Bool) : Prop :=
  (project.withSwitches table).activeRules chosen = (project.activeRules rules).filter keeps

section Selected

variable {project : Project} {rules chosen : List Rule} {table : List (String × RuleSettings)}
  {keeps : Rule → Bool} {shows : Finding → Bool}

/-- Switches do not change what a rule finds. -/
theorem findings_withSwitches (m : BuildModule) (contents : List LibraryContent) (rule : Rule) :
    rule.findings (project.withSwitches table) m contents = rule.findings project m contents := by
  cases rule <;> rfl

/-- If one of the remaining rules reads contents, so does one of all rules. -/
theorem Selects.readsContents (h : project.Selects rules table chosen keeps)
    (hreads : (project.withSwitches table).readsContents chosen = true) :
    project.readsContents rules = true := by
  rw [Project.readsContents, h] at hreads
  obtain ⟨rule, hrule, hr⟩ := List.any_eq_true.1 hreads
  exact List.any_eq_true.2 ⟨rule, List.mem_of_mem_filter hrule, hr⟩

/-- A rule that reads no contents finds the same with any contents. -/
theorem flatMap_findings_of_not_reads {m : BuildModule} {active : List Rule}
    (hreads : active.any (·.readsContents) = false) (contents : List LibraryContent) :
    active.flatMap (·.findings project m []) = active.flatMap (·.findings project m contents) := by
  refine List.flatMap_congr fun rule hrule => Rule.findings_of_not_reads ?_ contents
  simpa using List.any_eq_false.1 hreads rule hrule

/-- **One module.** With fewer rules, a module can be checked behind the same libraries, and what
is found is what the remaining rules find. -/
theorem findingsAfter_selected (h : project.Selects rules table chosen keeps)
    (hshows : ∀ rule m contents, ∀ finding ∈ Rule.findings project m contents rule,
      shows finding = keeps rule)
    {known known' : List ResolvedLibrary}
    (hknown : (project.withSwitches table).readsContents chosen = true → known' = known)
    {m : BuildModule} {found : List Finding}
    (hfound : project.findingsAfter rules known m = .ok found) :
    (project.withSwitches table).findingsAfter chosen known' m = .ok (found.filter shows) := by
  have hactive : ∀ contents,
      ((project.withSwitches table).activeRules chosen).flatMap
          (·.findings (project.withSwitches table) m contents) =
        ((project.activeRules rules).flatMap (·.findings project m contents)).filter shows := by
    intro contents
    simp only [findings_withSwitches]
    rw [show (project.withSwitches table).activeRules chosen = _ from h]
    exact flatMap_filter_findings (fun rule => hshows rule m contents) _
  rw [findingsAfter] at hfound ⊢
  obtain ⟨contents, hcontents, rfl⟩ := map_eq_ok hfound
  cases hreads : (project.withSwitches table).readsContents chosen with
  | true =>
    rw [if_pos (h.readsContents hreads)] at hcontents
    have hshown : (project.withSwitches table).contentsAfter known' m = .ok contents := by
      rw [hknown hreads]
      exact hcontents
    rw [if_pos rfl, hshown, ← hactive contents]
    rfl
  | false =>
    rw [if_neg Bool.false_ne_true, ← hactive contents,
      ← flatMap_findings_of_not_reads hreads contents]
    rfl

theorem librariesRead_selected (h : project.Selects rules table chosen keeps)
    (hreads : (project.withSwitches table).readsContents chosen = true)
    (modules : List BuildModule) :
    (project.withSwitches table).librariesRead chosen modules =
      project.librariesRead rules modules := by
  rw [librariesRead, librariesRead, if_pos hreads, if_pos (h.readsContents hreads)]
  rfl

/-- **All modules.** Along a run, a remaining rule that reads contents finds the same libraries
indexed. -/
theorem blocksAfter_selected (h : project.Selects rules table chosen keeps)
    (hshows : ∀ rule m contents, ∀ finding ∈ Rule.findings project m contents rule,
      shows finding = keeps rule)
    {known known' : List ResolvedLibrary}
    (hknown : (project.withSwitches table).readsContents chosen = true → known' = known)
    {modules : List BuildModule} {blocks : List (List Finding)}
    (hblocks : project.blocksAfter rules known modules = .ok blocks) :
    (project.withSwitches table).blocksAfter chosen known' modules =
      .ok (blocks.map (·.filter shows)) := by
  induction modules generalizing known known' blocks with
  | nil =>
    cases hblocks
    rfl
  | cons m modules ih =>
    obtain ⟨found, others, hfound, hothers, rfl⟩ := blocksAfter_cons_eq_ok.1 hblocks
    refine blocksAfter_cons_eq_ok.2
      ⟨_, _, findingsAfter_selected h hshows hknown hfound, ih (fun hreads => ?_) hothers, rfl⟩
    rw [hknown hreads, librariesRead_selected h hreads]

/-- A run with fewer rules, from the run with all of them. -/
theorem analyze_selected (hid : project.DistinctIds) {result : LintResult}
    (hrun : project.analyze rules = .ok result) (h : project.Selects rules table chosen keeps)
    (hshows : ∀ rule m contents, ∀ finding ∈ Rule.findings project m contents rule,
      shows finding = keeps rule) :
    (project.withSwitches table).analyze chosen =
      .ok { result with findings := result.findings.filter shows } := by
  obtain ⟨hindexable, blocks, hblocks, rfl⟩ := (analyze_eq_ok_iff hid).1 hrun
  have hid' : (project.withSwitches table).DistinctIds := hid
  have hindexable' : (project.withSwitches table).IsIndexable :=
    ⟨hindexable.globs, hindexable.sources⟩
  refine (analyze_eq_ok_iff hid').2 ⟨hindexable', blocks.map (·.filter shows), ?_, ?_⟩
  · exact blocksAfter_selected h hshows (fun _ => rfl) hblocks
  · rw [List.filter_flatten]
    rfl

end Selected

end Project

/-! ## Two ways to leave rules out -/

/-- The finding comes from a rule that goes by one of the names. -/
def Finding.isNamedIn (finding : Finding) (names : List String) : Bool :=
  names.contains finding.rule || names.contains finding.code

/-- The switches `table` are the switches `before` with the rules in `off` switched off. -/
def SwitchesOff (off : List String) (before table : List (String × RuleSettings)) : Prop :=
  ∀ name, table.lookup name = if name ∈ off then some ⟨some false⟩ else before.lookup name

section LeftOut

variable {project : Project}

theorem selects_selectRules (rules : List Rule) (names : List String) :
    project.Selects rules project.settings.rules (Command.selectRules rules names)
      (·.isNamedIn names) := by
  rw [Project.Selects, Project.activeRules, Project.activeRules, Command.selectRules]
  exact List.filter_comm _ _ rules

theorem isRuleEnabled_of_switchesOff {off : List String} {table : List (String × RuleSettings)}
    (h : SwitchesOff off project.settings.rules table) (name : String) :
    (project.withSwitches table).settings.isRuleEnabled name =
      (decide (name ∉ off) && project.settings.isRuleEnabled name) := by
  rw [Settings.isRuleEnabled, show (project.withSwitches table).settings.rules = table from rfl, h name]
  by_cases hoff : name ∈ off
  · rw [if_pos hoff]
    simp [hoff]
  · rw [if_neg hoff]
    simp [hoff, Settings.isRuleEnabled]

theorem selects_switchesOff {off : List String} {table : List (String × RuleSettings)}
    (h : SwitchesOff off project.settings.rules table) (rules : List Rule) :
    project.Selects rules table rules fun rule => decide (rule.name ∉ off) := by
  rw [Project.Selects, Project.activeRules, Project.activeRules, List.filter_filter]
  simp only [isRuleEnabled_of_switchesOff h]

end LeftOut

/-! ## A project with findings of two rules -/

namespace SharedName

/-- A check with a message for the library that both modules declare. -/
def check : CustomCheck :=
  ⟨"shared", fun m library => if library.fullName = "org:lib:1" then m.name else ""⟩

def allRules : List Rule := [.unusedModules, .unusedLibraries, .custom check]

def unused : Finding :=
  ⟨"DS002", "unused-library-dependency", "b", "org:lib:1", .unusedLibrary⟩

def shared (name : String) : Finding :=
  ⟨"DS100", "custom-check", name, "org:lib:1", .customCheck name⟩

theorem analyze_allRules :
    sample.analyze allRules = .ok ⟨[shared "a", unused, shared "b"], 2⟩ :=
  eq_ok_of_toOption (by decide +kernel)

end SharedName

/-! ## The theorem -/

/-- **Leaving rules out leaves out their findings and nothing else.** Where a run with the rules of
the settings succeeds, so does the run with the rules that go by some names, and the run in which
some rules are switched off. Both check the same modules, and their findings are those of the first
run that come from the remaining rules, in the same order. -/
theorem analyze_fewer_rules {project : Project} (hid : project.DistinctIds)
    {extra : List CustomCheck} {rules : List Rule}
    (hdefaults : Rule.defaults project.settings extra = .ok rules) {result : LintResult}
    (hrun : project.analyze rules = .ok result) :
    (∀ names, project.analyze (Command.selectRules rules names) =
      .ok { result with findings := result.findings.filter (·.isNamedIn names) }) ∧
    ∀ off table, SwitchesOff off project.settings.rules table →
      Rule.defaults (project.withSwitches table).settings extra = .ok rules ∧
      (project.withSwitches table).analyze rules =
        .ok { result with findings := result.findings.filter fun finding => finding.rule ∉ off } := by
  constructor
  · intro names
    refine Project.analyze_selected hid hrun (selects_selectRules rules names) ?_
    intro rule m contents finding hf
    obtain ⟨hcode, hname⟩ := Rule.of_mem_findings hf
    rw [Finding.isNamedIn, Rule.isNamedIn, hcode, hname]
  · intro off table hoff
    refine ⟨hdefaults, Project.analyze_selected hid hrun (selects_switchesOff hoff rules) ?_⟩
    intro rule m contents finding hf
    rw [(Rule.of_mem_findings hf).2]

open SharedName in
theorem sharedName_fewer_rules :
    sample.analyze allRules = .ok ⟨[shared "a", unused, shared "b"], 2⟩ ∧
      sample.analyze (Command.selectRules allRules ["DS100"]) =
        .ok ⟨[shared "a", shared "b"], 2⟩ ∧
      (sample.withSwitches [("custom-check", ⟨some false⟩)]).analyze allRules = .ok ⟨[unused], 2⟩ := by
  have hdefaults : Rule.defaults sample.settings [check] = .ok allRules := rfl
  obtain ⟨hselected, hswitched⟩ := analyze_fewer_rules (by decide) hdefaults analyze_allRules
  have hoff : SwitchesOff ["custom-check"] sample.settings.rules
      [("custom-check", ⟨some false⟩)] := by
    intro name
    by_cases h : name = "custom-check"
    · simp [h]
    · simp [List.lookup_cons, beq_false_of_ne h, h, sample]
  exact ⟨analyze_allRules, hselected ["DS100"], (hswitched _ _ hoff).2⟩

end DependencyLint
