import DependencyLint.Proofs.RuleSelection

/-!
# The order of the findings

A run reports its findings module by module, for each module rule by rule, and for each rule in the
order in which the session lists the dependencies of the module.

**Numbering** (`numbered`). A list of results that were computed item by item is numbered by the
positions of the items. Numbered results are in the order of their numbers, and if the results are
numbered lists themselves, they are in the lexicographic order of all their numbers. Modules, rules
and dependencies are three levels of such lists (`Project.placed`).

**Theorem (`findings_strictly_ordered`).** The findings of a run can be numbered by module, rule and
dependency such that the numbers strictly increase. Only enabled modules and rules occur, every check
contributes its text once for each library where it has one, and no rule reports a dependency of a
module twice.
-/

namespace DependencyLint

open Query Session

/-! ## Numbered results -/

/-- The results of `f` for the items of a list, each with the position of its item. -/
def numbered {α β : Type} (l : List α) (f : α → List β) : List (Nat × β) :=
  l.zipIdx.flatMap fun item => (f item.1).map fun b => (item.2, b)

section Numbered

variable {α β γ : Type} {l : List α} {f : α → List β}

theorem mem_numbered {i : Nat} {b : β} : (i, b) ∈ numbered l f ↔ ∃ a, l[i]? = some a ∧ b ∈ f a := by
  simp only [numbered, List.mem_flatMap, List.mem_map, Prod.mk.injEq]
  constructor
  · rintro ⟨⟨a, j⟩, hitem, b', hb, rfl, rfl⟩
    exact ⟨a, List.mem_zipIdx_iff_getElem?.1 hitem, hb⟩
  · rintro ⟨a, ha, hb⟩
    exact ⟨(a, i), List.mem_zipIdx_iff_getElem?.2 ha, b, hb, rfl, rfl⟩

/-- Without their numbers, the results are those of all items in a row. -/
theorem map_numbered (l : List α) (f : α → List β) (g : β → γ) :
    (numbered l f).map (fun result => g result.2) = l.flatMap fun a => (f a).map g := by
  have hitems : l.zipIdx.flatMap (fun item => (f item.1).map g) =
      (l.zipIdx.map Prod.fst).flatMap fun a => (f a).map g := by
    rw [List.flatMap_map]
  rw [numbered, List.map_flatMap, ← List.zipIdx_map_fst 0 l, ← hitems]
  simp [Function.comp_def]

/-- Numbered results are in the order of their numbers, and within one item in the order that they
have there. -/
theorem pairwise_numbered {r : β → β → Prop} (h : ∀ a ∈ l, (f a).Pairwise r) :
    (numbered l f).Pairwise (Prod.Lex (· < ·) r) := by
  rw [numbered, List.pairwise_flatMap]
  constructor
  · rintro ⟨a, i⟩ hitem
    rw [List.pairwise_map]
    have ha : a ∈ l := List.mem_of_getElem? (List.mem_zipIdx_iff_getElem?.1 hitem)
    exact (h a ha).imp fun hr => Prod.Lex.right _ hr
  · have hnumbers : (l.zipIdx.map Prod.snd).Pairwise (· < ·) := by
      rw [List.zipIdx_map_snd]
      exact List.pairwise_lt_range' 1
    rw [List.pairwise_map] at hnumbers
    apply hnumbers.imp
    intro x y hlt a ha b hb
    obtain ⟨_, -, rfl⟩ := List.mem_map.1 ha
    obtain ⟨_, -, rfl⟩ := List.mem_map.1 hb
    exact Prod.Lex.left _ _ hlt

/-- At most one result for each item. -/
theorem pairwise_numbered_option (l : List α) (f : α → Option β) :
    (numbered l fun a => (f a).toList).Pairwise (Prod.Lex (· < ·) fun _ _ => False) := by
  apply pairwise_numbered
  intro a _
  cases f a <;> simp

end Numbered

theorem flatMap_filter_eq {α β : Type} (l : List α) (p : α → Bool) (f : α → List β) :
    (l.filter p).flatMap f = l.flatMap fun a => if p a then f a else [] := by
  induction l with
  | nil => rfl
  | cons a l ih =>
    rw [List.filter_cons, List.flatMap_cons, ← ih]
    split_ifs <;> simp

/-! ## The contents that a run shows -/

namespace Project

variable {project : Project} {rules : List Rule} {m : BuildModule}

/-- The modules that a run checks before the module `m`. -/
def modulesBefore (project : Project) (m : BuildModule) : List BuildModule :=
  project.enabledModules.takeWhile fun n => n.id ≠ m.id

/-- The contents that a run shows for the libraries of a module. -/
def contentsInRun (project : Project) (rules : List Rule) (m : BuildModule) : List LibraryContent :=
  (project.contentsAfter (project.librariesRead rules (project.modulesBefore m)) m).toOption.getD []

theorem modulesBefore_of_split (hid : project.DistinctIds) {earlier later : List BuildModule}
    (hsplit : project.enabledModules = earlier ++ m :: later) : project.modulesBefore m = earlier := by
  obtain ⟨-, hnodup, -⟩ := enabled_split hid hsplit
  have hearlier : ∀ n ∈ earlier, decide (n.id ≠ m.id) = true := by
    intro n hn
    rw [decide_eq_true_eq]
    intro heq
    rw [List.map_append, List.nodup_append] at hnodup
    exact hnodup.2.2 n.id (List.mem_map_of_mem hn) m.id (by simp) heq
  rw [modulesBefore, hsplit, List.takeWhile_append_of_pos hearlier,
    List.takeWhile_cons_of_neg (by simp), List.append_nil]

theorem librariesRead_append (project : Project) (rules : List Rule)
    (earlier later : List BuildModule) :
    project.librariesRead rules (earlier ++ later) =
      project.librariesRead rules earlier ++ project.librariesRead rules later := by
  simp only [librariesRead]
  split_ifs <;> simp

/-- What a run finds about a module, by the contents that it shows. -/
def foundInRun (project : Project) (rules : List Rule) (m : BuildModule) : List Finding :=
  (project.activeRules rules).flatMap (·.findings project m (project.contentsInRun rules m))

theorem eq_foundInRun {found : List Finding}
    (h : project.findingsAfter rules (project.librariesRead rules (project.modulesBefore m)) m =
      .ok found) : found = project.foundInRun rules m := by
  rw [findingsAfter] at h
  obtain ⟨contents, hcontents, rfl⟩ := map_eq_ok h
  rw [foundInRun, contentsInRun]
  cases hreads : project.readsContents rules with
  | true =>
    rw [hreads, if_pos rfl] at hcontents
    rw [hcontents]
    rfl
  | false =>
    rw [hreads] at hcontents
    cases hcontents
    exact flatMap_findings_of_not_reads hreads _

/-- The blocks of the modules `later` of a run, behind those of the modules `earlier`. -/
theorem blocksAfter_eq_map (hid : project.DistinctIds) {earlier later : List BuildModule}
    (hsplit : project.enabledModules = earlier ++ later) {blocks : List (List Finding)}
    (h : project.blocksAfter rules (project.librariesRead rules earlier) later = .ok blocks) :
    blocks = later.map (project.foundInRun rules) := by
  induction later generalizing earlier blocks with
  | nil =>
    cases h
    rfl
  | cons m later ih =>
    obtain ⟨found, others, hfound, hothers, rfl⟩ := blocksAfter_cons_eq_ok.1 h
    rw [← librariesRead_append] at hothers
    have hrest := ih (by rw [hsplit, List.append_assoc]; rfl) hothers
    rw [← modulesBefore_of_split hid hsplit] at hfound
    rw [List.map_cons, eq_foundInRun hfound, hrest]

theorem findings_eq_flatMap (hid : project.DistinctIds) {result : LintResult}
    (hrun : project.analyze rules = .ok result) :
    result.findings = project.enabledModules.flatMap (project.foundInRun rules) ∧
      result.modulesChecked = project.enabledModules.length := by
  obtain ⟨-, blocks, hblocks, rfl⟩ := (analyze_eq_ok_iff hid).1 hrun
  have hfirst : project.blocksAfter rules (project.librariesRead rules []) project.enabledModules =
      .ok blocks := by
    rw [librariesRead_nil]
    exact hblocks
  refine ⟨?_, rfl⟩
  rw [blocksAfter_eq_map hid (List.nil_append _).symm hfirst, List.flatMap_def]

end Project

/-! ## Findings with their positions -/

/-- A finding with the positions of its module, its rule and its dependency. -/
abbrev Position := Nat × Nat × Nat × Finding

/-- By module, then by rule, then by dependency. No two findings have the same position. -/
def Position.Precedes : Position → Position → Prop :=
  Prod.Lex (· < ·) (Prod.Lex (· < ·) (Prod.Lex (· < ·) fun _ _ => False))

theorem Position.precedes_iff {i j k i' j' k' : Nat} {finding finding' : Finding} :
    Position.Precedes (i, j, k, finding) (i', j', k', finding') ↔
      i < i' ∨ i = i' ∧ (j < j' ∨ j = j' ∧ k < k') := by
  simp [Position.Precedes, Prod.lex_def]

namespace Rule

/-- The findings of a rule, with the positions of their dependencies. -/
def placed (project : Project) (m : BuildModule) (contents : List LibraryContent) (rule : Rule) :
    List (Nat × Finding) :=
  if rule.readsContents then numbered contents fun library => (rule.verdict project m library).toList
  else numbered ((project.moduleIndex.dependencies m.id).map (·.id)) fun id =>
    (project.moduleFinding? m id).toList

variable {project : Project} {m : BuildModule} {contents : List LibraryContent} {rule : Rule}

theorem map_placed (project : Project) (m : BuildModule) (contents : List LibraryContent)
    (rule : Rule) :
    (rule.placed project m contents).map (·.2) = rule.findings project m contents := by
  rw [placed]
  cases hr : rule.readsContents with
  | true =>
    rw [findings_of_reads hr, List.filterMap_eq_flatMap_toList]
    simpa using map_numbered contents (fun library => (rule.verdict project m library).toList) id
  | false =>
    cases rule with
    | unusedModules =>
      rw [findings, Project.moduleFindings, List.filterMap_eq_flatMap_toList]
      simpa using map_numbered _ (fun id => (project.moduleFinding? m id).toList) id
    | unusedLibraries => cases hr
    | custom check => cases hr

theorem pairwise_placed :
    (rule.placed project m contents).Pairwise (Prod.Lex (· < ·) fun _ _ => False) := by
  rw [placed]
  split_ifs
  · exact pairwise_numbered_option _ _
  · exact pairwise_numbered_option _ _

/-- The dependencies of a module that a rule is about, as a session lists them. -/
def listed : Rule → BuildModule → Query (List String)
  | unusedModules, m => do
    let edges ← Query.moduleDependencies m.id
    pure (edges.map (·.id))
  | unusedLibraries, m | custom _, m => do
    let libraries ← Query.libraries m
    pure (libraries.map (·.fullName))

/-- The dependencies of a module that a rule is about, where the libraries have the given
contents. -/
def subjects (project : Project) (m : BuildModule) (contents : List LibraryContent) (rule : Rule) :
    List String :=
  if rule.readsContents then contents.map (·.fullName)
  else (project.moduleIndex.dependencies m.id).map (·.id)

/-- A session lists the libraries whose contents it shows. -/
theorem answers_listed {K : List (String × List LibraryContent) → List (String × List String) → Prop}
    (hid : project.DistinctIds) (hm : m ∈ project.modules)
    (hc : rule.readsContents = true → ∃ known, project.contentsAfter known m = .ok contents) :
    Answers project (Ready project K) (rule.listed m) (.ok (rule.subjects project m contents))
      (Ready project K) := by
  have hlibraries : rule.readsContents = true → Answers project (Ready project K)
      (do let libraries ← Query.libraries m; pure (libraries.map (·.fullName)))
      (.ok (contents.map (·.fullName))) (Ready project K) := by
    intro hr
    obtain ⟨known, hknown⟩ := hc hr
    obtain ⟨libraries, hl, hnames⟩ := Project.fullNames_of_contentsAfter hknown
    have hanswer := answers_libraries (K := K) hid hm
    rw [hl] at hanswer
    rw [hnames]
    exact hanswer.bind (Answers.pure _)
  cases rule with
  | unusedModules => exact (answers_moduleDependencies m.id).bind (Answers.pure _)
  | unusedLibraries => exact hlibraries rfl
  | custom check => exact hlibraries rfl

/-- A finding stands at the position of its dependency. -/
theorem subject_of_mem_placed {k : Nat} {finding : Finding}
    (h : (k, finding) ∈ rule.placed project m contents) :
    (rule.subjects project m contents)[k]? = some finding.dependency ∧
      finding = rule.finding m finding.dependency finding.kind := by
  rw [placed] at h
  rw [subjects]
  cases hr : rule.readsContents with
  | true =>
    rw [hr, if_pos rfl] at h
    obtain ⟨library, hlibrary, hfinding⟩ := mem_numbered.1 h
    have hverdict := Option.mem_toList.1 hfinding
    rw [if_pos rfl, List.getElem?_map, hlibrary, dependency_of_verdict hverdict]
    exact ⟨rfl, eq_finding_of_verdict hverdict⟩
  | false =>
    rw [hr, if_neg Bool.false_ne_true] at h
    cases rule with
    | unusedModules =>
      obtain ⟨id, hlisted, hfinding⟩ := mem_numbered.1 h
      have hfound := Option.mem_toList.1 hfinding
      rw [Project.moduleFinding?] at hfound
      split_ifs at hfound
      cases hfound
      exact ⟨hlisted, rfl⟩
    | unusedLibraries => cases hr
    | custom check => cases hr

/-- The dependencies that a rule is about are different ones. -/
theorem nodup_subjects (hid : project.DistinctIds) (hm : m ∈ project.modules)
    (hplain : m.HasPlainLibraries)
    (hc : rule.readsContents = true → ∃ known, project.contentsAfter known m = .ok contents) :
    (rule.subjects project m contents).Nodup := by
  rw [subjects]
  split_ifs with hr
  · obtain ⟨known, hknown⟩ := hc hr
    obtain ⟨libraries, hl, hnames⟩ := Project.fullNames_of_contentsAfter hknown
    rw [hnames]
    exact BuildModule.nodup_fullName hplain.tellsLibrariesApart hl
  · rw [Project.map_id_dependencies hid hm]
    apply m.pairwise_moduleDependencies.imp
    intro a b hlt heq
    rw [heq] at hlt
    exact Nat.lt_irrefl _ hlt

/-- A check stands at the position of every library for which it has a text. -/
theorem mem_placed_custom {check : CustomCheck} {k : Nat} {finding : Finding} :
    (k, finding) ∈ (custom check).placed project m contents ↔
      ∃ library, contents[k]? = some library ∧ check.evaluate (project.summary m) library ≠ "" ∧
        finding = ⟨"DS100", "custom-check", m.label, library.fullName,
          .customCheck (check.evaluate (project.summary m) library)⟩ := by
  rw [placed, readsContents, if_pos rfl, mem_numbered]
  refine exists_congr fun library => and_congr_right fun _ => ?_
  rw [Option.mem_toList, verdict]
  by_cases htext : check.evaluate (project.summary m) library = ""
  · simp [htext]
  · simp only [htext, if_false, ne_eq, not_false_eq_true, true_and, Option.some.injEq]
    exact eq_comm

end Rule

/-! ## All findings of a run with their places -/

namespace Project

variable {project : Project} {rules : List Rule} {m : BuildModule}

/-- The findings of a run with their places. -/
def placed (project : Project) (rules : List Rule) : List Position :=
  numbered project.modules fun m =>
    if (project.settingsFor m).enabled then
      numbered rules fun rule =>
        if project.settings.isRuleEnabled rule.name then
          rule.placed project m (project.contentsInRun rules m)
        else []
    else []

theorem map_placed (project : Project) (rules : List Rule) :
    (project.placed rules).map (·.2.2.2) =
      project.enabledModules.flatMap (project.foundInRun rules) := by
  rw [enabledModules, flatMap_filter_eq]
  refine (map_numbered project.modules _ fun result : Nat × Nat × Finding => result.2.2).trans ?_
  apply List.flatMap_congr
  intro m _
  split_ifs
  · rw [foundInRun, activeRules, flatMap_filter_eq]
    refine (map_numbered rules _ fun result : Nat × Finding => result.2).trans ?_
    apply List.flatMap_congr
    intro rule _
    split_ifs
    · exact rule.map_placed project m _
    · rfl
  · rfl

theorem pairwise_placed (project : Project) (rules : List Rule) :
    (project.placed rules).Pairwise Position.Precedes := by
  apply pairwise_numbered
  intro m _
  split_ifs
  · apply pairwise_numbered
    intro rule _
    split_ifs
    · exact rule.pairwise_placed
    · exact List.Pairwise.nil
  · exact List.Pairwise.nil

theorem mem_placed {i j k : Nat} {finding : Finding} :
    (i, j, k, finding) ∈ project.placed rules ↔
      ∃ m rule, project.modules[i]? = some m ∧ (project.settingsFor m).enabled = true ∧
        rules[j]? = some rule ∧ project.settings.isRuleEnabled rule.name = true ∧
        (k, finding) ∈ rule.placed project m (project.contentsInRun rules m) := by
  rw [placed, mem_numbered]
  constructor
  · rintro ⟨m, hm, h⟩
    split_ifs at h with henabled
    · obtain ⟨rule, hrule, h⟩ := mem_numbered.1 h
      split_ifs at h with hactive
      · exact ⟨m, rule, hm, henabled, hrule, hactive, h⟩
      · cases h
    · cases h
  · rintro ⟨m, rule, hm, henabled, hrule, hactive, h⟩
    refine ⟨m, hm, ?_⟩
    rw [if_pos henabled, mem_numbered]
    refine ⟨rule, hrule, ?_⟩
    rw [if_pos hactive]
    exact h

/-- A check stands at the place of every library for which it has a text. -/
theorem mem_placed_custom {i j k : Nat} {check : CustomCheck} {finding : Finding}
    (hm : project.modules[i]? = some m) (henabled : (project.settingsFor m).enabled = true)
    (hrule : rules[j]? = some (.custom check))
    (hactive : project.settings.isRuleEnabled "custom-check" = true) :
    (i, j, k, finding) ∈ project.placed rules ↔
      (k, finding) ∈ (Rule.custom check).placed project m (project.contentsInRun rules m) := by
  rw [mem_placed]
  constructor
  · rintro ⟨m', rule', hm', -, hrule', -, h⟩
    cases hm.symm.trans hm'
    cases hrule.symm.trans hrule'
    exact h
  · intro h
    exact ⟨m, .custom check, hm, henabled, hrule, hactive, h⟩

section Run

variable {result : LintResult} (hid : project.DistinctIds)
  (hrun : project.analyze rules = .ok result)

include hid hrun

/-- The session in which a run checks an enabled module. -/
theorem ready_before (hm : m ∈ project.enabledModules) :
    ∃ later, (∀ n ∈ later, n.id ≠ m.id) ∧
      Ready project
        (Tables project (Unasked (m :: later))
          (project.librariesRead rules (project.modulesBefore m)))
        (project.sessionAfter rules (project.modulesBefore m)) := by
  obtain ⟨earlier, later, hsplit⟩ := List.append_of_mem hm
  rw [modulesBefore_of_split hid hsplit]
  exact ⟨later, (enabled_split hid hsplit).2.2, (checked_in_run hid hrun hsplit).1⟩

/-- Where a rule reads contents, the run shows them. -/
theorem contentsAfter_eq_inRun (hm : m ∈ project.enabledModules)
    (hreads : project.readsContents rules = true) :
    project.contentsAfter (project.librariesRead rules (project.modulesBefore m)) m =
      .ok (project.contentsInRun rules m) := by
  obtain ⟨earlier, later, hsplit⟩ := List.append_of_mem hm
  obtain ⟨contents, hcontents⟩ := contentsAfter_ok_of_run hid hrun hsplit hreads
  rw [← modulesBefore_of_split hid hsplit] at hcontents
  rw [contentsInRun, hcontents]
  rfl

/-- A finding stands at the place of its module, its rule and its dependency. -/
theorem origin_of_mem_placed {i j k : Nat} {finding : Finding}
    (h : (i, j, k, finding) ∈ project.placed rules) :
    ∃ m rule names, project.modules[i]? = some m ∧ (project.settingsFor m).enabled = true ∧
      rules[j]? = some rule ∧ project.settings.isRuleEnabled rule.name = true ∧
      ((rule.listed m).answer project project.freshSession).1 = .ok names ∧
      names[k]? = some finding.dependency ∧ (m.HasPlainLibraries → names.Nodup) ∧
      finding = rule.finding m finding.dependency finding.kind := by
  obtain ⟨m, rule, hm, henabled, hrule, hactive, h⟩ := mem_placed.1 h
  obtain ⟨hsubject, heq⟩ := Rule.subject_of_mem_placed h
  have hmem : m ∈ project.modules := List.mem_of_getElem? hm
  have hcontents : rule.readsContents = true → ∃ known,
      project.contentsAfter known m = .ok (project.contentsInRun rules m) := by
    intro hr
    have hreads : project.readsContents rules = true :=
      readsContents_of_mem (List.mem_filter.2 ⟨List.mem_of_getElem? hrule, hactive⟩) hr
    exact ⟨_, contentsAfter_eq_inRun hid hrun (List.mem_filter.2 ⟨hmem, henabled⟩) hreads⟩
  have hready : Ready project (fun _ _ => True) project.freshSession :=
    ready_freshSession hid trivial (analyze_eq_ok hrun).1
  exact ⟨m, rule, _, hm, henabled, hrule, hactive,
    (Rule.answers_listed hid hmem hcontents _ hready).1, hsubject,
    fun hplain => Rule.nodup_subjects hid hmem hplain hcontents, heq⟩

/-- Of two findings of one rule about one module, the later one is about a later dependency. -/
theorem pairwise_dependency_ne (hplain : ∀ m ∈ project.modules, m.HasPlainLibraries) :
    (project.placed rules).Pairwise fun a b =>
      a.1 = b.1 → a.2.1 = b.2.1 → a.2.2.2.dependency ≠ b.2.2.2.dependency := by
  refine (project.pairwise_placed rules).imp_of_mem ?_
  rintro ⟨i, j, k, finding⟩ ⟨i', j', k', finding'⟩ ha hb hlt hi hj hsame
  obtain ⟨m, rule, names, hm, -, hrule, -, hnames, hk, hnodup, -⟩ :=
    origin_of_mem_placed hid hrun ha
  obtain ⟨m', rule', names', hm', -, hrule', -, hnames', hk', -, -⟩ :=
    origin_of_mem_placed hid hrun hb
  have hkk : k < k' := by
    rw [Position.precedes_iff] at hlt
    simp only at hi hj
    omega
  simp only at hi hj hsame
  subst hi hj
  cases hm.symm.trans hm'
  cases hrule.symm.trans hrule'
  cases hnames.symm.trans hnames'
  rw [← hsame] at hk'
  have hnodup := hnodup (hplain m (List.mem_of_getElem? hm))
  have hlength : k < names.length := (List.getElem?_eq_some_iff.1 hk).1
  have heq : k = k' := (List.getElem?_inj hlength hnodup).1 (hk.trans hk'.symm)
  omega

end Run

end Project

/-! ## A project that declares its library twice -/

namespace DeclaredTwice

/-- A configuration that declares a library. -/
def configuration (name : String) : Configuration where
  name := name
  canBeResolved := true
  dependencies := [.onLibrary ⟨"org", "lib", "1"⟩]
  resolved := [⟨⟨"org", "lib", "1"⟩, [":app:", ":tool:"], [⟨"lib.jar"⟩]⟩]

def module (name : String) : BuildModule where
  id := name
  name := name
  directory := ⟨name⟩
  configurations := [configuration "api", configuration "runtimeClasspath"]

/-- Neither module uses the library that it declares in two configurations. -/
def sample : Project where
  files := .ofEntries [("lib.jar", .file (Archive.ofEntry "lib/Lib.class"))]
  manifest := ⟨[module "app", module "tool"]⟩
  settings := {}

def foundIn (name : String) : List Finding :=
  [⟨"DS002", "unused-library-dependency", name, "org:lib:1", .unusedLibrary⟩,
    ⟨"DS100", "custom-check", name, "org:lib:1", .customCheck name⟩]

theorem analyze_sample : sample.analyze SharedName.allRules = .ok ⟨foundIn "app" ++ foundIn "tool", 2⟩ :=
  eq_ok_of_toOption (by decide +kernel)

end DeclaredTwice

/-! ## The theorem -/

variable {project : Project} {rules : List Rule}

/-- **The findings of a run are strictly ordered** by the positions of their modules in the
manifest, of their rules, and of their dependencies in the list that the session gives for the
module. Only enabled modules and rules occur. A check contributes its text, word for word, once for
each library where it has one. No rule reports a dependency of a module twice. -/
theorem findings_strictly_ordered (hid : project.DistinctIds)
    (hplain : ∀ m ∈ project.modules, m.HasPlainLibraries) {result : LintResult}
    (hrun : project.analyze rules = .ok result) :
    ∃ places : List Position,
      result.findings = places.map (·.2.2.2) ∧
      places.Pairwise Position.Precedes ∧
      (∀ i j k finding, (i, j, k, finding) ∈ places → ∃ m rule names,
        project.modules[i]? = some m ∧ (project.settingsFor m).enabled = true ∧
        rules[j]? = some rule ∧ project.settings.isRuleEnabled rule.name = true ∧
        ((rule.listed m).answer project project.freshSession).1 = .ok names ∧
        names[k]? = some finding.dependency ∧
        finding.code = rule.code ∧ finding.rule = rule.name ∧ finding.module = m.label) ∧
      result.modulesChecked =
        (project.modules.filter fun m => (project.settingsFor m).enabled).length ∧
      (∀ i j m check, project.modules[i]? = some m → (project.settingsFor m).enabled = true →
        rules[j]? = some (.custom check) → project.settings.isRuleEnabled "custom-check" = true →
        ∃ summary contents,
          ((Query.summary m).answer project
            (project.sessionAfter rules (project.modulesBefore m))).1 = .ok summary ∧
          ((Query.libraryContents m).answer project
            (project.sessionAfter rules (project.modulesBefore m))).1 = .ok contents ∧
          ∀ k finding, (i, j, k, finding) ∈ places ↔
            ∃ library, contents[k]? = some library ∧ check.evaluate summary library ≠ "" ∧
              finding = ⟨"DS100", "custom-check", m.label, library.fullName,
                .customCheck (check.evaluate summary library)⟩) ∧
      places.Pairwise fun a b =>
        a.1 = b.1 → a.2.1 = b.2.1 → a.2.2.2.dependency ≠ b.2.2.2.dependency := by
  obtain ⟨hfindings, hchecked⟩ := Project.findings_eq_flatMap hid hrun
  refine ⟨project.placed rules, ?_, project.pairwise_placed rules, ?_, hchecked, ?_,
    Project.pairwise_dependency_ne hid hrun hplain⟩
  · rw [hfindings, project.map_placed]
  · intro i j k finding h
    obtain ⟨m, rule, names, hm, henabled, hrule, hactive, hnames, hk, -, heq⟩ :=
      Project.origin_of_mem_placed hid hrun h
    refine ⟨m, rule, names, hm, henabled, hrule, hactive, hnames, hk, ?_⟩
    rw [heq]
    exact ⟨rfl, rfl, rfl⟩
  · intro i j m check hm henabled hrule hactive
    have hmem : m ∈ project.modules := List.mem_of_getElem? hm
    have hchecked : m ∈ project.enabledModules := List.mem_filter.2 ⟨hmem, henabled⟩
    obtain ⟨later, hlater, hready⟩ := Project.ready_before hid hrun hchecked
    have hcontents := Project.contentsAfter_eq_inRun hid hrun hchecked
      (readsContents_of_mem (List.mem_filter.2 ⟨List.mem_of_getElem? hrule, hactive⟩) rfl)
    refine ⟨project.summary m, project.contentsInRun rules m, (answers_summary hid hmem _ hready).1,
      (answers_libraryContents hid hmem hlater hcontents _ hready).1, ?_⟩
    intro k finding
    rw [← Rule.mem_placed_custom]
    exact Project.mem_placed_custom hm henabled hrule hactive

open DeclaredTwice in
theorem declaredTwice_reported_once :
    sample.analyze SharedName.allRules = .ok ⟨foundIn "app" ++ foundIn "tool", 2⟩ ∧
      ∃ places : List Position, foundIn "app" ++ foundIn "tool" = places.map (·.2.2.2) ∧
        places.Pairwise Position.Precedes ∧
        places.Pairwise fun a b =>
          a.1 = b.1 → a.2.1 = b.2.1 → a.2.2.2.dependency ≠ b.2.2.2.dependency := by
  obtain ⟨places, hfound, hordered, -, -, -, honce⟩ :=
    findings_strictly_ordered (by decide) (by decide) analyze_sample
  exact ⟨analyze_sample, places, hfound, hordered, honce⟩

end DependencyLint
