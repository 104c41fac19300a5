import DependencyLint.Proofs.UnusedLibraries
import DependencyLint.Proofs.UnusedModules

/-!
# A run over all modules

A run checks the enabled modules one after the other in one session. What it finds about a module
can be told without the session, from the libraries that the modules before it have indexed
(`Project.findingsAfter`).

**The state along a run** (`ready_after_run`). After some modules have been checked, nothing is kept
about the contents of the others, and the table of classes holds the libraries of those modules in
their order (`Project.librariesRead`).

**Main result** (`checked_in_run`). In a run that succeeds, each enabled module is checked in such a
session, and its findings stand in the result as one block. What every check ensures by itself holds
of all findings (`forall_of_analyze`).
-/

namespace DependencyLint

open Query Session

/-! ## Findings of a rule -/

namespace Rule

/-- Whether a rule looks at the contents of libraries. -/
def readsContents : Rule → Bool
  | unusedModules => false
  | unusedLibraries | custom _ => true

/-- What a rule says about a library of a module, if anything. -/
def verdict (project : Project) (m : BuildModule) : Rule → LibraryContent → Option Finding
  | unusedModules, _ => none
  | unusedLibraries, library =>
    if usesLibrary (project.visibleImports m) library.classes then none
    else some (unusedLibraries.finding m library.fullName .unusedLibrary)
  | custom check, library =>
    let message := check.evaluate (project.summary m) library
    if message = "" then none
    else some ((custom check).finding m library.fullName (.customCheck message))

/-- The findings of a rule about a module whose libraries have the given contents. -/
def findings (project : Project) (m : BuildModule) (contents : List LibraryContent) :
    Rule → List Finding
  | unusedModules => project.moduleFindings m
  | unusedLibraries => contents.filterMap (unusedLibraries.verdict project m)
  | custom check => contents.filterMap ((custom check).verdict project m)

variable {project : Project} {m : BuildModule} {contents : List LibraryContent} {rule : Rule}

theorem findings_of_reads (h : rule.readsContents = true) :
    rule.findings project m contents = contents.filterMap (rule.verdict project m) := by
  cases rule with
  | unusedModules => cases h
  | unusedLibraries => rfl
  | custom check => rfl

theorem findings_unusedLibraries :
    unusedLibraries.findings project m contents = project.libraryFindings m contents := by
  rw [findings, Project.libraryFindings, ← List.filterMap_eq_filter, List.map_filterMap]
  congr 1
  funext library
  rw [verdict, Option.guard]
  cases usesLibrary (project.visibleImports m) library.classes <;> rfl

theorem findings_of_not_reads (h : rule.readsContents = false) (other : List LibraryContent) :
    rule.findings project m contents = rule.findings project m other := by
  cases rule with
  | unusedModules => rfl
  | unusedLibraries => cases h
  | custom check => cases h

section Check

variable {B A : Session → Prop}
  {K : List (String × List LibraryContent) → List (String × List String) → Prop}

/-- A rule that reads contents goes by what is answered for them. -/
theorem answers_check_of_reads (hid : project.DistinctIds) (hm : m ∈ project.modules)
    (hr : rule.readsContents = true)
    (h : Answers project B (libraryContents m) (.ok contents) (Ready project K)) :
    Answers project B (rule.check m) (.ok (rule.findings project m contents)) (Ready project K) := by
  cases rule with
  | unusedModules => cases hr
  | unusedLibraries =>
    rw [findings_unusedLibraries]
    exact Project.answers_checkLibraries hid hm h
  | custom check =>
    refine h.bind ?_
    cases contents with
    | nil => exact Answers.pure []
    | cons library rest => exact (answers_summary hid hm).bind (Answers.pure _)

theorem answers_check_error (hr : rule.readsContents = true) {e : Failure}
    (h : Answers project B (libraryContents m) (.error e) A) :
    Answers project B (rule.check m) (.error e) A := by
  cases rule with
  | unusedModules => cases hr
  | unusedLibraries => exact h.bind_error
  | custom check => exact h.bind_error

/-- A rule that reads no contents leaves their tables alone. -/
theorem answers_check_of_not_reads (hid : project.DistinctIds) (hm : m ∈ project.modules)
    (contents : List LibraryContent) (hr : rule.readsContents = false) :
    Answers project (Ready project K) (rule.check m) (.ok (rule.findings project m contents))
      (Ready project K) := by
  cases rule with
  | unusedModules => exact Project.answers_checkModules hid hm
  | unusedLibraries => cases hr
  | custom check => cases hr

/-- Whatever is answered for the contents, a rule finds what it has to say about them. -/
theorem ensures_check (hid : project.DistinctIds) (hm : m ∈ project.modules)
    {P : List LibraryContent → Prop}
    (h : Ensures project (Ready project K) (libraryContents m) P) (rule : Rule) :
    Ensures project (Ready project K) (rule.check m) fun found =>
      ∃ contents, (rule.readsContents = true → P contents) ∧
        found = rule.findings project m contents := by
  intro s hs
  cases hr : rule.readsContents with
  | false =>
    obtain ⟨hanswer, hready⟩ := answers_check_of_not_reads hid hm [] hr s hs
    refine ⟨hready, fun found hfound => ⟨[], by simp, ?_⟩⟩
    rw [hanswer] at hfound
    exact (Except.ok.inj hfound).symm
  | true =>
    obtain ⟨hready, hcontents⟩ := h s hs
    -- In this one session, the answer for the contents is a fixed one.
    rcases hq : (libraryContents m).answer project s with ⟨e | contents, s'⟩ <;>
      rw [hq] at hready hcontents
    · have herror : Answers project (· = s) (libraryContents m) (.error e) (Ready project K) := by
        rintro _ rfl
        rw [hq]
        exact ⟨rfl, hready⟩
      obtain ⟨hanswer, hready⟩ := answers_check_error hr herror s rfl
      refine ⟨hready, fun found hfound => ?_⟩
      rw [hanswer] at hfound
      cases hfound
    · have hok : Answers project (· = s) (libraryContents m) (.ok contents) (Ready project K) := by
        rintro _ rfl
        rw [hq]
        exact ⟨rfl, hready⟩
      obtain ⟨hanswer, hready⟩ := answers_check_of_reads hid hm hr hok s rfl
      refine ⟨hready, fun found hfound => ⟨contents, fun _ => hcontents contents rfl, ?_⟩⟩
      rw [hanswer] at hfound
      exact (Except.ok.inj hfound).symm

end Check

end Rule

/-! ## All rules about one module -/

section Rules

variable {project : Project} {m : BuildModule} {rest : List BuildModule}
  {known : List ResolvedLibrary} {contents : List LibraryContent} {rules : List Rule}

/-- Once the contents of a module are kept, all rules go by them. -/
theorem answers_rules_of_asked (hid : project.DistinctIds) (hm : m ∈ project.modules)
    (rules : List Rule) :
    Answers project (Ready project (Tables project (AskedFor m contents rest) known))
      (rules.mapM (·.check m)) (.ok (rules.map (·.findings project m contents)))
      (Ready project (Tables project (AskedFor m contents rest) known)) := by
  refine Answers.mapM fun rule _ => ?_
  cases hr : rule.readsContents with
  | true => exact Rule.answers_check_of_reads hid hm hr answers_libraryContents_again
  | false => exact Rule.answers_check_of_not_reads hid hm contents hr

/-- Rules that read no contents leave the module unasked. -/
theorem answers_rules_of_not_reads
    {K : List (String × List LibraryContent) → List (String × List String) → Prop}
    (hid : project.DistinctIds) (hm : m ∈ project.modules) (contents : List LibraryContent)
    (hr : rules.any (·.readsContents) = false) :
    Answers project (Ready project K)
      (rules.mapM (·.check m)) (.ok (rules.map (·.findings project m contents)))
      (Ready project K) := by
  refine Answers.mapM fun rule hrule => Rule.answers_check_of_not_reads hid hm contents ?_
  simpa using List.any_eq_false.1 hr rule hrule

/-- The first rule that reads the contents has them indexed; the others find them kept. -/
theorem answers_rules_of_reads (hid : project.DistinctIds) (hm : m ∈ project.modules)
    (hrest : ∀ n ∈ rest, n.id ≠ m.id) (hc : project.contentsAfter known m = .ok contents)
    (hr : rules.any (·.readsContents) = true) :
    Answers project (Ready project (Tables project (Unasked (m :: rest)) known))
      (rules.mapM (·.check m)) (.ok (rules.map (·.findings project m contents)))
      (Ready project
        (Tables project (AskedFor m contents rest) (known ++ project.resolvedFor m))) := by
  -- Up to the first rule that reads them, the contents stay unasked.
  induction rules with
  | nil => cases hr
  | cons rule rules ih =>
    rw [List.mapM_cons, List.map_cons]
    cases hrule : rule.readsContents with
    | true =>
      exact (Rule.answers_check_of_reads hid hm hrule
        (answers_libraryContents hid hm hrest hc)).bind
          ((answers_rules_of_asked hid hm rules).bind (Answers.pure _))
    | false =>
      rw [List.any_cons, hrule, Bool.false_or] at hr
      exact (Rule.answers_check_of_not_reads hid hm contents hrule).bind
        ((ih hr).bind (Answers.pure _))

theorem answers_rules_error (hid : project.DistinctIds) (hm : m ∈ project.modules) {e : Failure}
    (he : project.contentsAfter known m = .error e) (hr : rules.any (·.readsContents) = true) :
    Answers project (Ready project (Tables project (Unasked (m :: rest)) known))
      (rules.mapM (·.check m)) (.error e) (Ready project fun _ _ => True) := by
  induction rules with
  | nil => cases hr
  | cons rule rules ih =>
    rw [List.mapM_cons]
    cases hrule : rule.readsContents with
    | true =>
      exact (Rule.answers_check_error hrule (answers_libraryContents_error hid hm he)).bind_error
    | false =>
      rw [List.any_cons, hrule, Bool.false_or] at hr
      exact (Rule.answers_check_of_not_reads hid hm [] hrule).bind (ih hr).bind_error

end Rules

namespace Project

/-- The rules that are not switched off. -/
def activeRules (project : Project) (rules : List Rule) : List Rule :=
  rules.filter fun rule => project.settings.isRuleEnabled rule.name

def readsContents (project : Project) (rules : List Rule) : Bool :=
  (project.activeRules rules).any (·.readsContents)

/-- The findings about a module that is checked after the libraries `known` were indexed. -/
def findingsAfter (project : Project) (rules : List Rule) (known : List ResolvedLibrary)
    (m : BuildModule) : Except Failure (List Finding) :=
  (if project.readsContents rules then project.contentsAfter known m else .ok []).map fun contents =>
    (project.activeRules rules).flatMap (·.findings project m contents)

/-- The libraries that are indexed while the given modules are checked. -/
def librariesRead (project : Project) (rules : List Rule) (modules : List BuildModule) :
    List ResolvedLibrary :=
  if project.readsContents rules then modules.flatMap project.resolvedFor else []

theorem librariesRead_nil (project : Project) (rules : List Rule) :
    project.librariesRead rules [] = [] := by
  rw [librariesRead, List.flatMap_nil, ite_self]

theorem librariesRead_cons (project : Project) (rules : List Rule) (m : BuildModule)
    (modules : List BuildModule) :
    project.librariesRead rules (m :: modules) =
      project.librariesRead rules [m] ++ project.librariesRead rules modules := by
  rw [librariesRead, librariesRead, librariesRead]
  split_ifs
  · rw [List.flatMap_cons, List.flatMap_singleton]
  · rfl

end Project

section Module

variable {project : Project} {m : BuildModule} {rest : List BuildModule}
  {known : List ResolvedLibrary} {rules : List Rule}

theorem answers_analyzeModule_of_rules {B A : Session → Prop} {contents : List LibraryContent}
    (h : Answers project B ((project.activeRules rules).mapM (·.check m))
      (.ok ((project.activeRules rules).map (·.findings project m contents))) A) :
    Answers project B (analyzeModule rules m)
      (.ok ((project.activeRules rules).flatMap (·.findings project m contents))) A := by
  rw [List.flatMap_def]
  exact Answers.read.bind (h.bind (Answers.pure _))

/-- A module that is checked after others has its libraries indexed behind theirs. -/
theorem answers_analyzeModule (hid : project.DistinctIds) (hm : m ∈ project.modules)
    (hrest : ∀ n ∈ rest, n.id ≠ m.id) {found : List Finding}
    (h : project.findingsAfter rules known m = .ok found) :
    Answers project (Ready project (Tables project (Unasked (m :: rest)) known))
      (analyzeModule rules m) (.ok found)
      (Ready project (Tables project (Unasked rest) (known ++ project.librariesRead rules [m]))) := by
  rw [Project.findingsAfter, Project.readsContents] at h
  rw [Project.librariesRead, Project.readsContents]
  cases hr : (project.activeRules rules).any (·.readsContents) with
  | false =>
    rw [hr] at h
    cases h
    have hrules := answers_rules_of_not_reads (K := Tables project (Unasked (m :: rest)) known)
      hid hm [] hr
    refine (answers_analyzeModule_of_rules hrules).mono (fun _ hs => hs) fun s hs => ?_
    rw [if_neg Bool.false_ne_true, List.append_nil]
    exact { hs with kept := ⟨fun n hn => hs.kept.1 n (List.mem_cons_of_mem m hn), hs.kept.2⟩ }
  | true =>
    rw [hr, if_pos rfl] at h
    obtain ⟨contents, hc, rfl⟩ := map_eq_ok h
    have hrules := answers_rules_of_reads hid hm hrest hc hr
    refine (answers_analyzeModule_of_rules hrules).mono (fun _ hs => hs) fun s hs => ?_
    rw [if_pos rfl, List.flatMap_singleton]
    exact { hs with kept := ⟨hs.kept.1.2, hs.kept.2⟩ }

theorem answers_analyzeModule_error (hid : project.DistinctIds) (hm : m ∈ project.modules)
    {e : Failure} (h : project.findingsAfter rules known m = .error e) :
    Answers project (Ready project (Tables project (Unasked (m :: rest)) known))
      (analyzeModule rules m) (.error e) (Ready project fun _ _ => True) := by
  rw [Project.findingsAfter, Project.readsContents] at h
  cases hr : (project.activeRules rules).any (·.readsContents) with
  | false => rw [hr] at h; cases h
  | true =>
    rw [hr, if_pos rfl] at h
    cases hc : project.contentsAfter known m with
    | ok contents => rw [hc] at h; cases h
    | error e' =>
      rw [hc] at h
      cases h
      exact Answers.read.bind (answers_rules_error hid hm hc hr).bind_error

/-- What is found about a module is told by the libraries that were indexed before it. -/
theorem analyzeModule_answer (hid : project.DistinctIds) (hm : m ∈ project.modules)
    (hrest : ∀ n ∈ rest, n.id ≠ m.id) {s : Session}
    (hs : Ready project (Tables project (Unasked (m :: rest)) known) s) :
    ((analyzeModule rules m).answer project s).1 = project.findingsAfter rules known m := by
  cases h : project.findingsAfter rules known m with
  | ok found => exact (answers_analyzeModule hid hm hrest h s hs).1
  | error e => exact (answers_analyzeModule_error hid hm h s hs).1

/-- The same for one rule that reads contents. -/
theorem Rule.check_answer (hid : project.DistinctIds) (hm : m ∈ project.modules)
    (hrest : ∀ n ∈ rest, n.id ≠ m.id) {s : Session}
    (hs : Ready project (Tables project (Unasked (m :: rest)) known) s) {rule : Rule}
    (hr : rule.readsContents = true) :
    ((rule.check m).answer project s).1 =
      (project.contentsAfter known m).map fun contents => rule.findings project m contents := by
  cases hc : project.contentsAfter known m with
  | ok contents =>
    exact (answers_check_of_reads hid hm hr (answers_libraryContents hid hm hrest hc) s hs).1
  | error e => exact (answers_check_error hr (answers_libraryContents_error hid hm hc) s hs).1

/-- Right after the index was built, a rule finds what the project tells. -/
theorem Rule.check_fresh (hid : project.DistinctIds) (hm : m ∈ project.modules)
    (hok : (Query.buildIndex.answer project {}).1 = .ok ()) (rule : Rule) :
    ((rule.check m).answer project project.freshSession).1 =
      (if rule.readsContents then project.contentsAfter [] m else .ok []).map
        fun contents => rule.findings project m contents := by
  have hready : Ready project (Tables project (Unasked [m]) []) project.freshSession :=
    ready_freshSession hid ⟨fun _ _ => rfl, Indexes.nil⟩ hok
  cases hr : rule.readsContents with
  | true => exact Rule.check_answer hid hm (by simp) hready hr
  | false => exact (Rule.answers_check_of_not_reads hid hm [] hr _ hready).1

end Module

/-! ## One module after the other -/

namespace Project

/-- The modules that a run checks. -/
def enabledModules (project : Project) : List BuildModule :=
  project.modules.filter fun m => (project.settingsFor m).enabled

/-- The session of a run in which the given modules have been checked. -/
def sessionAfter (project : Project) (rules : List Rule) (modules : List BuildModule) : Session :=
  ((modules.mapM (analyzeModule rules)).answer project project.freshSession).2

end Project

section Run

variable {project : Project} {rules : List Rule}

/-- **The state along a run.** The classes of all libraries of the checked modules are indexed, and
nothing is kept about the contents of the modules to come. -/
theorem ready_after_run (hid : project.DistinctIds) {modules rest : List BuildModule}
    (hmem : ∀ n ∈ modules, n ∈ project.modules) (hnodup : ((modules ++ rest).map (·.id)).Nodup)
    {known : List ResolvedLibrary} {s s' : Session} {found : List (List Finding)}
    (hs : Ready project (Tables project (Unasked (modules ++ rest)) known) s)
    (h : (modules.mapM (analyzeModule rules)).answer project s = (.ok found, s')) :
    Ready project (Tables project (Unasked rest) (known ++ project.librariesRead rules modules))
      s' := by
  induction modules generalizing known s found with
  | nil =>
    cases h
    rw [Project.librariesRead_nil, List.append_nil]
    exact hs
  | cons m modules ih =>
    rw [List.mapM_cons] at h
    obtain ⟨first, s₁, hfirst, h⟩ := answer_bind_eq_ok h
    obtain ⟨others, s₂, hothers, h⟩ := answer_bind_eq_ok h
    cases h
    rw [List.cons_append, List.map_cons, List.nodup_cons] at hnodup
    have hrest : ∀ n ∈ modules ++ rest, n.id ≠ m.id :=
      fun n hn heq => hnodup.1 (heq ▸ List.mem_map_of_mem hn)
    have hm := hmem m List.mem_cons_self
    -- The run has succeeded, so the direct answer is no failure.
    have hfound : project.findingsAfter rules known m = .ok first := by
      rw [← analyzeModule_answer hid hm hrest hs, hfirst]
    have hs₁ := (answers_analyzeModule hid hm hrest hfound s hs).2
    rw [hfirst] at hs₁
    rw [Project.librariesRead_cons, ← List.append_assoc]
    exact ih (fun n hn => hmem n (List.mem_cons_of_mem m hn)) hnodup.2 hs₁ hothers

/-- A run that succeeds has built the index and checked all enabled modules in their order. -/
theorem analyze_eq_ok {result : LintResult} (h : project.analyze rules = .ok result) :
    (Query.buildIndex.answer project {}).1 = .ok () ∧
      ∃ found s', (project.enabledModules.mapM (analyzeModule rules)).answer project
          project.freshSession = (.ok found, s') ∧ result.findings = found.flatten := by
  obtain ⟨_, s₁, hbuild, h⟩ := answer_bind_eq_ok (Prod.ext h rfl)
  obtain ⟨_, s₂, hread, h⟩ := answer_bind_eq_ok h
  cases hread
  obtain ⟨found, s₃, hfound, h⟩ := answer_bind_eq_ok h
  cases h
  have hfresh : project.freshSession = s₁ := by rw [Project.freshSession, hbuild]
  rw [hbuild, hfresh]
  exact ⟨rfl, found, _, hfound, rfl⟩

/-- The enabled modules are modules of the project, and each one is there once. -/
theorem enabled_split (hid : project.DistinctIds) {earlier later : List BuildModule}
    {m : BuildModule} (hsplit : project.enabledModules = earlier ++ m :: later) :
    (∀ n ∈ earlier ++ m :: later, n ∈ project.modules) ∧
      ((earlier ++ m :: later).map (·.id)).Nodup ∧ ∀ n ∈ later, n.id ≠ m.id := by
  have hnodup : ((earlier ++ m :: later).map (·.id)).Nodup := by
    rw [← hsplit]
    exact List.Nodup.sublist (List.filter_sublist.map _) hid
  refine ⟨fun n hn => ?_, hnodup, ?_⟩
  · rw [← hsplit] at hn
    exact List.mem_of_mem_filter hn
  · rw [List.map_append, List.map_cons] at hnodup
    have hcons := (List.nodup_append.1 hnodup).2.1
    exact fun n hn heq => (List.nodup_cons.1 hcons).1 (heq ▸ List.mem_map_of_mem hn)

/-- **How a module is checked in a run.** The module `m` is checked when the libraries of the modules
before it are indexed and nothing is kept about its own contents. What is found about it stands in
the result between what is found about the others. -/
theorem checked_in_run (hid : project.DistinctIds) {result : LintResult}
    (hrun : project.analyze rules = .ok result) {earlier later : List BuildModule}
    {m : BuildModule} (hsplit : project.enabledModules = earlier ++ m :: later) :
    Ready project (Tables project (Unasked (m :: later)) (project.librariesRead rules earlier))
        (project.sessionAfter rules earlier) ∧
      ∃ (front : List (List Finding)) (found : List Finding) (back : List (List Finding)),
        (earlier.mapM (analyzeModule rules)).answer project project.freshSession =
          (.ok front, project.sessionAfter rules earlier) ∧
        project.findingsAfter rules (project.librariesRead rules earlier) m = .ok found ∧
        result.findings = front.flatten ++ found ++ back.flatten := by
  obtain ⟨hok, all, s', hall, hresult⟩ := analyze_eq_ok hrun
  rw [hsplit, List.mapM_append, List.mapM_cons] at hall
  obtain ⟨front, s₁, hfront, hall⟩ := answer_bind_eq_ok hall
  obtain ⟨others, s₂, hothers, hall⟩ := answer_bind_eq_ok hall
  obtain ⟨found, s₃, hfound, hothers⟩ := answer_bind_eq_ok hothers
  obtain ⟨back, s₄, -, hothers⟩ := answer_bind_eq_ok hothers
  cases hothers
  cases hall
  have hs₁ : project.sessionAfter rules earlier = s₁ := by rw [Project.sessionAfter, hfront]
  obtain ⟨hsub, hnodup, hlater⟩ := enabled_split hid hsplit
  have hready : Ready project
      (Tables project (Unasked (m :: later)) (project.librariesRead rules earlier)) s₁ :=
    ready_after_run hid (fun n hn => hsub n (List.mem_append_left _ hn)) hnodup
      (ready_freshSession hid ⟨fun _ _ => rfl, Indexes.nil⟩ hok) hfront
  rw [hs₁]
  refine ⟨hready, front, found, back, hfront, ?_, ?_⟩
  · rw [← analyzeModule_answer hid (hsub m (by simp)) hlater hready, hfound]
  · rw [hresult]
    simp

/-! ## All findings of a run -/

theorem ensures_analyzeModule {I : Session → Prop} {m : BuildModule} {P : Rule → Finding → Prop}
    (h : ∀ rule : Rule, Ensures project I (rule.check m) fun found => ∀ finding ∈ found, P rule finding)
    (rules : List Rule) :
    Ensures project I (analyzeModule rules m) fun found =>
      ∀ finding ∈ found, ∃ rule ∈ rules, P rule finding := by
  refine Answers.read.ensures.bind fun p hp => ?_
  cases hp
  refine (Ensures.mapM fun rule _ => h rule).bind fun found hfound => Ensures.pure ?_
  intro finding hf
  obtain ⟨list, hlist, hf⟩ := List.mem_flatten.1 hf
  obtain ⟨rule, hrule, hP⟩ := exists_of_forall₂ hfound.flip hlist
  exact ⟨rule, List.mem_of_mem_filter hrule, hP finding hf⟩

/-- What every check ensures in a session of the run holds of all its findings. -/
theorem forall_of_analyze
    {K : List (String × List LibraryContent) → List (String × List String) → Prop}
    (hid : project.DistinctIds) (hK : K [] []) {P : BuildModule → Rule → Finding → Prop}
    (h : ∀ m ∈ project.modules, ∀ rule : Rule, Ensures project (Ready project K) (rule.check m)
      fun found => ∀ finding ∈ found, P m rule finding)
    {result : LintResult} (hrun : project.analyze rules = .ok result) :
    ∀ finding ∈ result.findings, ∃ m ∈ project.enabledModules, ∃ rule ∈ rules, P m rule finding := by
  obtain ⟨hok, found, s', hanswer, hresult⟩ := analyze_eq_ok hrun
  have hmodules := Ensures.mapM fun m (hm : m ∈ project.enabledModules) =>
    ensures_analyzeModule (h m (List.mem_of_mem_filter hm)) rules
  have hrelated := (hmodules _ (ready_freshSession hid hK hok)).2 found (by rw [hanswer])
  intro finding hf
  rw [hresult] at hf
  obtain ⟨list, hlist, hf⟩ := List.mem_flatten.1 hf
  obtain ⟨m, hm, hP⟩ := exists_of_forall₂ hrelated.flip hlist
  exact ⟨m, hm, hP finding hf⟩

end Run

end DependencyLint
