import DependencyLint.Command.Run
import DependencyLint.Proofs.EncodedManifest
import DependencyLint.Proofs.EncodedText
import DependencyLint.Proofs.TreeChanges

/-!
# What a check does

A check of a project either fails before it has a result, or it writes a report on the result.

**Theorem (`check_writes_only_report`).** A check without a result fails and leaves all files as
they are. A check with a result changes at most the file of its report and creates directories above
it. If the report can be written, its file holds the text of the report, and the check fails exactly
if the report has lines, findings count as failures and the check is not to warn only. If it cannot
be written, the check fails.

The report is written before the findings are weighed, so the file is the same in all cases.
-/

namespace DependencyLint

theorem FileSystem.text?_eq_some {files : FileSystem} {p : Path} {text : String}
    (h : files.content? p = some text.toUTF8) : files.text? p = some text := by
  rw [text?, h]
  exact Text.Utf8.strict_toUTF8 text

theorem Report.publish_eq (report : Report) (failOnFindings : Bool) (files : FileSystem) :
    report.publish failOnFindings files =
      ((files.writeDeep report.path report.text.toUTF8).1,
        if (files.writeDeep report.path report.text.toUTF8).2 then report.verdict failOnFindings
        else .error (.unwritable report.path)) := by
  unfold publish
  rcases files.writeDeep report.path report.text.toUTF8 with ⟨after, _ | _⟩ <;> rfl

namespace Command

section Stages

variable {files : FileSystem} {environment : Environment} {options : CheckOptions}
  {settings : Settings} {manifest : Manifest} {rules : List Rule} {result : LintResult}

/-! ## Up to the result -/

/-- The rules that a check is asked to use, all of them if it is not asked for any. -/
def CheckOptions.chosen (options : CheckOptions) (rules : List Rule) : List Rule :=
  match options.rules with
  | none => rules
  | some list => selectRules rules (ruleNames list)

/-- A check comes to a result: settings and manifest can be loaded, the rules can be built, and the
analysis succeeds. -/
inductive Completes (files : FileSystem) (environment : Environment) (options : CheckOptions)
    (settings : Settings) (result : LintResult) : Prop where
  | intro (manifest : Manifest) (rules : List Rule)
      (hsettings : loadSettings files environment options = .ok settings)
      (hmanifest : loadManifest files options = .ok manifest)
      (hrules : Rule.defaults settings [] = .ok rules)
      (hresult : (Project.mk files manifest settings).analyze (options.chosen rules) = .ok result)

theorem setup_eq_ok (hsettings : loadSettings files environment options = .ok settings)
    (hmanifest : loadManifest files options = .ok manifest)
    (hrules : Rule.defaults settings [] = .ok rules) :
    ∃ warnings, setup files environment options =
      .ok ⟨⟨files, manifest, settings⟩, options.chosen rules, warnings⟩ := by
  unfold setup CheckOptions.chosen
  rw [hsettings, hmanifest]
  simp only [hrules, bind, Except.bind, Except.mapError]
  cases options.rules with
  | none => exact ⟨[], rfl⟩
  | some list => exact ⟨_, rfl⟩

theorem exists_of_setup_eq_ok {s : Setup} (h : setup files environment options = .ok s) :
    ∃ settings manifest rules, loadSettings files environment options = .ok settings ∧
      loadManifest files options = .ok manifest ∧ Rule.defaults settings [] = .ok rules := by
  obtain ⟨settings, hsettings, h⟩ := bind_eq_ok h
  obtain ⟨manifest, hmanifest, h⟩ := bind_eq_ok h
  obtain ⟨rules, hrules, -⟩ := bind_eq_ok h
  refine ⟨settings, manifest, rules, hsettings, hmanifest, ?_⟩
  cases hdefaults : Rule.defaults settings [] with
  | error e =>
    rw [hdefaults] at hrules
    cases hrules
  | ok rules =>
    rw [hdefaults] at hrules
    cases hrules
    rfl

/-- Without a result, a check fails and the files are left alone. -/
theorem check_of_not_completes
    (h : ∀ settings result, ¬Completes files environment options settings result) :
    (check files environment options).exit ≠ 0 ∧ (check files environment options).files = files := by
  unfold check
  cases hsetup : setup files environment options with
  | error message => exact ⟨Nat.one_ne_zero, rfl⟩
  | ok s =>
    obtain ⟨settings, manifest, rules, hsettings, hmanifest, hrules⟩ := exists_of_setup_eq_ok hsetup
    obtain ⟨warnings, heq⟩ := setup_eq_ok hsettings hmanifest hrules
    cases hsetup.symm.trans heq
    cases hresult : (Project.mk files manifest settings).analyze (options.chosen rules) with
    | error failure => simp [hresult, failAfter]
    | ok result =>
      have hcompletes := Completes.intro manifest rules hsettings hmanifest hrules hresult
      exact absurd hcompletes (h settings result)

/-- With a result, a check concludes with it. -/
theorem check_of_completes (h : Completes files environment options settings result) :
    ∃ setup warnings, setup.project.files = files ∧ setup.project.settings = settings ∧
      check files environment options = conclude options setup warnings result := by
  obtain ⟨manifest, rules, hsettings, hmanifest, hrules, hresult⟩ := h
  obtain ⟨warnings, hsetup⟩ := setup_eq_ok hsettings hmanifest hrules
  refine ⟨⟨⟨files, manifest, settings⟩, options.chosen rules, warnings⟩,
    warnings ++ manifest.unknownReferences.map UnknownReference.message, rfl, rfl, ?_⟩
  rw [check, hsetup]
  simp only [hresult]

/-! ## From the result on -/

theorem reportPath_eq (options : CheckOptions) (settings : Settings) :
    reportPath options settings = options.report.getD (options.project.join settings.report) := by
  unfold reportPath
  cases options.report with
  | some path => rfl
  | none =>
    split_ifs with habsolute
    · simp [Path.join, habsolute]
    · rfl

/-- The end of a check: the report is written, and the exit status tells whether it could be and
whether its findings count. -/
theorem conclude_eq {setup : Setup} (hsettings : setup.project.settings = settings)
    {report : Report} (hreport : report = Report.ofResult result (reportPath options settings))
    (warnings : List String) :
    (conclude options setup warnings result).files =
        (setup.project.files.writeDeep report.path report.text.toUTF8).1 ∧
      ((conclude options setup warnings result).exit ≠ 0 ↔
        (setup.project.files.writeDeep report.path report.text.toUTF8).2 = true →
          report.lines ≠ [] ∧ settings.failOnFindings = true ∧ options.warnOnly = false) := by
  subst hsettings hreport
  simp only [conclude, Report.publish_eq]
  generalize hreport : Report.ofResult result (reportPath options setup.project.settings) = report
  cases (setup.project.files.writeDeep report.path report.text.toUTF8).2 with
  | false => simp [failAfter]
  | true =>
    rw [if_pos rfl, Report.verdict, Report.isSuccess]
    cases report.lines <;> cases setup.project.settings.failOnFindings <;> cases options.warnOnly <;>
      simp

end Stages

/-! ## The theorem -/

/-- **A check writes nothing but its report.** This holds of every check that a command line can ask
for, wherever its paths start. -/
theorem check_writes_only_report (files : FileSystem) (environment : Environment)
    (options : CheckOptions) :
    let outcome := runRequest files environment (.check options)
    (∀ args, parse args = some (.check options) → run files environment args = outcome) ∧
    ((∀ settings result, ¬Completes files environment options settings result) →
        outcome.exit ≠ 0 ∧ outcome.files = files) ∧
      ∀ settings result, Completes files environment options settings result →
        let path := options.report.getD (options.project.join settings.report)
        let report := Report.ofResult result path
        let isWritten := (files.writeDeep path report.text.toUTF8).2
        outcome.files.workingDir = files.workingDir ∧
        (∀ place, outcome.files.tree.node? place = files.tree.node? place ∨
          files.Change outcome.files path report.text.toUTF8 place) ∧
        (isWritten = true →
          outcome.files.stored? path = some report.text.toUTF8 ∧
            (outcome.exit ≠ 0 ↔
              report.lines ≠ [] ∧ settings.failOnFindings = true ∧ options.warnOnly = false)) ∧
        (isWritten = false →
          outcome.exit ≠ 0 ∧
            ∀ place access content,
              outcome.files.tree.node? place = some (.file access content) ↔
                files.tree.node? place = some (.file access content)) := by
  intro outcome
  refine ⟨fun args hargs => by rw [run, hargs], check_of_not_completes, ?_⟩
  intro settings result hcompletes path report isWritten
  obtain ⟨setup, warnings, rfl, hsettings, hcheck⟩ := check_of_completes hcompletes
  have hreport : report = Report.ofResult result (reportPath options settings) := by
    rw [reportPath_eq]
  obtain ⟨hfiles, hexit⟩ := conclude_eq hsettings hreport warnings
  have houtcome : outcome = conclude options setup warnings result := hcheck
  rw [houtcome, hfiles, hexit]
  refine ⟨FileSystem.workingDir_writeDeep _ path _,
    fun place => FileSystem.writeDeep_changes _ path _ place, ?_, ?_⟩
  · intro hwritten
    exact ⟨FileSystem.stored?_writeDeep hwritten, forall_prop_of_true hwritten⟩
  · intro hfailed
    refine ⟨fun hwritten => ?_, FileSystem.file_writeDeep_of_failed hfailed⟩
    exact absurd (hfailed.symm.trans hwritten) Bool.false_ne_true

/-! ## Checks of a project with an unused library -/

namespace UnusedLibrary

def library : Coordinate := ⟨"org", "lib", "1"⟩

/-- A module that declares a library without classes. -/
def app : BuildModule where
  id := "app"
  directory := ⟨"app"⟩
  configurations := [{
    name := "api"
    canBeResolved := true
    dependencies := [.onLibrary library]
    resolved := [⟨library, ["::"], []⟩] }]

/-- The settings of the user say where the report goes. -/
def userSettings : String := "report = \"/tmp/report.txt\""

/-- A project below `work`, which is the working directory, and a user with settings below
`home`. -/
def files (sources : FileTree) : FileSystem where
  tree := .dir [
    ("work", .dir [("graph.json", .file (Manifest.encode ⟨[app]⟩).render.toUTF8), ("app", sources)]),
    ("home", .dir [(".dep-seeker", .dir [("config.toml", .file userSettings.toUTF8)])])]
  workingDir := ["work"]

def noSources : FileTree := .empty

/-- A source file that cannot be read. -/
def lockedSource : FileTree := .dir [("src", .dir [("A.kt", .fileWith { read := false } .empty)])]

def environment : Environment := { home := some ⟨"/home"⟩ }

def args (more : List String) : List String := ["check", "/work", "-m", "/work/graph.json"] ++ more

def options (report : Option Path) (warnOnly : Bool) : CheckOptions :=
  { project := ⟨"/work"⟩, manifest := some ⟨"/work/graph.json"⟩, report, warnOnly }

def settings : Settings := { report := ⟨"/tmp/report.txt"⟩ }

def manifest : Manifest := ⟨[{ app with directory := ⟨"/work/app"⟩ }]⟩

def rules : List Rule := [.unusedModules, .unusedLibraries]

def result : LintResult :=
  ⟨[⟨"DS002", "unused-library-dependency", "app", "org:lib:1", .unusedLibrary⟩], 1⟩

def reportText : String :=
  "Found 1 lint issues(/tmp/report.txt):\nModule app declared unused dependency org:lib:1"

section

variable (sources : FileTree) (report : Option Path) (warnOnly : Bool)

theorem loadSettings_files :
    loadSettings (files sources) environment (options report warnOnly) = .ok settings := by
  have hfile : settingsFile? (files sources) environment (options report warnOnly) =
      some ⟨"/home/.dep-seeker/config.toml"⟩ := by rfl
  have htext : (files sources).text? ⟨"/home/.dep-seeker/config.toml"⟩ = some userSettings :=
    FileSystem.text?_eq_some (by rfl)
  have hparse : Settings.parse userSettings = .ok settings := eq_ok_of_toOption (by decide +kernel)
  rw [loadSettings, hfile]
  simp only [Settings.load, htext, hparse]
  rfl

theorem loadManifest_files : loadManifest (files sources) (options report warnOnly) = .ok manifest := by
  have htext : (files sources).text? ⟨"/work/graph.json"⟩ = some (Manifest.encode ⟨[app]⟩).render :=
    FileSystem.text?_eq_some (by rfl)
  have hparse : Manifest.load (files sources) ⟨"/work/graph.json"⟩ = .ok manifest := by
    rw [Manifest.load, htext]
    exact (Manifest.parse_of_tokens (by decide) (by decide +kernel) rfl).trans
      (eq_ok_of_toOption (by decide +kernel))
  show (Manifest.load (files sources) ⟨"/work/graph.json"⟩).mapError _ = _
  rw [hparse]
  rfl

theorem completes :
    Completes (files noSources) environment (options report warnOnly) settings result := by
  have hresult : (Project.mk (files noSources) manifest settings).analyze rules = .ok result :=
    eq_ok_of_toOption (by decide +kernel)
  exact .intro manifest rules (loadSettings_files _ _ _) (loadManifest_files _ _ _) rfl hresult

theorem not_completes_locked (other : Settings) (found : LintResult) :
    ¬Completes (files lockedSource) environment (options report warnOnly) other found := by
  rintro ⟨others, chosen, hsettings, hmanifest, hrules, hresult⟩
  cases (loadSettings_files _ _ _).symm.trans hsettings
  cases (loadManifest_files _ _ _).symm.trans hmanifest
  cases hrules
  have hfails : (Project.mk (files lockedSource) manifest settings).analyze rules =
      .error (.sourceRead ⟨"/work/app/src/A.kt"⟩) := by decide +kernel
  cases hfails.symm.trans hresult

end

end UnusedLibrary

open UnusedLibrary in
/-- All paths are absolute, but for that of a report below a file of the working directory, which
cannot be written. A source that cannot be read makes the check fail. -/
theorem report_written_whatever_follows :
    (run (files noSources) environment (args [])).files.stored? ⟨"/tmp/report.txt"⟩ =
        some reportText.toUTF8 ∧
      (run (files noSources) environment (args [])).exit ≠ 0 ∧
      (run (files noSources) environment (args ["--warn-only"])).files.stored? ⟨"/tmp/report.txt"⟩ =
        some reportText.toUTF8 ∧
      (run (files noSources) environment (args ["--warn-only"])).exit = 0 ∧
      (run (files noSources) environment (args ["--report", "graph.json/r.txt"])).exit ≠ 0 ∧
      (run (files lockedSource) environment (args [])).exit ≠ 0 ∧
      (run (files lockedSource) environment (args [])).files = files lockedSource := by
  have hargs : parse (args []) = some (.check (options none false)) := rfl
  have hwarn : parse (args ["--warn-only"]) = some (.check (options none true)) := rfl
  have hbad : parse (args ["--report", "graph.json/r.txt"]) =
      some (.check (options (some ⟨"graph.json/r.txt"⟩) false)) := rfl
  have hreport : ∀ warnOnly, (options none warnOnly).report.getD
      ((options none warnOnly).project.join settings.report) = ⟨"/tmp/report.txt"⟩ := by
    decide +kernel
  have htext : (Report.ofResult result ⟨"/tmp/report.txt"⟩).text = reportText := by decide +kernel
  have hcheck := check_writes_only_report (files noSources) environment
  obtain ⟨hrun, -, hends⟩ := hcheck (options none false)
  obtain ⟨hstored, hexit⟩ := (hends _ _ (completes none false)).2.2.1 (by decide +kernel)
  obtain ⟨hrun', -, hends'⟩ := hcheck (options none true)
  obtain ⟨hstored', hexit'⟩ := (hends' _ _ (completes none true)).2.2.1 (by decide +kernel)
  obtain ⟨hrunBad, -, hendsBad⟩ := hcheck (options (some ⟨"graph.json/r.txt"⟩) false)
  obtain ⟨hfailed, -⟩ := (hendsBad _ _ (completes _ false)).2.2.2 (by decide +kernel)
  obtain ⟨hrunLocked, hlocked, -⟩ :=
    check_writes_only_report (files lockedSource) environment (options none false)
  rw [hreport, htext] at hstored hstored'
  rw [hrun _ hargs, hrun' _ hwarn, hrunBad _ hbad, hrunLocked _ hargs]
  refine ⟨hstored, hexit.2 ⟨by decide +kernel, rfl, rfl⟩, hstored', ?_, hfailed,
    hlocked (not_completes_locked none false)⟩
  by_contra hne
  exact absurd (hexit'.1 hne).2.2 (by decide)

end Command

end DependencyLint
