import DependencyLint.Analysis
import DependencyLint.Command.Output
import DependencyLint.Report

/-!
# Running commands

What a command does to a file system, and what it prints.
-/

namespace DependencyLint.Command

/-- Where the settings of a user lie: a directory of their own choice, or one in their home. -/
structure Environment where
  settingsDir : Option Path := none
  home : Option Path := none

/-- What comes out of a command: its exit status, what it prints, its warnings, the first line of
its error message if it fails, and the file system afterwards. -/
structure Outcome where
  exit : Nat := 0
  output : String := ""
  warnings : List String := []
  error : Option String := none
  files : FileSystem

/-- A command fails with a message, after it has printed something. -/
def failAfter (output : String) (warnings : List String) (files : FileSystem) (message : String) :
    Outcome :=
  { exit := 1, output, warnings, error := some ("Error: " ++ message), files }

/-- A command fails with a message. -/
def fail (files : FileSystem) (message : String) : Outcome := failAfter "" [] files message

/-! ## Settings -/

/-- The settings of the user, unless a project has its own. -/
def Environment.settingsFile? (environment : Environment) : Option Path :=
  let dir := environment.settingsDir.or (environment.home.map (·.join ⟨".dep-seeker"⟩))
  dir.map (·.join ⟨"config.toml"⟩)

/-- The file with the settings for a project: the one that was asked for, the first of those that
the project can have, or that of the user. -/
def settingsFile? (files : FileSystem) (environment : Environment) (options : CheckOptions) :
    Option Path :=
  match options.settings with
  | some path => some path
  | none =>
    ([options.project.join ⟨"dep-seeker.toml"⟩, options.project.join ⟨".dep-seeker.toml"⟩] ++
      environment.settingsFile?.toList).find? files.isFile

def loadSettings (files : FileSystem) (environment : Environment) (options : CheckOptions) :
    Except String Settings :=
  match settingsFile? files environment options with
  | none => .ok {}
  | some path => (Settings.load files path).mapError fun _ => s!"Failed to load config: {path.text}"

/-! ## Checking a project -/

def loadManifest (files : FileSystem) (options : CheckOptions) : Except String Manifest :=
  let path := options.manifest.getD (options.project.join ⟨"build/dep-seeker/graph.json"⟩)
  (Manifest.load files path).mapError fun _ => s!"Failed to load build graph: {path.text}"

/-- The names of rules in a list with commas. -/
def ruleNames (list : String) : List String := (list.splitOn ",").map Text.trim

/-- The names that no rule goes by. -/
def unknownNames (rules : List Rule) (names : List String) : List String :=
  names.filter fun name => !rules.any (·.isNamedIn [name])

/-- The rules with the given names. -/
def selectRules (rules : List Rule) (names : List String) : List Rule :=
  rules.filter (·.isNamedIn names)

/-- The file that a report is written to. -/
def reportPath (options : CheckOptions) (settings : Settings) : Path :=
  match options.report with
  | some path => path
  | none => if settings.report.isAbsolute then settings.report else options.project.join settings.report

/-- What a check works with. -/
structure Setup where
  project : Project
  rules : List Rule
  warnings : List String

def setup (files : FileSystem) (environment : Environment) (options : CheckOptions) :
    Except String Setup := do
  let settings ← loadSettings files environment options
  let manifest ← loadManifest files options
  let rules ← (Rule.defaults settings []).mapError fun _ => "Failed to build rules"
  let project : Project := ⟨files, manifest, settings⟩
  match options.rules.map ruleNames with
  | none => pure ⟨project, rules, []⟩
  | some names =>
    let warnings := (unknownNames rules names).map fun name => logMessage ("Unknown rule: " ++ name)
    pure ⟨project, selectRules rules names, warnings⟩

/-- Prints a result and publishes the report on it. -/
def conclude (options : CheckOptions) (setup : Setup) (warnings : List String) (result : LintResult) :
    Outcome :=
  let output := printResult options.format result
  let report := Report.ofResult result (reportPath options setup.project.settings)
  let failOnFindings := setup.project.settings.failOnFindings && !options.warnOnly
  match report.publish failOnFindings setup.project.files with
  | (files, .ok warning) =>
    { output, warnings := warnings ++ warning.toList.map logMessage, files }
  | (files, .error (.findings _)) =>
    { exit := 1, output, warnings, error := some Report.findingsCode, files }
  | (files, .error (.unwritable _)) => failAfter output warnings files "Failed to publish report"

def check (files : FileSystem) (environment : Environment) (options : CheckOptions) : Outcome :=
  match setup files environment options with
  | .error message => fail files message
  | .ok setup =>
    let warnings := setup.warnings ++
      setup.project.manifest.unknownReferences.map UnknownReference.message
    match setup.project.analyze setup.rules with
    | .error _ => failAfter "" warnings files "Analysis failed"
    | .ok result => conclude options setup warnings result

/-! ## Other commands -/

def settingsPath : Path := ⟨"dep-seeker.toml"⟩

/-- Why a file could not be written into the working directory. -/
def writeFault (files : FileSystem) (name : Path) : String :=
  if (files.find? name).any FileTree.isDir then "Is a directory (os error 21)"
  else if files.tree.isDirAt files.workingDir then "Permission denied (os error 13)"
  else "No such file or directory (os error 2)"

/-- Writes settings for a new project. -/
def init (files : FileSystem) (force : Bool) : Outcome :=
  if files.exists? settingsPath && !force then
    fail files (s!"Configuration file already exists at {settingsPath.text}. " ++
      "Use --force to overwrite.")
  else match files.write? settingsPath initialSettings.toUTF8 with
    | some files => { output := nextSteps, files }
    | none => fail files (writeFault files settingsPath)

def runRequest (files : FileSystem) (environment : Environment) : Request → Outcome
  | .check options => check files environment options
  | .listRules => { output := ruleList, files }
  | .init force => init files force
  | .help => { output := helpText, files }
  | .version => { output := versionText, files }

/-- Runs a command line. One that breaks the rules has exit status 2. -/
def run (files : FileSystem) (environment : Environment) (args : List String) : Outcome :=
  match parse args with
  | some request => runRequest files environment request
  | none => { exit := 2, files }

end DependencyLint.Command
