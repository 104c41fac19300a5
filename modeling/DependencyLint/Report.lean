import DependencyLint.FileSystem
import DependencyLint.Finding

/-!
# Reports

The report on an analysis: its text, and how it is published.
-/

namespace DependencyLint

/-- A report with the file that it is written to. -/
structure Report where
  lines : List String
  modulesChecked : Nat
  path : Path
deriving DecidableEq, Repr

namespace Report

/-- A report of the lines that are not blank. -/
def ofLines (lines : List String) (modulesChecked : Nat) (path : Path) : Report :=
  ⟨lines.filter fun line => !Text.isBlank line, modulesChecked, path⟩

def ofResult (result : LintResult) (path : Path) : Report :=
  ofLines result.lines result.modulesChecked path

def isSuccess (report : Report) : Bool := report.lines.isEmpty

def issueCount (report : Report) : Nat := report.lines.length

/-- The first line of a report with findings. -/
def headline (report : Report) : String :=
  s!"Found {report.issueCount} lint issues({report.path.text}):"

def text (report : Report) : String :=
  if report.isSuccess then s!"Analyzed {report.modulesChecked} modules. Issues not found"
  else "\n".intercalate (report.headline :: report.lines)

/-- Why publishing a report fails. -/
inductive Error where
  /-- The file could not be written. -/
  | unwritable (path : Path)
  /-- There are findings, and they count as a failure. -/
  | findings (text : String)
deriving DecidableEq, Repr

def findingsCode : String := "dep_seeker::lint_failure"

def findingsHelp : String :=
  "remove the reported dependencies, add them to `ignored_dependencies`, or set " ++
    "`fail_on_violations = false`"

/-- What publishing a report that could be written comes to: a failure or a warning where there are
findings. -/
def verdict (report : Report) (failOnFindings : Bool) : Except Error (Option String) :=
  if report.isSuccess then .ok none
  else if failOnFindings then .error (.findings report.text)
  else .ok (some report.text)

/-- Writes a report to its file, with the directories above it. -/
def publish (report : Report) (failOnFindings : Bool) (files : FileSystem) :
    FileSystem × Except Error (Option String) :=
  match files.writeDeep report.path report.text.toUTF8 with
  | (files, true) => (files, report.verdict failOnFindings)
  | (files, false) => (files, .error (.unwritable report.path))

end Report

end DependencyLint
