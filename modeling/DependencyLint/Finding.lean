import DependencyLint.Text.Blank

/-!
# Findings

What the rules report, and the result of a whole analysis.
-/

namespace DependencyLint

/-- What is wrong with a dependency. -/
inductive FindingKind where
  /-- A custom check gave this message. -/
  | customCheck (message : String)
  /-- No package of the module is imported. -/
  | unusedModule
  /-- No package of the module is imported, but some of one that it depends on. -/
  | replaceableModule (replacement : String)
  /-- No class of the library is imported. -/
  | unusedLibrary
deriving DecidableEq, Repr

/-- What a rule reports about a dependency of a module. -/
structure Finding where
  code : String
  rule : String
  module : String
  dependency : String
  kind : FindingKind
deriving DecidableEq, Repr

/-- The line of the report for a finding. -/
def Finding.message (finding : Finding) : String :=
  match finding.kind with
  | .customCheck message => message
  | .unusedModule => s!"Module {finding.module} declares unused dependency {finding.dependency}"
  | .replaceableModule replacement =>
    s!"Module {finding.module} doesn't use {finding.dependency}, replace it with {replacement}"
  | .unusedLibrary => s!"Module {finding.module} declared unused dependency {finding.dependency}"

/-- The result of an analysis. -/
structure LintResult where
  findings : List Finding := []
  modulesChecked : Nat := 0
deriving DecidableEq, Repr, Inhabited

namespace LintResult

def isOk (result : LintResult) : Bool := result.findings.isEmpty

def messages (result : LintResult) : List String := result.findings.map Finding.message

/-- The lines of the report; a finding with a blank message has none. -/
def lines (result : LintResult) : List String := result.messages.filter fun line => !Text.isBlank line

end LintResult

end DependencyLint
