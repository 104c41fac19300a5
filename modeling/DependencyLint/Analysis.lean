import DependencyLint.Rule

/-!
# Analysis of a project

The findings of a list of rules about all modules of a project.
-/

namespace DependencyLint

/-- The findings about a module, rule by rule. -/
def analyzeModule (rules : List Rule) (m : BuildModule) : Query (List Finding) := do
  let settings := (← read).settings
  let found ← (rules.filter fun rule => settings.isRuleEnabled rule.name).mapM (·.check m)
  pure found.flatten

/-- The findings about all modules that are enabled, module by module. -/
def analyzeModules (rules : List Rule) : Query LintResult := do
  Query.buildIndex
  let project ← read
  let modules := project.modules.filter fun m => (project.settingsFor m).enabled
  let found ← modules.mapM (analyzeModule rules)
  pure ⟨found.flatten, modules.length⟩

/-- The result of an analysis with the given rules. -/
def Project.analyze (project : Project) (rules : List Rule) : Except Failure LintResult :=
  ((analyzeModules rules).answer project {}).1

end DependencyLint
