import DependencyLint.Library
import DependencyLint.Settings
import DependencyLint.SourceFile
import DependencyLint.Text.Quoted
import DependencyLint.Text.Replace

/-!
# Custom checks

A custom check gives a message for a module and one of its libraries, or no text at all where the
library is fine.
-/

namespace DependencyLint

/-- A named check over a module and a library. -/
structure CustomCheck where
  name : String
  evaluate : ModuleSummary → LibraryContent → String

namespace CustomCheck

/-- Fills in a message: the module's name first, then the library's. -/
def fill (template module library : String) : String :=
  Text.replace (Text.replace template "\x7bmodule\x7d" module) "\x7blibrary\x7d" library

/-- The check that a project sets: its message for the libraries that match the pattern. -/
def ofSettings (settings : CheckSettings) : Except PatternError CustomCheck := do
  let glob ← compilePattern settings.library
  pure {
    name := settings.name
    evaluate := fun module library =>
      if glob.isMatch library.fullName then fill settings.message module.name library.fullName
      else "" }

/-- A short description of a check, with its name in quotes. -/
def describe (check : CustomCheck) : String :=
  "CustomCheck \x7b name: " ++ Text.quoted check.name ++ ", .. \x7d"

end CustomCheck

end DependencyLint
