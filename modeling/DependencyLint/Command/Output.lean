import DependencyLint.Command.Arguments
import DependencyLint.Json.Value
import DependencyLint.Rule

/-!
# Printed output
-/

namespace DependencyLint.Command

/-- Lines of text, each with its line end. -/
def printLines (lines : List String) : String := String.join (lines.map (· ++ "\n"))

/-! ## Results -/

def yellow : String := "\x1b[33m"

def green : String := "\x1b[32m"

def plain : String := "\x1b[0m"

/-- What can be done about a finding. -/
def advice? (finding : Finding) : Option String :=
  match finding.kind with
  | .unusedModule | .unusedLibrary =>
    some s!"remove {finding.dependency} or add it to `ignored_dependencies`"
  | .replaceableModule replacement => some s!"depend on {replacement} directly"
  | .customCheck _ => none

def findingText (finding : Finding) : List String :=
  [s!"{finding.code} {finding.rule} in {finding.module}",
    s!"  {yellow}warning{plain}: " ++ finding.message] ++
  (advice? finding).toList.map ("  = help: " ++ ·) ++
  [""]

def resultText (result : LintResult) : String :=
  let color := if result.isOk then green else yellow
  printLines (result.findings.flatMap findingText ++
    [s!"{color}Found {result.findings.length} issue(s) in {result.modulesChecked} module(s){plain}"])

def kindMembers : FindingKind → List (String × Json.Value)
  | .customCheck message => [("kind", .text "custom_check"), ("message", .text message)]
  | .unusedModule => [("kind", .text "totally_unused_module")]
  | .replaceableModule replacement =>
    [("kind", .text "unused_module_with_replacement"), ("replacement", .text replacement)]
  | .unusedLibrary => [("kind", .text "unused_library")]

def encodeFinding (finding : Finding) : Json.Value :=
  .object ([
    ("code", .text finding.code),
    ("rule", .text finding.rule),
    ("module", .text finding.module),
    ("dependency", .text finding.dependency)] ++ kindMembers finding.kind)

def resultJson (result : LintResult) : String :=
  let value : Json.Value := .object [
    ("violations", .array (result.findings.map encodeFinding)),
    ("modules_checked", .integer result.modulesChecked)]
  printLines [value.pretty 0]

def resultCompact (result : LintResult) : String :=
  printLines (result.findings.map fun finding =>
    s!"{finding.module}: [{finding.code}] " ++ finding.message)

def printResult : Format → LintResult → String
  | .text => resultText
  | .json => resultJson
  | .compact => resultCompact

/-! ## Rules -/

/-- A text with blanks behind it up to a width. -/
def padRight (width : Nat) (text : String) : String :=
  text ++ String.ofList (List.replicate (width - text.length) ' ')

def ruleRow (code name description : String) : String :=
  padRight 10 code ++ " " ++ padRight 28 name ++ " " ++ description

def ruleList : String :=
  printLines ([
    "Available rules:",
    "",
    ruleRow "Code" "Name" "Description",
    String.ofList (List.replicate 80 '-')] ++
  Rule.all.map (fun rule => ruleRow rule.code rule.name rule.description) ++ [
    "",
    "DS100 runs once per entry of [[custom_checks]] in the config file.",
    "Disable a rule with `[rules.<name>] enabled = false`.",
    "",
    "Use --rules to filter specific rules, e.g.:",
    "  dep-seeker check --rules unused-library-dependency",
    "  dep-seeker check --rules DS001,DS100"])

/-! ## The log -/

/-- A character of a logged message. Those that steer a terminal are shown by their numbers. -/
def logChar (c : Char) : String :=
  if c = '\x1b' || c = '\x07' || c = '\x08' || c = '\x0c' || c = '\x7f' then
    "\\x" ++ (if c.toNat < 16 then "0" else "") ++ String.ofList (Nat.toDigits 16 c.toNat)
  else if 0x80 ≤ c.val && c.val ≤ 0x9F then
    "\\u\x7b" ++ String.ofList (Nat.toDigits 16 c.toNat) ++ "\x7d"
  else c.toString

/-- A message as the log shows it. -/
def logMessage (message : String) : String := String.join (message.toList.map logChar)

/-! ## Other texts -/

def versionText : String := printLines ["dep-seeker 0.3.0"]

def helpText : String :=
  printLines [
    "Finds unused module and library dependencies in multi-module JVM projects",
    "",
    "Usage: dep-seeker [OPTIONS] <COMMAND>",
    "",
    "Commands:",
    "  check       Analyze every module of a project",
    "  list-rules  List available rules",
    "  init        Initialize configuration file",
    "  help        Print this message or the help of the given subcommand(s)",
    "",
    "Options:",
    "  -v, --verbose          Enable verbose output",
    "  -c, --config <CONFIG>  Path to configuration file",
    "  -h, --help             Print help",
    "  -V, --version          Print version"]

/-- The settings that a new project starts with. -/
def initialSettings : String :=
  printLines [
    "# dep-seeker configuration",
    "",
    "# Analyze modules at all (per-module override: [modules.\":id\"] enabled)",
    "enabled = true",
    "",
    "# Stop with a non-zero exit code when issues are found",
    "fail_on_violations = true",
    "",
    "# Module ids or group:artifact:version coordinates never reported",
    "ignored_dependencies = [",
    "    # \":core\",",
    "    # \"com.google.code.gson:gson:2.10.1\",",
    "]",
    "",
    "# Aggregate report, relative to the project root",
    "report = \"build/dep-seeker-report.txt\"",
    "",
    "[analyzer]",
    "# Glob patterns of source files to skip",
    "exclude = [",
    "    \"**/generated/**\",",
    "]",
    "",
    "# [rules.unused-library-dependency]",
    "# enabled = false",
    "",
    "# [modules.\":legacy\"]",
    "# enabled = false",
    "# ignored_dependencies = [\":core\"]",
    "",
    "# [[custom_checks]]",
    "# name = \"no-support-lib\"",
    "# library = \"com.android.support:*\"",
    "# message = \"\x7bmodule\x7d still depends on \x7blibrary\x7d, migrate to androidx\""]

def nextSteps : String :=
  printLines [
    "Created dep-seeker.toml",
    "",
    "Next steps:",
    "  1. Export the build graph to build/dep-seeker/graph.json",
    "  2. Run: dep-seeker check"]

end DependencyLint.Command
