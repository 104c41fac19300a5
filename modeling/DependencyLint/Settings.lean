import DependencyLint.FileSystem
import DependencyLint.Glob
import DependencyLint.Toml.Document

/-!
# Settings

What a project can set: whether modules are checked, what is ignored, which sources are left out,
which rules run, and checks of its own. Settings are written in TOML; what is not set keeps its
default, and unknown keys do no harm.
-/

namespace DependencyLint

/-- A switch for one rule. -/
structure RuleSettings where
  enabled : Option Bool := none
deriving DecidableEq, Repr, Inhabited

/-- What one module sets differently from the project. -/
structure ModuleOverrides where
  enabled : Option Bool := none
  ignored : Option (List String) := none
deriving DecidableEq, Repr, Inhabited

/-- The settings in effect for one module. -/
structure ModuleSettings where
  enabled : Bool
  ignored : List String
deriving DecidableEq, Repr, Inhabited

def ModuleSettings.isIgnored (settings : ModuleSettings) (name : String) : Bool :=
  settings.ignored.contains name

/-- A check over libraries: a pattern for their names, and the message for those that match. -/
structure CheckSettings where
  name : String
  library : String
  message : String
deriving DecidableEq, Repr, Inhabited

/-- The settings of a project. -/
structure Settings where
  enabled : Bool := true
  failOnFindings : Bool := true
  ignored : List String := []
  report : Path := ⟨"build/dep-seeker-report.txt"⟩
  exclude : List String := []
  rules : List (String × RuleSettings) := []
  modules : List (String × ModuleOverrides) := []
  checks : List CheckSettings := []
deriving DecidableEq, Repr, Inhabited

/-- A pattern that is not a glob. -/
structure PatternError where
  pattern : String
  error : Glob.Error
deriving DecidableEq, Repr

def PatternError.message (e : PatternError) : String :=
  "Invalid glob pattern `" ++ e.pattern ++ "`: " ++ e.error.message

/-- Compiles a glob, and keeps its text for the error. -/
def compilePattern (pattern : String) : Except PatternError Glob :=
  match Glob.compile pattern with
  | .ok glob => .ok glob
  | .error error => .error ⟨pattern, error⟩

namespace Settings

/-- Rules run unless they are switched off. -/
def isRuleEnabled (settings : Settings) (rule : String) : Bool :=
  ((settings.rules.lookup rule).bind (·.enabled)).getD true

/-- The settings for a module: its own where it has some, those of the project otherwise. -/
def forModule (settings : Settings) (id : String) : ModuleSettings :=
  let own := settings.modules.lookup id
  ⟨(own.bind (·.enabled)).getD settings.enabled, (own.bind (·.ignored)).getD settings.ignored⟩

def excludeGlobs (settings : Settings) : Except PatternError (List Glob) :=
  settings.exclude.mapM compilePattern

/-! ## Decoding -/

open Toml (Value Entries)

def decodeBool : Value → Option Bool
  | .boolean value => some value
  | _ => none

def decodeText : Value → Option String
  | .string text => some text
  | _ => none

def decodeList {α : Type} (decode : Value → Option α) : Value → Option (List α)
  | .array _ items => items.mapM decode
  | _ => none

/-- The fields of a record: those of a table by name, those of an array by position. A date counts
as a record without known fields. -/
def fields (names : List String) : Value → Option Entries
  | .table _ entries => some entries
  | .array _ items => some (names.zip items)
  | .dateTime _ => some []
  | _ => none

/-- A field that can be left out. -/
def field {α : Type} (entries : Entries) (name : String) (decode : Value → Option α) (default : α) :
    Option α :=
  match entries.lookup name with
  | some value => decode value
  | none => some default

/-- A field that has to be there. -/
def required {α : Type} (entries : Entries) (name : String) (decode : Value → Option α) : Option α :=
  (entries.lookup name).bind decode

/-- A table with keys of any name. -/
def decodeNamed {α : Type} (decode : Value → Option α) : Value → Option (List (String × α))
  | .table _ entries => entries.mapM fun (name, value) => (decode value).map (name, ·)
  | _ => none

def decodeExclude (value : Value) : Option (List String) := do
  let entries ← fields ["exclude"] value
  field entries "exclude" (decodeList decodeText) []

def decodeRule (value : Value) : Option RuleSettings := do
  let entries ← fields ["enabled"] value
  pure ⟨← field entries "enabled" (fun v => some <$> decodeBool v) none⟩

def decodeOverrides (value : Value) : Option ModuleOverrides := do
  let entries ← fields ["enabled", "ignored_dependencies"] value
  pure ⟨← field entries "enabled" (fun v => some <$> decodeBool v) none,
    ← field entries "ignored_dependencies" (fun v => some <$> decodeList decodeText v) none⟩

def decodeCheck (value : Value) : Option CheckSettings := do
  let entries ← fields ["name", "library", "message"] value
  pure ⟨← required entries "name" decodeText, ← required entries "library" decodeText,
    ← required entries "message" decodeText⟩

def decode (entries : Entries) : Option Settings := do
  let standard : Settings := {}
  pure {
    enabled := ← field entries "enabled" decodeBool standard.enabled
    failOnFindings := ← field entries "fail_on_violations" decodeBool standard.failOnFindings
    ignored := ← field entries "ignored_dependencies" (decodeList decodeText) standard.ignored
    report := ← field entries "report" (fun v => Path.ofText <$> decodeText v) standard.report
    exclude := ← field entries "analyzer" decodeExclude standard.exclude
    rules := ← field entries "rules" (decodeNamed decodeRule) standard.rules
    modules := ← field entries "modules" (decodeNamed decodeOverrides) standard.modules
    checks := ← field entries "custom_checks" (decodeList decodeCheck) standard.checks }

/-! ## Reading -/

/-- Why settings could not be read. -/
inductive Error where
  | unreadable (path : Path)
  | malformed
  | badPattern (error : PatternError)
deriving DecidableEq, Repr

/-- The settings with all their patterns checked: those of left-out sources first, then those of the
checks, each in order. -/
def validate (settings : Settings) : Except PatternError Settings := do
  let _ ← settings.excludeGlobs
  let _ ← settings.checks.mapM fun check => compilePattern check.library
  pure settings

/-- The settings in a TOML document. -/
def parse (text : String) : Except Error Settings :=
  match (Toml.parse text).bind decode with
  | none => .error .malformed
  | some settings => (validate settings).mapError .badPattern

/-- The settings in a file. -/
def load (files : FileSystem) (path : Path) : Except Error Settings :=
  match files.text? path with
  | none => .error (.unreadable path)
  | some text => parse text

end Settings

end DependencyLint
