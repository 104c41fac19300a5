import DependencyLint.Path

/-!
# Command lines

The commands of the program and their options. An option has a long name and sometimes a short one.
Its value is the next argument, or follows the name directly, behind an equals sign or behind a
short name. Short flags can be joined, and behind `--` nothing is an option any more.
-/

namespace DependencyLint.Command

/-- What an option does. -/
inductive OptionKind where
  | flag
  /-- Takes a value that satisfies the condition. -/
  | value (isValid : String → Bool)
  /-- Ends the command line with the help text. -/
  | help
  /-- Ends the command line with the version. -/
  | version

structure CommandOption where
  long : String
  short : Option Char := none
  kind : OptionKind

/-- The options given so far with their values; a flag has an empty value. -/
abbrev Values := List (String × String)

/-- A command, or the program itself: its options, how many other arguments it takes, and the
commands below it. -/
structure Level where
  options : List CommandOption
  places : Nat := 0
  commands : List String := []

/-- What a command line comes to. -/
inductive Reading where
  /-- It breaks the rules. -/
  | misuse
  | help
  | version
  | finished (values : Values) (places : List String)
  /-- A command follows. -/
  | command (values : Values) (name : String) (rest : List String)

/-- An argument that cannot be the value of an option in front of it. -/
def looksLikeOption (arg : List Char) : Bool :=
  match arg with
  | '-' :: _ :: _ => true
  | _ => false

/-- Enters an option, which has to be new, with a valid value. -/
def addValue (values : Values) (option : CommandOption) (value : String) : Option Values :=
  let isValid := match option.kind with
    | .value isValid => isValid value
    | _ => true
  if isValid && (values.lookup option.long).isNone then some ((option.long, value) :: values) else none

/-- What follows from an option in the arguments: an end, or the values so far and the option that
still needs its value. -/
abbrev Step := Reading ⊕ (Values × Option CommandOption)

namespace Level

/-- An option by its long name, with the value behind the equals sign if there is one. -/
def stepLong (level : Level) (values : Values) (name : List Char) (value : Option String) : Step :=
  match level.options.find? (·.long = String.ofList name) with
  | none => .inl .misuse
  | some option =>
    match option.kind, value with
    | .value _, none => .inr (values, some option)
    | .value _, some value =>
      match addValue values option value with
      | some values => .inr (values, none)
      | none => .inl .misuse
    | _, some _ => .inl .misuse
    | .help, none => .inl .help
    | .version, none => .inl .version
    | .flag, none =>
      match addValue values option "" with
      | some values => .inr (values, none)
      | none => .inl .misuse

/-- Options by their short names, joined; the last may have its value behind it. -/
def stepShort (level : Level) (values : Values) : List Char → Step
  | [] => .inr (values, none)
  | c :: rest =>
    match level.options.find? (·.short = some c) with
    | none => .inl .misuse
    | some option =>
      match option.kind, rest with
      | .value _, [] => .inr (values, some option)
      | .value _, c :: more =>
        match addValue values option (String.ofList (if c = '=' then more else c :: more)) with
        | some values => .inr (values, none)
        | none => .inl .misuse
      | .help, _ => .inl .help
      | .version, _ => .inl .version
      | .flag, rest =>
        match addValue values option "" with
        | some values => level.stepShort values rest
        | none => .inl .misuse

/-- Reads an argument that starts with a hyphen. -/
def step (level : Level) (values : Values) (arg : List Char) : Step :=
  match arg with
  | '-' :: '-' :: name =>
    let value := match name.dropWhile (· ≠ '=') with
      | [] => none
      | _ :: value => some (String.ofList value)
    level.stepLong values (name.takeWhile (· ≠ '=')) value
  | _ => level.stepShort values (arg.drop 1)

/-- Reads the arguments of a level. An option may still need its value, and behind `--` only places
are left. -/
def read (level : Level) (values : Values) (places : List String) (pending : Option CommandOption)
    (onlyPlaces : Bool) : List String → Reading
  | [] => if pending.isSome then .misuse else .finished values places.reverse
  | arg :: rest =>
    match pending with
    | some option =>
      if looksLikeOption arg.toList then .misuse
      else match addValue values option arg with
        | some values => level.read values places none onlyPlaces rest
        | none => .misuse
    | none =>
      if !onlyPlaces && arg = "--" then level.read values places none true rest
      else if !onlyPlaces && looksLikeOption arg.toList then
        match level.step values arg.toList with
        | .inl reading => reading
        | .inr (values, pending) => level.read values places pending false rest
      else if !onlyPlaces && level.commands.contains arg then .command values arg rest
      else if places.length < level.places && arg ≠ "" then
        level.read values (arg :: places) none onlyPlaces rest
      else .misuse

end Level

/-! ## The commands -/

inductive Format where
  | text
  | json
  | compact
deriving DecidableEq, Repr

def Format.ofName? : String → Option Format
  | "text" => some .text
  | "json" => some .json
  | "compact" => some .compact
  | _ => none

/-- The options of a check of a project. -/
structure CheckOptions where
  project : Path := ⟨"."⟩
  manifest : Option Path := none
  report : Option Path := none
  format : Format := .text
  rules : Option String := none
  warnOnly : Bool := false
  settings : Option Path := none
deriving DecidableEq, Repr

/-- What the program is asked to do. -/
inductive Request where
  | check (options : CheckOptions)
  | listRules
  | init (force : Bool)
  | help
  | version
deriving DecidableEq, Repr

def isPath (value : String) : Bool := value ≠ ""

/-- The options that every command has. -/
def commonOptions : List CommandOption :=
  [⟨"verbose", some 'v', .flag⟩, ⟨"config", some 'c', .value isPath⟩, ⟨"help", some 'h', .help⟩]

def commandNames : List String := ["check", "list-rules", "init", "help"]

def programLevel : Level where
  options := commonOptions ++ [⟨"version", some 'V', .version⟩]
  commands := commandNames

def checkLevel : Level where
  options := commonOptions ++ [
    ⟨"manifest", some 'm', .value isPath⟩,
    ⟨"report", none, .value isPath⟩,
    ⟨"format", some 'f', .value fun value => (Format.ofName? value).isSome⟩,
    ⟨"rules", none, .value fun _ => true⟩,
    ⟨"warn-only", none, .flag⟩]
  places := 1

def listRulesLevel : Level where
  options := commonOptions

def initLevel : Level where
  options := commonOptions ++ [⟨"force", none, .flag⟩]

/-- The request of a command with its options. -/
def requestOf (level : Level) (args : List String) (make : Values → List String → Request) :
    Option Request :=
  match level.read [] [] none false args with
  | .finished values places => some (make values places)
  | .help => some .help
  | .version => some .version
  | .misuse | .command .. => none

/-- The options of a check; `outer` are the options in front of the command. -/
def checkOptions (outer values : Values) (places : List String) : CheckOptions where
  project := .ofText (places.head?.getD ".")
  manifest := (values.lookup "manifest").map Path.ofText
  report := (values.lookup "report").map Path.ofText
  format := ((values.lookup "format").bind Format.ofName?).getD .text
  rules := values.lookup "rules"
  warnOnly := (values.lookup "warn-only").isSome
  settings := ((values.lookup "config").or (outer.lookup "config")).map Path.ofText

/-- The request of a command line, or `none` if it breaks the rules. -/
def parse (args : List String) : Option Request :=
  match programLevel.read [] [] none false args with
  | .help => some .help
  | .version => some .version
  | .command outer "check" rest =>
    requestOf checkLevel rest fun values places => .check (checkOptions outer values places)
  | .command _ "list-rules" rest => requestOf listRulesLevel rest fun _ _ => .listRules
  | .command _ "init" rest =>
    requestOf initLevel rest fun values _ => .init (values.lookup "force").isSome
  | .command _ _ [] => some .help
  | .command _ _ [name] => if commandNames.contains name then some .help else none
  | _ => none

end DependencyLint.Command
