import DependencyLint.BuildModule
import DependencyLint.FileSystem
import DependencyLint.Json.Decode
import DependencyLint.Json.Value

/-!
# Manifests

A manifest lists the modules of a build in JSON. Paths in it are meant relative to its directory,
and no two modules have the same id.
-/

namespace DependencyLint

open Json (Decoder Field Shape Value)

/-! ## Decoding -/

def decodePath : Decoder Path := fun doc => Path.ofText <$> Json.textNamed "path string" doc

def decodeCoordinate : Decoder Coordinate := fun doc => do
  let text ← Json.decodeText doc
  match Coordinate.parse text with
  | .ok coordinate => pure coordinate
  | .error error => .error (.unexpected error.message)

def decodeDependency : Decoder Dependency :=
  Json.decodeTagged
    [("module", fun doc => .onModule <$> Json.decodeText doc),
      ("external", fun doc => .onLibrary <$> decodeCoordinate doc)]

def ResolvedLibrary.shape : Shape ResolvedLibrary where
  name := "ResolvedDependency"
  fields := [
    .required "coordinate" decodeCoordinate fun v r => { r with coordinate := v },
    .optional "requested_by" (Json.decodeList Json.decodeText) fun v r => { r with requestedBy := v },
    .optional "artifacts" (Json.decodeList decodePath) fun v r => { r with artifacts := v }]
  blank := { coordinate := default }

def Configuration.shape : Shape Configuration where
  name := "Configuration"
  fields := [
    .required "name" Json.decodeText fun v c => { c with name := v },
    .optional "can_be_resolved" Json.decodeBool fun v c => { c with canBeResolved := v },
    .optional "dependencies" (Json.decodeList decodeDependency) fun v c => { c with dependencies := v },
    .optional "resolved" (Json.decodeList ResolvedLibrary.shape.decode)
      fun v c => { c with resolved := v }]
  blank := { name := "" }

def BuildModule.shape : Shape BuildModule where
  name := "ModuleDescriptor"
  fields := [
    .required "id" Json.decodeText fun v m => { m with id := v },
    .optional "display_name" (Json.decodeOptional Json.decodeText)
      fun v m => { m with displayName := v },
    .optional "group" Json.decodeText fun v m => { m with group := v },
    .optional "name" Json.decodeText fun v m => { m with name := v },
    .optional "version" Json.decodeText fun v m => { m with version := v },
    .required "project_dir" decodePath fun v m => { m with directory := v },
    .optional "source_roots" (Json.decodeList decodePath) fun v m => { m with sourceRoots := v },
    .optional "configurations" (Json.decodeList Configuration.shape.decode)
      fun v m => { m with configurations := v }]
  blank := { id := "", directory := ⟨""⟩ }

/-- The module in a JSON text. -/
def BuildModule.parse (text : String) : Except Json.Fault BuildModule :=
  Json.decodeDocument BuildModule.shape.decode text

/-! ## Encoding -/

def Path.encode (path : Path) : Value := .text path.text

def Dependency.encode : Dependency → Value
  | .onModule id => .object [("module", .text id)]
  | .onLibrary library => .object [("external", .text library.render)]

def ResolvedLibrary.encode (library : ResolvedLibrary) : Value :=
  .object [
    ("coordinate", .text library.coordinate.render),
    ("requested_by", .texts library.requestedBy),
    ("artifacts", .array (library.artifacts.map Path.encode))]

def Configuration.encode (c : Configuration) : Value :=
  .object [
    ("name", .text c.name),
    ("can_be_resolved", .bool c.canBeResolved),
    ("dependencies", .array (c.dependencies.map Dependency.encode)),
    ("resolved", .array (c.resolved.map ResolvedLibrary.encode))]

def BuildModule.encode (m : BuildModule) : Value :=
  .object [
    ("id", .text m.id),
    ("display_name", match m.displayName with | some name => .text name | none => .null),
    ("group", .text m.group),
    ("name", .text m.name),
    ("version", .text m.version),
    ("project_dir", m.directory.encode),
    ("source_roots", .array (m.sourceRoots.map Path.encode)),
    ("configurations", .array (m.configurations.map Configuration.encode))]

/-! ## Manifests -/

/-- The modules of a build. -/
structure Manifest where
  modules : List BuildModule := []
deriving DecidableEq, Repr, Inhabited

namespace Manifest

/-- Why a manifest could not be read. -/
inductive Error where
  | unreadable (path : Path)
  | faulty (fault : Json.Fault)
  /-- Two modules have this id. -/
  | duplicate (id : String)
deriving DecidableEq, Repr

def duplicateMessage (id : String) : String := s!"Duplicate module id `{id}` in manifest"

def find? (manifest : Manifest) (id : String) : Option BuildModule :=
  manifest.modules.find? (·.id = id)

/-- The first id that an earlier module has already. -/
def repeatedId? : List String → List BuildModule → Option String
  | _, [] => none
  | seen, m :: modules => if seen.contains m.id then some m.id else repeatedId? (m.id :: seen) modules

def ofModules (modules : List BuildModule) : Except Error Manifest :=
  match repeatedId? [] modules with
  | some id => .error (.duplicate id)
  | none => .ok ⟨modules⟩

/-- A path of the manifest as seen from outside; absolute paths stay. -/
def rebasePath (base path : Path) : Path := if path.isAbsolute then path else base.join path

def rebaseLibrary (base : Path) (library : ResolvedLibrary) : ResolvedLibrary :=
  { library with artifacts := library.artifacts.map (rebasePath base) }

def rebaseConfiguration (base : Path) (c : Configuration) : Configuration :=
  { c with resolved := c.resolved.map (rebaseLibrary base) }

def rebaseModule (base : Path) (m : BuildModule) : BuildModule :=
  { m with
    directory := rebasePath base m.directory
    configurations := m.configurations.map (rebaseConfiguration base) }

def shape : Shape Manifest where
  name := "ManifestGraph"
  fields := [
    .required "modules" (Json.decodeList BuildModule.shape.decode) fun v m => { m with modules := v }]
  blank := {}

/-- The manifest in a JSON text, with its paths taken from `base`. -/
def parse (text : String) (base : Path) : Except Error Manifest :=
  match Json.decodeDocument shape.decode text with
  | .error fault => .error (.faulty fault)
  | .ok manifest => ofModules (manifest.modules.map (rebaseModule base))

/-- The manifest in a file, with its paths taken from the directory of the file. -/
def load (files : FileSystem) (path : Path) : Except Error Manifest :=
  match files.text? path with
  | none => .error (.unreadable path)
  | some text => parse text (path.parent?.getD ⟨"."⟩)

def encode (manifest : Manifest) : Value :=
  .object [("modules", .array (manifest.modules.map BuildModule.encode))]

end Manifest

end DependencyLint
