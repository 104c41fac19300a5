import DependencyLint.Json.Document
import DependencyLint.Text.Quoted

/-!
# Decoding JSON

Decoders follow a document in reading order and stop at the first fault. A record can be written as
an object with named fields or as an array of its fields in order.
-/

namespace DependencyLint.Json

/-- Makes a value of a JSON tree. -/
abbrev Decoder (α : Type) := Doc → Except Fault α

def Number.describe : Number → String
  | .integer value => s!"integer `{value}`"
  | .float isNegative size => "floating point `" ++ (if isNegative then "-" else "") ++ size.text ++ "`"

def wrongType (found expected : String) : Fault :=
  .unexpected s!"invalid type: {found}, expected {expected}"

/-- The fault of a value that is none of the expected kind. -/
def mismatch (expected : String) : Doc → Fault
  | .missing => .truncated
  | .faulty fault => fault
  | .null => wrongType "null" expected
  | .bool value => wrongType s!"boolean `{value}`" expected
  | .number scanned =>
    match scanned.value with
    | .ok number => wrongType number.describe expected
    | .error fault => fault
  | .text scanned =>
    match scanned.value with
    | .ok text => wrongType ("string " ++ Text.quoted text) expected
    | .error fault => fault
  | .array .. => wrongType "sequence" expected
  | .object .. => wrongType "map" expected

/-- A string, called `expected` where it is missing. -/
def textNamed (expected : String) : Decoder String
  | .text scanned => scanned.value
  | doc => .error (mismatch expected doc)

def decodeText : Decoder String := textNamed "a string"

def decodeBool : Decoder Bool
  | .bool value => .ok value
  | doc => .error (mismatch "a boolean" doc)

/-- A value, or nothing for `null`. -/
def decodeOptional {α : Type} (decode : Decoder α) : Decoder (Option α)
  | .null => .ok none
  | doc => some <$> decode doc

/-- Goes on if an array or object is closed. -/
def closed (ending : Option Fault) : Except Fault Unit := ending.forM .error

def decodeList {α : Type} (decode : Decoder α) : Decoder (List α)
  | .array items ending => do
    let values ← items.mapM decode
    closed ending
    pure values
  | doc => .error (mismatch "a sequence" doc)

/-! ## Records -/

/-- A field of a record: its name, whether it can be left out, and how its value is entered. -/
structure Field (ρ : Type) where
  name : String
  isRequired : Bool
  enter : Doc → ρ → Except Fault ρ

/-- A field with a default. -/
def Field.optional {ρ α : Type} (name : String) (decode : Decoder α) (set : α → ρ → ρ) : Field ρ :=
  ⟨name, false, fun doc record => (set · record) <$> decode doc⟩

/-- A field that has to be there. -/
def Field.required {ρ α : Type} (name : String) (decode : Decoder α) (set : α → ρ → ρ) : Field ρ :=
  ⟨name, true, fun doc record => (set · record) <$> decode doc⟩

/-- A kind of record: its name, its fields, and a record with their defaults. -/
structure Shape (ρ : Type) where
  name : String
  fields : List (Field ρ)
  blank : ρ

namespace Shape

variable {ρ : Type}

def field? (shape : Shape ρ) (name : String) : Option (Field ρ) :=
  shape.fields.find? (·.name = name)

/-- A key, which has to be a string. -/
def decodeKey : Decoder String
  | .text scanned => scanned.value
  | .missing => .error .truncated
  | _ => .error .malformed

/-- Enters the members of an object. Unknown ones are skipped, and no field may come twice. -/
def enterMembers (shape : Shape ρ) :
    List (Doc × Doc) → List String → ρ → Except Fault (List String × ρ)
  | [], seen, record => .ok (seen, record)
  | (key, value) :: members, seen, record => do
    let name ← decodeKey key
    match shape.field? name with
    | none =>
      skip value
      shape.enterMembers members seen record
    | some field =>
      if seen.contains name then .error (.unexpected s!"duplicate field `{name}`")
      else
        let record ← field.enter value record
        shape.enterMembers members (name :: seen) record

def elements (count : Nat) : String := if count = 1 then "1 element" else s!"{count} elements"

/-- Enters the items of an array; `index` counts those entered. -/
def enterItems (shape : Shape ρ) (ending : Option Fault) :
    Nat → List (Field ρ) → List Doc → ρ → Except Fault ρ
  | _, [], [], record => do
    closed ending
    pure record
  | _, [], _ :: _, _ => .error .malformed
  | index, field :: fields, [], record => do
    closed ending
    if field.isRequired then
      .error (.unexpected (s!"invalid length {index}, expected struct {shape.name} with " ++
        elements shape.fields.length))
    else shape.enterItems ending (index + 1) fields [] record
  | index, field :: fields, item :: items, record => do
    let record ← field.enter item record
    shape.enterItems ending (index + 1) fields items record

/-- Goes on if every required field was seen. -/
def checkRequired (shape : Shape ρ) (seen : List String) : Except Fault Unit :=
  match shape.fields.find? fun field => field.isRequired && !seen.contains field.name with
  | some field => .error (.unexpected s!"missing field `{field.name}`")
  | none => .ok ()

def decode (shape : Shape ρ) : Decoder ρ
  | .object members ending => do
    let (seen, record) ← shape.enterMembers members [] shape.blank
    closed ending
    shape.checkRequired seen
    pure record
  | .array items ending => shape.enterItems ending 0 shape.fields items shape.blank
  | doc => .error (mismatch ("struct " ++ shape.name) doc)

end Shape

/-- A tagged value: an object with one member, whose key is one of the tags. -/
def decodeTagged {α : Type} (tags : List (String × Decoder α)) : Decoder α :=
  let unknown (name : String) : Fault :=
    .unexpected (s!"unknown variant `{name}`, expected " ++
      " or ".intercalate (tags.map fun tag => "`" ++ tag.1 ++ "`"))
  fun
  | .object ((key, value) :: more) ending => do
    let name ← textNamed "variant identifier" key
    match tags.lookup name with
    | none => .error (unknown name)
    | some decode =>
      let found ← decode value
      if !more.isEmpty then .error .malformed
      else
        closed ending
        pure found
  | .text scanned => do
    let name ← scanned.value
    match tags.lookup name with
    | none => .error (unknown name)
    | some _ => .error (wrongType "unit variant" "newtype variant")
  | .missing => .error .truncated
  | _ => .error .malformed

/-- Decodes a whole text. Nothing may follow its value. -/
def decodeDocument {α : Type} (decode : Decoder α) (text : String) : Except Fault α := do
  let document := parse text
  let value ← decode document.root
  if document.hasTrailing then .error .malformed else pure value

end DependencyLint.Json
