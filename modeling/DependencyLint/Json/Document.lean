import DependencyLint.Json.Token

/-!
# JSON documents

The tree of a JSON text, as far as it can be read. Where the text breaks the rules, the tree says
what stands there, so that faults can be raised in reading order.
-/

namespace DependencyLint.Json

/-- A JSON value, as far as it can be read. The members of an object are pairs of what stands for
the key and what stands for the value. Arrays and objects that are not closed end with a fault. -/
inductive Doc where
  /-- The text ends where a value is due. -/
  | missing
  | faulty (fault : Fault)
  | null
  | bool (value : Bool)
  | number (scanned : Scanned Number)
  | text (scanned : Scanned String)
  | array (items : List Doc) (ending : Option Fault)
  | object (members : List (Doc × Doc)) (ending : Option Fault)

/-- An array or object that is not closed yet: what it holds so far, the last first. -/
inductive Frame where
  | array (items : List Doc)
  | object (members : List (Doc × Doc)) (key : Doc)

/-- What is due next. -/
inductive Due where
  /-- A value, or the end of an array that is still empty. -/
  | value (orEnd : Bool)
  /-- A comma or the end, behind this value. -/
  | separator (value : Doc)
  /-- A key of an object with these members, or its end if it is still empty. -/
  | key (members : List (Doc × Doc)) (orEnd : Bool)
  /-- A colon behind this key. -/
  | colon (members : List (Doc × Doc)) (key : Doc)

/-- A frame with its last value and the way it ends. -/
def Frame.close (value : Doc) (ending : Option Fault) : Frame → Doc
  | .array items => .array (value :: items).reverse ending
  | .object members key => .object ((key, value) :: members).reverse ending

/-- The value that a token is by itself. -/
def Token.scalar? : Token → Option Doc
  | .null => some .null
  | .bool value => some (.bool value)
  | .number scanned => some (.number scanned)
  | .text scanned => some (.text scanned)
  | .faulty fault => some (.faulty fault)
  | _ => none

/-- What a token is where only a key may stand. -/
def Token.asKey : Token → Doc
  | .beginArray => .array [] none
  | .beginObject => .object [] none
  | token => token.scalar?.getD (.faulty .malformed)

/-- A JSON text: its value, and whether something follows it. -/
structure Document where
  root : Doc
  hasTrailing : Bool

/-- The document when nothing more can be read behind `value`. -/
def stop (frames : List Frame) (value : Doc) : Document :=
  ⟨frames.foldl (fun value frame => frame.close value none) value, false⟩

/-- The document when nothing more can be read in an object behind a key and its value. -/
def stopInObject (frames : List Frame) (members : List (Doc × Doc)) (key value : Doc) : Document :=
  stop frames (Frame.close value none (.object members key))

/-- Reads on in a text where something is due, inside the given frames. -/
def build (due : Due) (frames : List Frame) : List Token → Document
  | [] =>
    match due, frames with
    | .value _, frames => stop frames .missing
    | .separator value, [] => ⟨value, false⟩
    | .separator value, frame :: frames => stop frames (frame.close value (some .truncated))
    | .key members _, frames => stopInObject frames members .missing .missing
    | .colon members key, frames => stopInObject frames members key .missing
  | token :: tokens =>
    match due, frames with
    | .value orEnd, frames =>
      match token, frames with
      | .beginArray, frames => build (.value true) (.array [] :: frames) tokens
      | .beginObject, frames => build (.key [] true) frames tokens
      | .endArray, .array _ :: outer =>
        if orEnd then build (.separator (.array [] none)) outer tokens
        else stop frames (.faulty .malformed)
      | token, frames =>
        match token.scalar? with
        | some value => build (.separator value) frames tokens
        | none => stop frames (.faulty .malformed)
    | .separator value, [] => ⟨value, true⟩
    | .separator value, .array items :: outer =>
      match token with
      | .comma => build (.value false) (.array (value :: items) :: outer) tokens
      | .endArray => build (.separator (Frame.close value none (.array items))) outer tokens
      | _ => stop outer (Frame.close value (some .malformed) (.array items))
    | .separator value, .object members key :: outer =>
      match token with
      | .comma => build (.key ((key, value) :: members) false) outer tokens
      | .endObject => build (.separator (Frame.close value none (.object members key))) outer tokens
      | _ => stop outer (Frame.close value (some .malformed) (.object members key))
    | .key members orEnd, frames =>
      match token with
      | .text scanned => build (.colon members (.text scanned)) frames tokens
      | .endObject =>
        if orEnd then build (.separator (.object [] none)) frames tokens
        else stopInObject frames members (.faulty .malformed) .missing
      | token => stopInObject frames members token.asKey .missing
    | .colon members key, frames =>
      match token with
      | .colon => build (.value false) (.object members key :: frames) tokens
      | _ => stopInObject frames members key (.faulty .malformed)

/-- The tree of a JSON text. -/
def parse (text : String) : Document := build (.value false) [] (tokens text)

/-! ## Skipping -/

mutual

/-- Skips a value of any kind. -/
def skip : Doc → Except Fault Unit
  | .missing => .error .truncated
  | .faulty fault => .error fault
  | .null => .ok ()
  | .bool _ => .ok ()
  | .number scanned => scanned.skipped
  | .text scanned => scanned.skipped
  | .array items ending => do
    skipItems items
    ending.forM .error
  | .object members ending => do
    skipMembers members
    ending.forM .error

def skipItems : List Doc → Except Fault Unit
  | [] => .ok ()
  | item :: items => do
    skip item
    skipItems items

def skipMembers : List (Doc × Doc) → Except Fault Unit
  | [] => .ok ()
  | (key, value) :: members => do
    skipKey key
    skip value
    skipMembers members

/-- Skips a key, which has to be a string. -/
def skipKey : Doc → Except Fault Unit
  | .text scanned => scanned.skipped
  | .missing => .error .truncated
  | _ => .error .malformed

end

end DependencyLint.Json
