import DependencyLint.Binary64.Shortest
import DependencyLint.Reader

/-!
# JSON tokens

The tokens of a JSON text. What is wrong with a token is kept in it and counts only where the token
is reached in reading order. Values that are skipped are held to less than values that are used: a
number may have any size, and halves of surrogate pairs may stand alone.
-/

namespace DependencyLint.Json

/-- What can be wrong with a JSON text. -/
inductive Fault where
  /-- The text breaks the rules of JSON. -/
  | malformed
  /-- The text ends too early. -/
  | truncated
  /-- The text is JSON, but not what is expected. -/
  | unexpected (message : String)
deriving DecidableEq, Repr

/-- What a token stands for, or the fault that using it or skipping it raises. -/
structure Scanned (α : Type) where
  value : Except Fault α
  skipped : Except Fault Unit

/-- A number: an integer of 64 bits, or else one in double precision with a sign. -/
inductive Number where
  | integer (value : Int)
  | float (isNegative : Bool) (size : Binary64)
deriving DecidableEq, Repr

inductive Token where
  | beginObject
  | endObject
  | beginArray
  | endArray
  | colon
  | comma
  | null
  | bool (value : Bool)
  | number (scanned : Scanned Number)
  | text (scanned : Scanned String)
  | faulty (fault : Fault)

/-! ## Strings -/

/-- A part of a string: a character, a 16-bit unit by its number, or the fault that ends it. -/
inductive Piece where
  | char (c : Char)
  | unit (number : Nat)
  | fault (fault : Fault)
deriving DecidableEq, Repr

def hexDigit? (c : Char) : Option Nat :=
  if c.isDigit then some (c.toNat - '0'.toNat)
  else if 'a' ≤ c && c ≤ 'f' then some (c.toNat - 'a'.toNat + 10)
  else if 'A' ≤ c && c ≤ 'F' then some (c.toNat - 'A'.toNat + 10)
  else none

def hexNumber? (digits : List Char) : Option Nat :=
  digits.foldlM (fun n c => (hexDigit? c).map (n * 16 + ·)) 0

/-- What a backslash and one more character stand for. -/
def simpleEscape? : Char → Option Char
  | '"' => some '"'
  | '\\' => some '\\'
  | '/' => some '/'
  | 'b' => some '\x08'
  | 'f' => some '\x0c'
  | 'n' => some '\n'
  | 'r' => some '\r'
  | 't' => some '\t'
  | _ => none

/-- The fault of a numbered character that is too short or not hexadecimal. -/
def unitFault (rest : List Char) : Fault :=
  if (rest.take 4).foldl (fun size c => size + c.utf8Size) 0 < 4 then .truncated else .malformed

/-- The parts of a string, from behind the opening quote. -/
def pieces : List Char → List Piece
  | [] => [.fault .truncated]
  | '"' :: _ => []
  | ['\\'] => [.fault .truncated]
  | '\\' :: 'u' :: a :: b :: c :: d :: rest =>
    match hexNumber? [a, b, c, d] with
    | some number => .unit number :: pieces rest
    | none => [.fault .malformed]
  | '\\' :: c :: rest =>
    if c = 'u' then [.fault (unitFault rest)]
    else match simpleEscape? c with
      | some c => .char c :: pieces rest
      | none => [.fault .malformed]
  | c :: rest => if c.val < 0x20 then [.fault .malformed] else .char c :: pieces rest

def isLeading (unit : Nat) : Bool := 0xD800 ≤ unit && unit ≤ 0xDBFF

def isTrailing (unit : Nat) : Bool := 0xDC00 ≤ unit && unit ≤ 0xDFFF

/-- The characters of a string. Surrogates have to come in pairs. -/
def characters : List Piece → Except Fault (List Char)
  | [] => .ok []
  | .char c :: rest => (characters rest).map (c :: ·)
  | .fault fault :: _ => .error fault
  | .unit high :: .unit low :: rest =>
    if isTrailing high then .error .malformed
    else if isLeading high then
      if isTrailing low then
        (characters rest).map (Char.ofNat ((high - 0xD800) * 0x400 + (low - 0xDC00) + 0x10000) :: ·)
      else .error .malformed
    else (characters (.unit low :: rest)).map (Char.ofNat high :: ·)
  | .unit unit :: rest =>
    if isTrailing unit then .error .malformed
    else if isLeading unit then
      match rest with
      | .fault fault :: _ => .error fault
      | _ => .error .malformed
    else (characters rest).map (Char.ofNat unit :: ·)

/-- Skips a string: any unit will do. -/
def skipPieces (pieces : List Piece) : Except Fault Unit :=
  pieces.forM fun
    | .fault fault => .error fault
    | _ => .ok ()

/-- What follows a string, from behind its opening quote. -/
def afterText : List Char → List Char
  | [] => []
  | '"' :: rest => rest
  | '\\' :: _ :: rest => afterText rest
  | _ :: rest => afterText rest

theorem length_afterText_le (cs : List Char) : (afterText cs).length ≤ cs.length := by
  fun_induction afterText cs with
  | case1 => exact Nat.le_refl _
  | case2 rest => exact Nat.le_succ _
  | case3 c rest ih => exact Nat.le_trans ih (Nat.le_add_right rest.length 2)
  | case4 c rest _ _ ih => exact Nat.le_succ_of_le ih

def text : Reader Char Token := ⟨fun cs =>
  let parts := pieces cs
  some (.text ⟨(characters parts).map String.ofList, skipPieces parts⟩,
    ⟨afterText cs, length_afterText_le cs⟩)⟩

/-! ## Numbers -/

/-- Appends digits to a number for as long as it stays within 64 bits; the digits that are left are
counted. -/
def appendDigits : Nat → List Char → Nat × Nat
  | number, [] => (number, 0)
  | number, c :: digits =>
    let longer := number * 10 + (c.toNat - '0'.toNat)
    if longer < 0x10000000000000000 then appendDigits longer digits else (number, digits.length + 1)

/-- A number times a power of ten in double precision, or `none` if it is out of range. The power is
taken in steps that are in range themselves. -/
def scale (size : Binary64) (power : Int) : Option Binary64 :=
  if power.natAbs ≤ 308 then
    if 0 ≤ power then
      match size.mul (.tenPow power.toNat) with
      | .infinite => none
      | product => some product
    else some (size.div (.tenPow (-power).toNat))
  else if size = .zero then some size
  else if 0 ≤ power then none
  else scale (size.div (.tenPow 308)) (power + 308)
termination_by power.natAbs

/-- An integer if it fits into 64 bits, a floating-point number otherwise. A negative zero is one of
the latter. -/
def wholeNumber (isNegative : Bool) (size : Nat) : Number :=
  if !isNegative then .integer size
  else if size = 0 || 0x8000000000000000 < size then .float true (.ofNat size)
  else .integer (-size)

/-- The value of a number from its digits in front of and behind the point and its exponent. -/
def numberValue (isNegative : Bool) (whole : List Char) (fraction : Option (List Char))
    (exponent : Option Int) : Except Fault Number :=
  let (number, left) := appendDigits 0 whole
  if fraction.isNone && exponent.isNone && left = 0 then .ok (wholeNumber isNegative number)
  else
    let digits := fraction.getD []
    let (number, ignored) := appendDigits number digits
    let power := (left : Int) - (digits.length - ignored : Nat) + exponent.getD 0
    match scale (.ofNat number) power with
    | some size => .ok (.float isNegative size)
    | none => .error .malformed

/-- A number that breaks off in front of a digit. -/
def brokenNumber : Reader Char Token := do
  let fault := if (← Reader.peek).isNone then Fault.truncated else .malformed
  pure (.number ⟨.error fault, .error .malformed⟩)

def digits : Reader Char (List Char) := Reader.takeWhile Char.isDigit

/-- The exponent and the end of a number. -/
def exponentPart (isNegative : Bool) (whole : List Char) (fraction : Option (List Char)) :
    Reader Char Token := do
  match ← (Reader.satisfy fun c => c = 'e' || c = 'E').optional with
  | none => pure (.number ⟨numberValue isNegative whole fraction none, .ok ()⟩)
  | some _ =>
    let sign ← (Reader.satisfy fun c => c = '+' || c = '-').optional
    let power ← digits
    if power.isEmpty then brokenNumber
    else
      let size : Int := power.foldl (fun n c => n * 10 + (c.toNat - '0'.toNat)) 0
      let exponent := if sign = some '-' then -size else size
      pure (.number ⟨numberValue isNegative whole fraction (some exponent), .ok ()⟩)

/-- The fraction and the rest of a number. -/
def fractionPart (isNegative : Bool) (whole : List Char) : Reader Char Token := do
  match ← (Reader.satisfy (· = '.')).optional with
  | none => exponentPart isNegative whole none
  | some _ =>
    let fraction ← digits
    if fraction.isEmpty then brokenNumber
    else exponentPart isNegative whole (some fraction)

/-- A number whose first digit, if it has one, is `first`. No zero stands in front of other
digits. -/
def number (isNegative : Bool) (first : Option Char) : Reader Char Token := do
  match first with
  | none => brokenNumber
  | some first =>
    let more ← digits
    if first = '0' && !more.isEmpty then
      pure (.number ⟨.error .malformed, .error .malformed⟩)
    else fractionPart isNegative (first :: more)

/-! ## Other tokens -/

/-- The rest of a word that stands for a value. -/
def word (token : Token) : List Char → Reader Char Token
  | [] => pure token
  | c :: rest => do
    match ← Reader.peek with
    | none => pure (.faulty .truncated)
    | some found =>
      if found = c then
        let _ ← Reader.next
        word token rest
      else pure (.faulty .malformed)

/-- The token that starts with a character, or none for a blank. -/
def token (c : Char) : Reader Char (Option Token) :=
  match c with
  | ' ' | '\n' | '\r' | '\t' => pure none
  | '{' => pure (some .beginObject)
  | '}' => pure (some .endObject)
  | '[' => pure (some .beginArray)
  | ']' => pure (some .endArray)
  | ':' => pure (some .colon)
  | ',' => pure (some .comma)
  | '"' => some <$> text
  | 'n' => some <$> word .null "ull".toList
  | 't' => some <$> word (.bool true) "rue".toList
  | 'f' => some <$> word (.bool false) "alse".toList
  | '-' => do
    let first ← (Reader.satisfy Char.isDigit).optional
    some <$> number true first
  | c => if c.isDigit then some <$> number false (some c) else pure (some (.faulty .malformed))

/-- All tokens of a text. -/
def tokens (text : String) : List Token :=
  match (Reader.each token).read text.toList with
  | some (found, _) => found.filterMap id
  | none => []

end DependencyLint.Json
