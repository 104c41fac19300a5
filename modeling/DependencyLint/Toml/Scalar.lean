import DependencyLint.Toml.Text
import DependencyLint.Toml.Value

/-!
# Numbers and dates in TOML

Integers have 64 bits. Numbers with a fraction or an exponent are refused if the nearest
double-precision number is infinity. Dates have to exist in the calendar.
-/

namespace DependencyLint.Toml.Scan

open Reader (satisfy takeWhile1 many oneOf optional tokens)

def digit : Scan Char := satisfy Char.isDigit

/-- A digit of the given kind and more of them, with single underscores between digits. -/
def grouped (first later : Char → Bool) : Scan (List Char) := do
  let head ← satisfy first
  let tail ← many (oneOf [satisfy later, do tokens ['_']; satisfy later])
  pure (head :: tail)

def sign : Scan (List Char) := do
  match ← optional (satisfy fun c => c = '+' || c = '-') with
  | some c => pure [c]
  | none => pure []

/-- The digits of a decimal integer, without a leading zero. -/
def decimalDigits : Scan (List Char) :=
  oneOf [grouped (fun c => c.isDigit && c ≠ '0') Char.isDigit, List.singleton <$> digit]

def numberOf (base : Nat) (digits : List Char) : Nat :=
  digits.foldl (fun n c => n * base + hexValue c) 0

def isIn64Bits (value : Int) : Bool := -0x8000000000000000 ≤ value && value < 0x8000000000000000

/-- The 64-bit integer of a value. -/
def bounded (value : Int) : Scan Value :=
  if isIn64Bits value then pure (.integer value) else Reader.fail

def prefixedInteger (mark : Char) (base : Nat) (isOwnDigit : Char → Bool) : Scan Value := do
  tokens ['0', mark]
  bounded (numberOf base (← grouped isOwnDigit isOwnDigit))

def decimalInteger : Scan Value := do
  let signs ← sign
  let value : Int := numberOf 10 (← decimalDigits)
  bounded (if signs = ['-'] then -value else value)

def integer : Scan Value :=
  oneOf
    [prefixedInteger 'x' 16 isHexDigit, prefixedInteger 'o' 8 fun c => '0' ≤ c && c ≤ '7',
      prefixedInteger 'b' 2 fun c => c = '0' || c = '1', decimalInteger]

/-- The least number that is nearer to `2 ^ 1024` than to any double-precision number. -/
def overflowBound : Nat := Nat.pow 2 1024 - Nat.pow 2 970

/-- Whether `digits`, read as an integer and scaled by a power of ten, is past the range of double
precision. Only numbers of about that size are multiplied out. -/
def isPastRange (digits : List Char) (exponent : Int) : Bool :=
  let significand := numberOf 10 digits
  let order : Int := (Nat.toDigits 10 significand).length + exponent
  if significand = 0 || order < 300 then false
  else if 320 < order then true
  else if 0 ≤ exponent then significand * Nat.pow 10 exponent.toNat ≥ overflowBound
  else significand ≥ overflowBound * Nat.pow 10 (-exponent).toNat

/-- The sign and the digits of an exponent. -/
def exponentPart : Scan (List Char × List Char) := do
  let _ ← satisfy fun c => c = 'e' || c = 'E'
  let signs ← sign
  let digits ← grouped Char.isDigit Char.isDigit
  pure (signs, digits)

def fractionPart : Scan (List Char) := do
  tokens ['.']
  grouped Char.isDigit Char.isDigit

/-- A number with a fraction, an exponent, or both. -/
def decimalFloat : Scan Value := do
  let signs ← sign
  let whole ← decimalDigits
  let fraction ← optional fractionPart
  let exponent ← optional exponentPart
  if fraction.isNone && exponent.isNone then Reader.fail
  else
    let (exponentSigns, exponentDigits) := exponent.getD ([], ['0'])
    let size : Int := numberOf 10 exponentDigits
    let scale := (if exponentSigns = ['-'] then -size else size) - (fraction.getD []).length
    if signs ≠ ['-'] && isPastRange (whole ++ fraction.getD []) scale then Reader.fail
    else
      let mark := if exponent.isSome then ['e'] else []
      pure (.float (String.ofList (signs ++ whole ++ ['.'] ++ fraction.getD [] ++ mark ++
        exponentSigns ++ exponentDigits)))

def specialFloat : Scan Value := do
  let signs ← sign
  let name ← oneOf [do tokens "inf".toList; pure "inf", do tokens "nan".toList; pure "nan"]
  pure (.float (String.ofList signs ++ name))

/-! ## Dates and times -/

/-- A number of so many digits within the given bounds. -/
def field (digits least most : Nat) : Scan Nat := do
  let value := numberOf 10 (← digit.times digits)
  if least ≤ value && value ≤ most then pure value else Reader.fail

def isLeapYear (year : Nat) : Bool := year % 4 = 0 && (year % 100 ≠ 0 || year % 400 = 0)

def daysInMonth (year month : Nat) : Nat :=
  if month = 2 then (if isLeapYear year then 29 else 28)
  else if [4, 6, 9, 11].contains month then 30
  else 31

def date : Scan String := do
  let year ← field 4 0 9999
  tokens ['-']
  let month ← field 2 1 12
  tokens ['-']
  let day ← field 2 1 31
  if day ≤ daysInMonth year month then pure s!"{year}-{month}-{day}" else Reader.fail

def time : Scan String := do
  let hour ← field 2 0 23
  tokens [':']
  let minute ← field 2 0 59
  tokens [':']
  let second ← field 2 0 60
  let fraction ← optional (do tokens ['.']; takeWhile1 Char.isDigit)
  let fraction := String.ofList (fraction.getD [])
  pure s!"{hour}:{minute}:{second}.{fraction}"

def offset : Scan String :=
  oneOf
    [do let _ ← satisfy fun c => c = 'Z' || c = 'z'; pure "Z",
      do
        let direction ← satisfy fun c => c = '+' || c = '-'
        let hour ← field 2 0 23
        tokens [':']
        let minute ← field 2 0 59
        pure s!"{direction}{hour}:{minute}"]

/-- A time of a day, behind the date. -/
def timeOfDate : Scan String := do
  let _ ← satisfy fun c => c = 'T' || c = 't' || c = ' '
  let clock ← time
  let shift ← optional offset
  pure (clock ++ shift.getD "")

def dateTime : Scan Value :=
  oneOf
    [do
        let day ← date
        let clock ← optional timeOfDate
        pure (.dateTime (day ++ "T" ++ clock.getD "")),
      do pure (.dateTime (← time))]

def word (text : String) (value : Value) : Scan Value := do
  tokens text.toList
  pure value

end DependencyLint.Toml.Scan
