import DependencyLint.Binary64.Basic

/-!
# The shortest decimal

The decimal number with the fewest digits among those whose nearest double-precision number is the
given one, and of several such the nearest to it.
-/

namespace DependencyLint.Binary64

/-- The decimal number `digits * 10 ^ exponent`. -/
structure Decimal where
  digits : Nat
  exponent : Int
deriving DecidableEq, Repr

/-- The bounds of the numbers that round to `mantissa * 2 ^ exponent`, in units of
`2 ^ (exponent - 2)`. Below a power of two the spacing halves. -/
def bounds (mantissa : Nat) (exponent : Int) : Nat × Nat :=
  let below := if mantissa = Nat.pow 2 52 && leastExponent < exponent then 1 else 2
  (4 * mantissa - below, 4 * mantissa + 2)

/-- The quotient of `num` and `den`, divided by a power of ten. -/
def tenScaled (num den : Nat) (power : Int) : Nat × Nat :=
  if 0 ≤ power then (num, den * Nat.pow 10 power.toNat) else (num * Nat.pow 10 (-power).toNat, den)

/-- The number of the highest decimal place of a quotient. -/
def tenOrder (num den : Nat) : Int :=
  let guess : Int := (Nat.toDigits 10 num).length - (Nat.toDigits 10 den).length
  let (n, d) := tenScaled num den guess
  if n < d then guess - 1 else guess

/-- Whether `digits * 10 ^ power` rounds to `mantissa * 2 ^ exponent`. The bounds themselves do for
an even mantissa. -/
def roundsTo (mantissa : Nat) (exponent : Int) (digits : Nat) (power : Int) : Bool :=
  let (low, high) := bounds mantissa exponent
  let (n, d) := tenScaled digits 1 (-power)
  let (n, d) := scaled n d (exponent - 2)
  if mantissa % 2 = 0 then low * d ≤ n && n ≤ high * d else low * d < n && n < high * d

/-- The best decimal number with so many digits, if one rounds to the given number. -/
def withDigits (mantissa : Nat) (exponent : Int) (count : Nat) : Option Decimal :=
  let (num, den) := ratio mantissa exponent
  let power := tenOrder num den + 1 - count
  let (n, d) := tenScaled num den power
  let lower := n / d
  let nearest := roundDiv n d
  let fits := fun digits => roundsTo mantissa exponent digits power
  if fits nearest then some ⟨nearest, power⟩
  else if fits lower then some ⟨lower, power⟩
  else if fits (lower + 1) then some ⟨lower + 1, power⟩
  else none

/-- Moves zeros at the end of the digits into the exponent; `fuel` bounds their number. -/
def dropZeros : Nat → Decimal → Decimal
  | 0, decimal => decimal
  | fuel + 1, ⟨digits, exponent⟩ =>
    if digits % 10 = 0 then dropZeros fuel ⟨digits / 10, exponent + 1⟩ else ⟨digits, exponent⟩

/-- The shortest decimal number for `mantissa * 2 ^ exponent`. Seventeen digits always do. -/
def shortest (mantissa : Nat) (exponent : Int) : Decimal :=
  dropZeros 17
    (((List.range 17).findSome? fun n => withDigits mantissa exponent (n + 1)).getD ⟨mantissa, 0⟩)

/-- The text of a decimal number: positional with a point for the middle sizes, and with one digit
in front of the point and an exponent with its sign for the others. -/
def Decimal.text (decimal : Decimal) : String :=
  let digits := Nat.toDigits 10 decimal.digits
  let zeros (count : Int) : List Char := List.replicate count.toNat '0'
  let point : Int := digits.length + decimal.exponent
  String.ofList (
    if 0 ≤ decimal.exponent && point ≤ 16 then digits ++ zeros decimal.exponent ++ ".0".toList
    else if 0 < point && point ≤ 16 then
      digits.take point.toNat ++ ['.'] ++ digits.drop point.toNat
    else if -5 < point && point ≤ 0 then "0.".toList ++ zeros (-point) ++ digits
    else
      let tail := digits.drop 1
      digits.take 1 ++ (if tail.isEmpty then [] else '.' :: tail) ++
        (if 0 < point then "e+".toList else ['e']) ++ (toString (point - 1)).toList)

/-- The text of a number. -/
def text : Binary64 → String
  | .finite 0 _ => "0.0"
  | .finite mantissa exponent => (shortest mantissa exponent).text
  | .infinite => "inf"

end DependencyLint.Binary64
