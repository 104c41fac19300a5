/-!
# Double-precision numbers

Numbers `mantissa * 2 ^ exponent` with at most 53 binary digits in the mantissa. Results of
arithmetic are the nearest such numbers; a tie goes to the even mantissa. Signs are kept elsewhere.
-/

namespace DependencyLint

/-- A double-precision number that is not negative. -/
inductive Binary64 where
  | finite (mantissa : Nat) (exponent : Int)
  | infinite
deriving DecidableEq, Repr

namespace Binary64

def leastExponent : Int := -1074

def greatestExponent : Int := 971

def zero : Binary64 := .finite 0 leastExponent

/-- The integer nearest to a quotient; a tie goes to the even one. -/
def roundDiv (num den : Nat) : Nat :=
  let quotient := num / den
  let twice := 2 * (num % den)
  if twice < den || (twice = den && quotient % 2 = 0) then quotient else quotient + 1

/-- The quotient of `num` and `den`, divided by a power of two. -/
def scaled (num den : Nat) (power : Int) : Nat × Nat :=
  if 0 ≤ power then (num, den * Nat.pow 2 power.toNat) else (num * Nat.pow 2 (-power).toNat, den)

/-- The number of the highest binary place of a quotient. -/
def order (num den : Nat) : Int :=
  let guess : Int := num.log2 - den.log2
  let (n, d) := scaled num den guess
  if n < d then guess - 1 else guess

/-- The number nearest to a quotient. -/
def ofRatio (num den : Nat) : Binary64 :=
  if num = 0 then zero
  else
    let exponent := max (order num den - 52) leastExponent
    let (n, d) := scaled num den exponent
    let mantissa := roundDiv n d
    let (mantissa, exponent) :=
      if mantissa = Nat.pow 2 53 then (Nat.pow 2 52, exponent + 1) else (mantissa, exponent)
    if greatestExponent < exponent then .infinite else .finite mantissa exponent

/-- A finite number as a quotient. -/
def ratio (mantissa : Nat) (exponent : Int) : Nat × Nat := scaled mantissa 1 (-exponent)

def ofNat (n : Nat) : Binary64 := ofRatio n 1

/-- The number nearest to a power of ten. -/
def tenPow (k : Nat) : Binary64 := ofNat (Nat.pow 10 k)

def mul : Binary64 → Binary64 → Binary64
  | .finite m e, .finite n f =>
    let (a, b) := ratio m e
    let (c, d) := ratio n f
    ofRatio (a * c) (b * d)
  | _, _ => .infinite

/-- The quotient by a number that is not zero. -/
def div : Binary64 → Binary64 → Binary64
  | .finite m e, .finite n f =>
    let (a, b) := ratio m e
    let (c, d) := ratio n f
    ofRatio (a * d) (b * c)
  | .finite .., .infinite => zero
  | .infinite, _ => .infinite

end Binary64

end DependencyLint
