/-!
# Bytes as text

A byte sequence is read as UTF-8 one character at a time. Where the bytes form no character, the
longest beginning of one that stands there counts as a single fault. `strictText` refuses a text with
a fault, `lossyText` puts the replacement character U+FFFD in the place of each.
-/

namespace DependencyLint.Text.Utf8

/-- The ranges that the bytes after the first byte `b` of a character lie in, or `none` if no
character starts with `b`. -/
def followers (b : UInt8) : Option (List (UInt8 × UInt8)) :=
  if b < 0x80 then some []
  else if b < 0xC2 then none
  else if b < 0xE0 then some [(0x80, 0xBF)]
  else if b = 0xE0 then some [(0xA0, 0xBF), (0x80, 0xBF)]
  else if b = 0xED then some [(0x80, 0x9F), (0x80, 0xBF)]
  else if b < 0xF0 then some [(0x80, 0xBF), (0x80, 0xBF)]
  else if b = 0xF0 then some [(0x90, 0xBF), (0x80, 0xBF), (0x80, 0xBF)]
  else if b < 0xF4 then some [(0x80, 0xBF), (0x80, 0xBF), (0x80, 0xBF)]
  else if b = 0xF4 then some [(0x80, 0x8F), (0x80, 0xBF), (0x80, 0xBF)]
  else none

/-- Takes bytes off the front for as long as each lies in its range. -/
def takeWithin : List (UInt8 × UInt8) → List UInt8 → List UInt8 × List UInt8
  | (low, high) :: ranges, b :: rest =>
    if low ≤ b ∧ b ≤ high then
      let (taken, left) := takeWithin ranges rest
      (b :: taken, left)
    else ([], b :: rest)
  | _, rest => ([], rest)

theorem length_takeWithin_le (ranges : List (UInt8 × UInt8)) (bytes : List UInt8) :
    (takeWithin ranges bytes).2.length ≤ bytes.length := by
  induction ranges generalizing bytes with
  | nil => simp [takeWithin]
  | cons range ranges ih =>
    cases bytes with
    | nil => simp [takeWithin]
    | cons b rest =>
      simp only [takeWithin]
      split
      · exact Nat.le_succ_of_le (ih rest)
      · simp

/-- The character that a first byte and its followers spell. -/
def assemble (first : UInt8) (taken : List UInt8) : Char :=
  let lead := if taken.isEmpty then first.toNat else first.toNat % Nat.pow 2 (6 - taken.length)
  Char.ofNat (taken.foldl (fun value b => value * 64 + b.toNat % 64) lead)

/-- The character at the front of `first :: rest`, or `none` for a fault, and what follows it. -/
def decodeOne (first : UInt8) (rest : List UInt8) : Option Char × List UInt8 :=
  match followers first with
  | none => (none, rest)
  | some ranges =>
    let (taken, left) := takeWithin ranges rest
    (if taken.length = ranges.length then some (assemble first taken) else none, left)

theorem length_decodeOne_le (first : UInt8) (rest : List UInt8) :
    (decodeOne first rest).2.length ≤ rest.length := by
  unfold decodeOne
  split
  · exact Nat.le_refl _
  · exact length_takeWithin_le _ _

/-- Reads a byte sequence onto `seen`, the characters read so far, the last one first. -/
def decodeOnto (seen : List (Option Char)) : List UInt8 → List (Option Char)
  | [] => seen.reverse
  | first :: rest => decodeOnto ((decodeOne first rest).1 :: seen) (decodeOne first rest).2
termination_by bytes => bytes.length
decreasing_by exact Nat.lt_succ_of_le (length_decodeOne_le first rest)

/-- The characters of a byte sequence, with `none` for each fault. -/
def decode (bytes : List UInt8) : List (Option Char) := decodeOnto [] bytes

/-- The text of a byte sequence that is UTF-8 throughout. -/
def strictText (bytes : List UInt8) : Option String := ((decode bytes).mapM id).map String.ofList

/-- The text of any byte sequence, with U+FFFD for each fault. -/
def lossyText (bytes : List UInt8) : String :=
  String.ofList ((decode bytes).map fun c => c.getD '�')

/-- The text of an array of bytes that is UTF-8 throughout. -/
def strict (bytes : ByteArray) : Option String := strictText bytes.toList

/-- The text of any array of bytes, with U+FFFD for each fault. -/
def lossy (bytes : ByteArray) : String := lossyText bytes.toList

end DependencyLint.Text.Utf8
