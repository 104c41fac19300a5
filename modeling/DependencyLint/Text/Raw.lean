import DependencyLint.Text.Utf8

/-!
# Texts of the operating system

File names and the paths made of them are sequences of bytes. Most of them are UTF-8, but none has
to be.
-/

namespace DependencyLint

/-- A text as the operating system has it. -/
structure RawText where
  bytes : List UInt8
deriving DecidableEq, Repr, Inhabited

namespace RawText

def ofText (text : String) : RawText := ⟨text.toUTF8.data.toList⟩

instance : Coe String RawText := ⟨ofText⟩

instance : Append RawText := ⟨fun a b => ⟨a.bytes ++ b.bytes⟩⟩

/-- The text, if it is UTF-8. -/
def text? (raw : RawText) : Option String := Text.Utf8.strictText raw.bytes

/-- The text as it is shown, with U+FFFD where it is not UTF-8. -/
def shown (raw : RawText) : String := Text.Utf8.lossyText raw.bytes

/-- The order of bytes. -/
def precedes (a b : RawText) : Bool := List.lex a.bytes b.bytes fun x y => decide (x < y)

end RawText

end DependencyLint
