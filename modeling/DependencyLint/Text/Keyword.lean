/-!
# Keywords in names

Search for a keyword of small ASCII letters in a name, whatever the case of the name. The name is
put into lower case first. Only the letters `A` to `Z`, U+0130 and U+212A have a lower case with an
ASCII letter in it, so these are the only ones that can matter for the search.
-/

namespace DependencyLint.Text

/-- The lower case of a character, where it has an ASCII letter in it; other characters stay. -/
def lowerChar (c : Char) : List Char :=
  if c = 'İ' then ['i', '̇']
  else if c = 'K' then ['k']
  else [c.toLower]

/-- Whether `word` stands somewhere in `text`. -/
def hasInfix (word : List Char) : List Char → Bool
  | [] => word.isEmpty
  | c :: rest => word.isPrefixOf (c :: rest) || hasInfix word rest

/-- Whether a name contains a keyword in any case. -/
def containsKeyword (name keyword : String) : Bool :=
  hasInfix keyword.toList (name.toList.flatMap lowerChar)

end DependencyLint.Text
