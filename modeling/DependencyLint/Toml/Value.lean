/-!
# TOML values

Values of a TOML document. A table remembers how it was written, since that decides what later
lines of the document may still add to it.
-/

namespace DependencyLint.Toml

/-- How a table was written. -/
inductive Origin where
  /-- Between braces; nothing can be added. -/
  | inline
  /-- Under a header of its own. -/
  | header
  /-- Named on the way in the header of another table. -/
  | implied
  /-- Named on the way in a dotted key. -/
  | dotted
deriving DecidableEq, Repr

/-- A TOML value. Numbers with a fraction and dates keep their text. An array is open if it was
written as one headed table after the other. -/
inductive Value where
  | string (text : String)
  | integer (value : Int)
  | float (text : String)
  | boolean (value : Bool)
  | dateTime (text : String)
  | array (isOpen : Bool) (items : List Value)
  | table (origin : Origin) (entries : List (String × Value))
deriving Repr

/-- The entries of a table, in the order of their first mention. -/
abbrev Entries := List (String × Value)

namespace Entries

/-- Puts a value in the place of an entry, or behind the others. -/
def set (key : String) (value : Value) (entries : Entries) : Entries :=
  if (entries.lookup key).isSome then
    entries.map fun entry => if entry.1 = key then (key, value) else entry
  else entries ++ [(key, value)]

/-- Enters a value under a dotted key. The tables on the way are created where they are missing;
the last of them has to be one that dotted keys created. A key can be entered once. -/
def assign (key : String) (value : Value) : List String → Entries → Option Entries
  | [], entries => if (entries.lookup key).isSome then none else some (entries ++ [(key, value)])
  | step :: path, entries =>
    match entries.lookup step with
    | none => (assign key value path []).map fun sub => entries.set step (.table .dotted sub)
    | some (.table origin sub) =>
      if origin = .dotted || (origin = .implied && !path.isEmpty) then
        (assign key value path sub).map fun sub => entries.set step (.table origin sub)
      else none
    | some (.array true items) =>
      match items.getLast? with
      | some (.table origin sub) =>
        if path.isEmpty then none
        else (assign key value path sub).map fun sub =>
          entries.set step (.array true (items.dropLast ++ [.table origin sub]))
      | _ => none
    | some _ => none

/-- Changes the table that a header's path leads to. Tables on the way are created where they are
missing, and an array of tables leads to its last one. -/
def descend (change : Entries → Option Entries) : List String → Entries → Option Entries
  | [], entries => change entries
  | step :: path, entries =>
    match entries.lookup step with
    | none => (descend change path []).map fun sub => entries.set step (.table .implied sub)
    | some (.table .inline _) => none
    | some (.table origin sub) =>
      (descend change path sub).map fun sub => entries.set step (.table origin sub)
    | some (.array true items) =>
      match items.getLast? with
      | some (.table origin sub) =>
        (descend change path sub).map fun sub =>
          entries.set step (.array true (items.dropLast ++ [.table origin sub]))
      | _ => none
    | some _ => none

/-- Enters key-value lines one after the other. -/
def assignAll (lines : List (List String × Value)) (entries : Entries) : Option Entries :=
  lines.foldlM (fun entries (path, value) => do
    let key ← path.getLast?
    assign key value path.dropLast entries) entries

/-- Adds a headed table: a new one, or one that was only implied so far. -/
def addTable (key : String) (lines : List (List String × Value)) (entries : Entries) :
    Option Entries := do
  let start ← match entries.lookup key with
    | none => some []
    | some (.table .implied sub) => some sub
    | some _ => none
  let sub ← assignAll lines start
  pure (entries.set key (.table .header sub))

/-- Adds a headed table to an array of tables. -/
def addElement (key : String) (lines : List (List String × Value)) (entries : Entries) :
    Option Entries := do
  let items ← match entries.lookup key with
    | none => some []
    | some (.array true items) => some items
    | some _ => none
  let sub ← assignAll lines []
  pure (entries.set key (.array true (items ++ [.table .header sub])))

end Entries

end DependencyLint.Toml
