import DependencyLint.Archive.Extra
import DependencyLint.Archive.Inflate

/-!
# Zip archives

A zip archive is read from its end. The end record says where the directory of entries lies; the
directory gives each entry's name, the way it is stored and the place of its own header, behind
which its data starts. Bytes in front of the archive shift all of these places by the same amount,
and bytes behind the end record are not looked at.
-/

namespace DependencyLint.Archive

/-! ## Numbers and stretches of bytes -/

/-- The bytes from `start` on, if there are so many. -/
def slice? (bytes : ByteArray) (start size : Nat) : Option ByteArray :=
  if start + size ≤ bytes.size then some (bytes.extract start (start + size)) else none

/-- The number in `size` bytes from `start` on, the low byte first. -/
def number? (bytes : ByteArray) (start size : Nat) : Option Nat :=
  (slice? bytes start size).map fun b => littleEndian b.toList

def hasSignature (signature : Nat) (bytes : ByteArray) (start : Nat) : Bool :=
  number? bytes start 4 = some signature

def localSignature : Nat := 0x04034b50
def directorySignature : Nat := 0x02014b50
def endSignature : Nat := 0x06054b50
def wideEndSignature : Nat := 0x06064b50
def wideLocatorSignature : Nat := 0x07064b50

/-- The places from `start` on and before `stop` where a signature stands. -/
def signaturePlaces (signature : Nat) (bytes : ByteArray) (start stop : Nat) : List Nat :=
  (List.range' start (stop - 3 - start)).filter (hasSignature signature bytes)

/-! ## Entries -/

/-- The characters of the bytes from 128 on in the code page of archives without the Unicode flag. -/
def codePage : Array Char :=
  "ÇüéâäàåçêëèïîìÄÅÉæÆôöòûùÿÖÜ¢£¥₧ƒáíóúñÑªº¿⌐¬½¼¡«»░▒▓│┤╡╢╖╕╣║╗╝╜╛┐└┴┬├─┼╞╟╚╔╩╦╠═╬╧╨╤╥╙╘╒╓╫╪┘┌█▄▌▐▀αßΓπΣσµτΦΘΩδ∞φε∩≡±≥≤⌠⌡÷≈°∙·√ⁿ²■\u00a0".toList.toArray

/-- The text of a name by that code page. -/
def codePageText (bytes : ByteArray) : String :=
  String.ofList (bytes.toList.map fun b =>
    if b < 128 then Char.ofNat b.toNat else codePage.getD (b.toNat - 128) ' ')

/-- An entry of an archive. -/
structure Entry where
  name : String
  isEncrypted : Bool
  method : Nat
  checksum : Nat
  size : Nat
  headerStart : Nat
deriving Repr

/-- Where the directory lies, how far the archive is shifted, and how many entries there are. -/
structure Directory where
  start : Nat
  shift : Nat
  count : Nat
deriving Repr

/-- Reads the entry whose directory record starts at `start`. Its own header has to start in front of
the directory. -/
def entryAt (bytes : ByteArray) (directory : Directory) (start : Nat) : Option (Entry × Nat) := do
  guard (hasSignature directorySignature bytes start)
  let flags ← number? bytes (start + 8) 2
  let method ← number? bytes (start + 10) 2
  let checksum ← number? bytes (start + 16) 4
  let size ← number? bytes (start + 20) 4
  let fullSize ← number? bytes (start + 24) 4
  let nameSize ← number? bytes (start + 28) 2
  let extraSize ← number? bytes (start + 30) 2
  let commentSize ← number? bytes (start + 32) 2
  let headerStart ← number? bytes (start + 42) 4
  let rawName ← slice? bytes (start + 46) nameSize
  let extra ← slice? bytes (start + 46 + nameSize) extraSize
  let rawComment ← slice? bytes (start + 46 + nameSize + extraSize) commentSize
  let text := if flags.testBit 11 then Text.Utf8.lossy else codePageText
  let draft ← applyExtra
    { rawName, name := text rawName, comment := text rawComment, fullSize, size, headerStart, method,
      isEncrypted := false }
    extra.toList
  guard (draft.isEncrypted || draft.method ≠ encryptedMethod)
  let header := draft.headerStart + directory.shift
  guard (header < directory.start)
  pure (⟨draft.name, flags.testBit 0 || draft.isEncrypted, draft.method, checksum, draft.size, header⟩,
    start + 46 + nameSize + extraSize + commentSize)

/-- Reads so many entries one after the other. -/
def entriesFrom (bytes : ByteArray) (directory : Directory) : Nat → Nat → Option (List Entry)
  | 0, _ => some []
  | count + 1, start => do
    let (entry, after) ← entryAt bytes directory start
    let entries ← entriesFrom bytes directory count after
    pure (entry :: entries)

/-! ## The end record -/

/-- An end record with wide numbers. -/
structure WideEnd where
  size : Nat
  madeBy : Nat
  needed : Nat
  disk : Nat
  directoryDisk : Nat
  countHere : Nat
  count : Nat
  offset : Nat
deriving Repr

/-- Reads the wide end record at `place`. -/
def WideEnd.at? (bytes : ByteArray) (place : Nat) : Option WideEnd := do
  let size ← number? bytes (place + 4) 8
  let madeBy ← number? bytes (place + 12) 2
  let needed ← number? bytes (place + 14) 2
  let disk ← number? bytes (place + 16) 4
  let directoryDisk ← number? bytes (place + 20) 4
  let countHere ← number? bytes (place + 24) 8
  let count ← number? bytes (place + 32) 8
  let offset ← number? bytes (place + 48) 8
  pure { size, madeBy, needed, disk, directoryDisk, countHere, count, offset }

/-- Finds the directory by the wide end record that the locator at `locator` points to: the first
one from there on that reaches to the locator and agrees with it. -/
def wideDirectory (bytes : ByteArray) (locator : Nat) : Option Directory := do
  let directoryDisk ← number? bytes (locator + 4) 4
  let expected ← number? bytes (locator + 8) 8
  let disks ← number? bytes (locator + 16) 4
  guard (expected < locator && disks ≤ 1)
  let (place, wide) ← (signaturePlaces wideEndSignature bytes expected locator).findSome?
    fun place => do
      let wide ← WideEnd.at? bytes place
      guard (44 ≤ wide.size && wide.size + 12 = locator - place &&
        wide.directoryDisk = directoryDisk && wide.count * 46 + wide.offset ≤ place)
      pure (place, wide)
  guard (wide.countHere ≤ wide.count && wide.needed ≤ wide.madeBy && wide.disk = directoryDisk)
  pure ⟨wide.offset + (place - expected), place - expected, wide.count⟩

/-- Finds the directory by the end record at `place`. -/
def directoryAt (bytes : ByteArray) (place : Nat) : Option Directory := do
  guard (hasSignature endSignature bytes place)
  let disk ← number? bytes (place + 4) 2
  let directoryDisk ← number? bytes (place + 6) 2
  let countHere ← number? bytes (place + 8) 2
  let count ← number? bytes (place + 10) 2
  let offset ← number? bytes (place + 16) 4
  let commentSize ← number? bytes (place + 20) 2
  guard (place + 22 + commentSize ≤ bytes.size)
  if (count = 0xFFFF || offset = wideMark) && 20 ≤ place &&
      hasSignature wideLocatorSignature bytes (place - 20) then
    wideDirectory bytes (place - 20)
  else
    guard (disk = directoryDisk)
    if count = 0 then pure ⟨offset + (place - offset), place - offset, countHere⟩
    else
      guard (offset < place)
      let start ← if hasSignature directorySignature bytes offset then some offset
        else (signaturePlaces directorySignature bytes offset place).head?
      pure ⟨start, start - offset, countHere⟩

/-- Where a name is repeated, the last entry of that name takes the place of the first. -/
def mergeNames (entries : List Entry) : List Entry :=
  (entries.map (·.name)).eraseDups.filterMap fun name => entries.reverse.find? (·.name = name)

/-- The entries of the archive whose end record stands at `place`. -/
def entriesAt (bytes : ByteArray) (place : Nat) : Option (List Entry) := do
  let directory ← directoryAt bytes place
  let entries ← entriesFrom bytes directory directory.count directory.start
  pure (mergeNames entries)

/-- The result at the last of the places before `place` that has one. -/
def lastPlace {α : Type} (attempt : Nat → Option α) : Nat → Option α
  | 0 => none
  | place + 1 =>
    match attempt place with
    | some found => some found
    | none => lastPlace attempt place

/-- The entries of an archive, by the last end record that leads to a readable directory. -/
def entries? (bytes : ByteArray) : Option (List Entry) := lastPlace (entriesAt bytes) bytes.size

/-! ## Data -/

/-- A name that ends in a slash of either kind belongs to a directory. -/
def Entry.isDirectory (entry : Entry) : Bool :=
  match entry.name.toList.getLast? with
  | some c => c = '/' || c = '\\'
  | none => false

/-- Where the data of an entry starts: behind its own header, which has a name and extra fields of
its own. -/
def Entry.dataStart? (entry : Entry) (bytes : ByteArray) : Option Nat := do
  guard (hasSignature localSignature bytes entry.headerStart)
  let nameSize ← number? bytes (entry.headerStart + 26) 2
  let extraSize ← number? bytes (entry.headerStart + 28) 2
  pure (entry.headerStart + 30 + nameSize + extraSize)

/-- Whether the data of an entry can be located: it is not encrypted, stored in a known way, and has
a header of its own. -/
def Entry.isLocated (entry : Entry) (bytes : ByteArray) : Bool :=
  !entry.isEncrypted && (entry.method = 0 || entry.method = 8) && (entry.dataStart? bytes).isSome

/-- The data of an entry, if it unpacks and has the right checksum. Data that would lie behind the
end is missing. -/
def Entry.data? (entry : Entry) (bytes : ByteArray) : Option ByteArray := do
  let start ← entry.dataStart? bytes
  let raw := bytes.extract start (min (start + entry.size) bytes.size)
  let data ← if entry.method = 0 then some raw else inflate raw
  guard ((crc32 data).toNat = entry.checksum)
  pure data

end DependencyLint.Archive
