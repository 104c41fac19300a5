import DependencyLint.Archive.Checksum
import DependencyLint.Text.Utf8

/-!
# Extra fields

Behind the name of an entry its directory record may carry extra fields, each with a kind and a
size: numbers that are too large for the record itself, names in Unicode, times, and the way the
entry is encrypted.

The fields are read for as long as there are bytes. If the bytes end inside a field, what was read
up to there stands. A field that contradicts itself or its entry makes the record unreadable.
-/

namespace DependencyLint.Archive

/-- The number that the bytes stand for, the low byte first. -/
def littleEndian (bytes : List UInt8) : Nat :=
  bytes.foldr (fun b value => b.toNat + 256 * value) 0

/-- The parts of an entry that its extra fields can replace. -/
structure EntryDraft where
  rawName : ByteArray
  name : String
  comment : String
  fullSize : Nat
  size : Nat
  headerStart : Nat
  method : Nat
  isEncrypted : Bool

/-- What becomes of an extra field: it is taken, the bytes end inside it, or it contradicts itself
or its entry. -/
inductive Verdict where
  | taken
  | cut
  | refused
deriving DecidableEq, Repr

/-- Whether all bytes of a field are there. -/
def Verdict.ofSize (size : Nat) (bytes : List UInt8) : Verdict :=
  if bytes.length < size then .cut else .taken

/-! ## Wide numbers -/

/-- The value that stands for "see the extra field". -/
def wideMark : Nat := 0xFFFFFFFF

/-- Reads a wide number off the front of a field, if the field gives one. -/
def wideNumber (isGiven : Bool) (old : Nat) (bytes : List UInt8) : Option (Nat × List UInt8) :=
  if !isGiven then some (old, bytes)
  else if bytes.length < 8 then none
  else some (littleEndian (bytes.take 8), bytes.drop 8)

/-- Takes wide sizes and places. A field of three numbers gives them all, a shorter one those that
the record marks. -/
def applyWide (size : Nat) (bytes : List UInt8) (draft : EntryDraft) : Verdict × EntryDraft :=
  let all := size ≥ 24
  match wideNumber (all || draft.fullSize = wideMark) draft.fullSize bytes with
  | none => (.cut, draft)
  | some (fullSize, rest) =>
    let draft := { draft with fullSize }
    match wideNumber (all || draft.size = wideMark) draft.size rest with
    | none => (.cut, draft)
    | some (packedSize, rest) =>
      let draft := { draft with size := packedSize }
      match wideNumber (all || draft.headerStart = wideMark) draft.headerStart rest with
      | none => (.cut, draft)
      | some (headerStart, rest) =>
        let verdict := if size < bytes.length - rest.length then .refused else .ofSize size bytes
        (verdict, { draft with headerStart })

/-! ## Unicode texts -/

/-- The text of a Unicode field, which holds a version and the checksum of the text it replaces in
front of its own. -/
def unicodeText (size : Nat) (bytes : List UInt8) (replaced : ByteArray) :
    Except Verdict (ByteArray × String) :=
  if bytes.length < 5 then .error .cut
  else if size < 5 then .error .refused
  else if bytes.length < size then .error .cut
  else if littleEndian ((bytes.drop 1).take 4) ≠ (crc32 replaced).toNat then .error .refused
  else
    let content : ByteArray := ⟨((bytes.drop 5).take (size - 5)).toArray⟩
    match Text.Utf8.strict content with
    | some text => .ok (content, text)
    | none => .error .refused

/-! ## Times -/

/-- A field of up to three times in seconds. Its first byte says which ones are there; a field of
five bytes holds one time whatever that byte says. -/
def secondsVerdict (size : Nat) : List UInt8 → Verdict
  | [] => .cut
  | flags :: rest =>
    let given := (List.range 3).countP flags.toNat.testBit
    if 8 ≤ flags.toNat || (size ≠ 5 && size ≠ 1 + 4 * given) then .refused
    else .ofSize size (flags :: rest)

/-- A field of three fine-grained times: four spare bytes, a tag and a size, which are always the
same, and the times. -/
def fineTimesVerdict (size : Nat) (bytes : List UInt8) : Verdict :=
  if size ≠ 32 then .refused
  else if bytes.length < 6 then .cut
  else if littleEndian ((bytes.drop 4).take 2) ≠ 1 then .refused
  else if bytes.length < 8 then .cut
  else if littleEndian ((bytes.drop 6).take 2) ≠ 24 then .refused
  else .ofSize size bytes

/-! ## Encryption -/

/-- The method of an entry whose encryption is described by a field of its own. -/
def encryptedMethod : Nat := 99

/-- Takes the way an entry is encrypted: a version, the letters `AE`, the strength of the key, and
the method by which the data was packed before. -/
def applyCipher (size : Nat) (bytes : List UInt8) (draft : EntryDraft) : Verdict × EntryDraft :=
  if size ≠ 7 then (.refused, draft)
  else if bytes.length < 7 then (.cut, draft)
  else
    let version := littleEndian (bytes.take 2)
    let vendor := littleEndian ((bytes.drop 2).take 2)
    let strength := littleEndian ((bytes.drop 4).take 1)
    if vendor = 0x4541 && (version = 1 || version = 2) && 1 ≤ strength && strength ≤ 3 then
      (.taken, { draft with method := littleEndian ((bytes.drop 5).take 2), isEncrypted := true })
    else (.refused, draft)

/-! ## All fields -/

/-- Takes one field, by its kind. Fields of other kinds are passed over. -/
def applyField (kind size : Nat) (bytes : List UInt8) (draft : EntryDraft) :
    Verdict × EntryDraft :=
  match kind with
  | 0x0001 => applyWide size bytes draft
  | 0x000a => (fineTimesVerdict size bytes, draft)
  | 0x5455 => (secondsVerdict size bytes, draft)
  | 0x6375 =>
    match unicodeText size bytes draft.comment.toUTF8 with
    | .ok (_, comment) => (.taken, { draft with comment })
    | .error verdict => (verdict, draft)
  | 0x7075 =>
    match unicodeText size bytes draft.rawName with
    | .ok (rawName, name) => (.taken, { draft with rawName, name })
    | .error verdict => (verdict, draft)
  | 0x9901 => applyCipher size bytes draft
  | _ => (.ofSize size bytes, draft)

/-- Goes through the extra fields of an entry; `none` if one is refused. -/
def applyExtra (draft : EntryDraft) : List UInt8 → Option EntryDraft
  | k0 :: k1 :: s0 :: s1 :: rest =>
    let size := littleEndian [s0, s1]
    match applyField (littleEndian [k0, k1]) size rest draft with
    | (.taken, draft) => applyExtra draft (rest.drop size)
    | (.cut, draft) => some draft
    | (.refused, _) => none
  | _ => some draft
termination_by bytes => bytes.length
decreasing_by
  exact Nat.lt_of_le_of_lt (List.length_drop ▸ Nat.sub_le _ _)
    (Nat.lt_succ_of_le (Nat.le_add_right _ 3))

end DependencyLint.Archive
