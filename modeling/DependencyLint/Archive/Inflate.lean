import DependencyLint.Reader

/-!
# Inflating

The compressed format of zip archives. A stream is a sequence of bits, the low bits of a byte
first, and falls into blocks: stored bytes, or symbols in prefix codes that stand for literal bytes
and for copies of what came out before.
-/

namespace DependencyLint.Archive

/-- The bits of a byte sequence, each byte from its low end. -/
def bitsOf (bytes : ByteArray) : List Bool :=
  bytes.toList.flatMap fun b => (List.range 8).map fun i => b.toNat.testBit i

/-- A number of so many bits, the low ones first. -/
def number (width : Nat) : Reader Bool Nat := do
  let bits ← Reader.next.times width
  pure (bits.foldr (fun b value => b.toNat + 2 * value) 0)

/-! ## Prefix codes -/

/-- A prefix code as a binary tree. -/
inductive CodeTree where
  | unused
  | symbol (value : Nat)
  | fork (zero one : CodeTree)

namespace CodeTree

def branch (bit : Bool) : CodeTree → CodeTree
  | .fork zero one => if bit then one else zero
  | _ => .unused

/-- Puts a symbol at the end of a path. -/
def insert (value : Nat) : List Bool → CodeTree → CodeTree
  | [], _ => .symbol value
  | true :: path, tree => .fork (tree.branch false) (insert value path (tree.branch true))
  | false :: path, tree => .fork (insert value path (tree.branch false)) (tree.branch true)

/-- The symbol that the next bits spell. -/
def decode : CodeTree → Reader Bool Nat
  | .unused => Reader.fail
  | .symbol value => pure value
  | .fork zero one => do
    if ← Reader.next then one.decode else zero.decode

/-- The longest code word. -/
def maxLength : Nat := 15

/-- The path of a code word, its high bit first. -/
def path (code length : Nat) : List Bool :=
  (List.range length).map fun i => code.testBit (length - 1 - i)

/-- The symbols whose code words have the given length. -/
def symbolsOfLength (lengths : List Nat) (length : Nat) : List Nat :=
  (lengths.zipIdx.filter (·.1 = length)).map (·.2)

/-- Adds the symbols of one length, which take consecutive code words from `state.1` on. -/
def addLength (lengths : List Nat) (state : Nat × CodeTree) (length : Nat) : Nat × CodeTree :=
  let (code, tree) := (symbolsOfLength lengths length).foldl
    (fun (code, tree) value => (code + 1, insert value (path code length) tree)) state
  (2 * code, tree)

/-- How much of the code space the code words take, in units of the longest ones. -/
def spaceUsed (lengths : List Nat) : Nat :=
  (lengths.filter (· ≠ 0)).foldl (fun used length => used + Nat.pow 2 (maxLength - length)) 0

/-- The code with the given lengths of code words, 0 for a symbol without one. Code words go up
with their lengths, then with their symbols. They have to use up the code space, unless there are
none or there is a single one of length 1. -/
def ofLengths (lengths : List Nat) : Option CodeTree :=
  let given := lengths.filter (· ≠ 0)
  if spaceUsed lengths = Nat.pow 2 maxLength ∨ given = [] ∨ given = [1] then
    some ((List.range' 1 maxLength).foldl (addLength lengths) (0, .unused)).2
  else none

end CodeTree

/-- The two codes of a block. -/
structure BlockCodes where
  literals : CodeTree
  distances : CodeTree

/-- The codes of a block that does not describe its own. -/
def fixedCodes : Option BlockCodes := do
  let literals ← CodeTree.ofLengths (List.replicate 144 8 ++ List.replicate 112 9 ++
    List.replicate 24 7 ++ List.replicate 8 8)
  let distances ← CodeTree.ofLengths (List.replicate 32 5)
  pure ⟨literals, distances⟩

/-- The order in which the lengths of the length code are given. -/
def lengthOrder : List Nat := [16, 17, 18, 0, 8, 7, 9, 6, 10, 5, 11, 4, 12, 3, 13, 2, 14, 1, 15]

/-- Reads code lengths until there are `total` of them. Symbols above 15 repeat the last length or
zero; `steps` bounds the number of symbols, since each gives at least one length. -/
def codeLengths (code : CodeTree) (total : Nat) : Nat → Array Nat → Reader Bool (List Nat)
  | 0, lengths => if lengths.size = total then pure lengths.toList else Reader.fail
  | steps + 1, lengths =>
    if lengths.size = total then pure lengths.toList
    else do
      let value ← code.decode
      if value < 16 then codeLengths code total steps (lengths.push value)
      else if value = 16 then
        let last ← Reader.ofOption lengths.back?
        let count ← number 2
        codeLengths code total steps (lengths ++ Array.replicate (3 + count) last)
      else if value = 17 then
        let count ← number 3
        codeLengths code total steps (lengths ++ Array.replicate (3 + count) 0)
      else
        let count ← number 7
        codeLengths code total steps (lengths ++ Array.replicate (11 + count) 0)

/-- Reads the codes of a block that describes its own. -/
def describedCodes : Reader Bool BlockCodes := do
  let literalCount := (← number 5) + 257
  let distanceCount := (← number 5) + 1
  let lengthCount := (← number 4) + 4
  Reader.guardThat (literalCount ≤ 286 && distanceCount ≤ 30)
  let given ← (number 3).times lengthCount
  let named := lengthOrder.zip given
  let lengthCode ← Reader.ofOption (CodeTree.ofLengths
    ((List.range 19).map fun value => (named.lookup value).getD 0))
  let total := literalCount + distanceCount
  let lengths ← codeLengths lengthCode total total #[]
  let literals ← Reader.ofOption (CodeTree.ofLengths (lengths.take literalCount))
  let distances ← Reader.ofOption (CodeTree.ofLengths (lengths.drop literalCount))
  pure ⟨literals, distances⟩

/-! ## Blocks -/

/-- The least length and the number of extra bits of the length symbols from 257 on. -/
def lengthTable : List (Nat × Nat) :=
  [(3, 0), (4, 0), (5, 0), (6, 0), (7, 0), (8, 0), (9, 0), (10, 0), (11, 1), (13, 1), (15, 1),
    (17, 1), (19, 2), (23, 2), (27, 2), (31, 2), (35, 3), (43, 3), (51, 3), (59, 3), (67, 4),
    (83, 4), (99, 4), (115, 4), (131, 5), (163, 5), (195, 5), (227, 5), (258, 0)]

/-- The least distance and the number of extra bits of the distance symbols. -/
def distanceTable : List (Nat × Nat) :=
  [(1, 0), (2, 0), (3, 0), (4, 0), (5, 1), (7, 1), (9, 2), (13, 2), (17, 3), (25, 3), (33, 4),
    (49, 4), (65, 5), (97, 5), (129, 6), (193, 6), (257, 7), (385, 7), (513, 8), (769, 8),
    (1025, 9), (1537, 9), (2049, 10), (3073, 10), (4097, 11), (6145, 11), (8193, 12), (12289, 12),
    (16385, 13), (24577, 13)]

/-- The value of a symbol by its table, with its extra bits. -/
def extended (table : List (Nat × Nat)) (index : Nat) : Reader Bool Nat := do
  let (least, width) ← Reader.ofOption table[index]?
  pure (least + (← number width))

/-- Appends `count` bytes, each from `distance` bytes back. What lies in front of the stream is
taken for zeros. -/
def copyBack (distance : Nat) : Nat → ByteArray → ByteArray
  | 0, out => out
  | count + 1, out =>
    let b := if h : 0 < distance ∧ distance ≤ out.size then
      out[out.size - distance]
    else 0
    copyBack distance count (out.push b)

/-- Reads one symbol, whose first bit is given: a literal, a copy, or the end of the block. -/
def symbolStep (codes : BlockCodes) (out : ByteArray) (bit : Bool) :
    Reader Bool (ByteArray ⊕ ByteArray) := do
  let value ← (codes.literals.branch bit).decode
  if value < 256 then pure (.inl (out.push value.toUInt8))
  else if value = 256 then pure (.inr out)
  else
    let length ← extended lengthTable (value - 257)
    let distance ← extended distanceTable (← codes.distances.decode)
    pure (.inl (copyBack distance length out))

/-- Bytes as they are, from the next byte boundary on, behind their number and its complement. -/
def storedBlock (out : ByteArray) : Reader Bool ByteArray := do
  let _ ← number ((← Reader.remaining) % 8)
  let size ← number 16
  let complement ← number 16
  Reader.guardThat (size + complement = 65535)
  let bytes ← (number 8).times size
  pure (bytes.foldl (fun out b => out.push b.toUInt8) out)

/-- Reads one block, whose first bit is given and says whether it is the last. -/
def blockStep (out : ByteArray) (last : Bool) : Reader Bool (ByteArray ⊕ ByteArray) := do
  let out ← match ← number 2 with
    | 0 => storedBlock out
    | 1 => do
      let codes ← Reader.ofOption fixedCodes
      Reader.iterate (symbolStep codes) out
    | 2 => do
      let codes ← describedCodes
      Reader.iterate (symbolStep codes) out
    | _ => Reader.fail
  pure (if last then .inr out else .inl out)

/-- The bytes that a compressed stream stands for. What follows its last block is not looked at. -/
def inflate (bytes : ByteArray) : Option ByteArray :=
  ((Reader.iterate blockStep ByteArray.empty).read (bitsOf bytes)).map (·.1)

end DependencyLint.Archive
