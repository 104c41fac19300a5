/-!
# Readers

A reader takes a value off the front of a list of tokens, or fails. What it leaves is never longer
than what it was given, so that loops over readers end.
-/

namespace DependencyLint

/-- Reads an `α` off the front of a list. -/
structure Reader (τ α : Type) where
  read : (s : List τ) → Option (α × { rest : List τ // rest.length ≤ s.length })

namespace Reader

variable {τ α β σ : Type}

instance : Monad (Reader τ) where
  pure a := ⟨fun s => some (a, ⟨s, Nat.le_refl _⟩)⟩
  bind p f := ⟨fun s =>
    match p.read s with
    | none => none
    | some (a, ⟨middle, h⟩) =>
      match (f a).read middle with
      | none => none
      | some (b, ⟨rest, h'⟩) => some (b, ⟨rest, Nat.le_trans h' h⟩)⟩

/-- Never succeeds. -/
def fail : Reader τ α := ⟨fun _ => none⟩

/-- Takes a value that may be missing. -/
def ofOption : Option α → Reader τ α
  | some a => pure a
  | none => fail

/-- Goes on only if the condition holds. -/
def guardThat (condition : Bool) : Reader τ Unit := if condition then pure () else fail

/-- The next token. -/
def next : Reader τ τ := ⟨fun
  | [] => none
  | t :: rest => some (t, ⟨rest, Nat.le_succ _⟩)⟩

/-- The next token, left where it is. -/
def peek : Reader τ (Option τ) := ⟨fun s => some (s.head?, ⟨s, Nat.le_refl _⟩)⟩

/-- The next token, which has to satisfy `p`. -/
def satisfy (p : τ → Bool) : Reader τ τ := do
  let t ← next
  if p t then pure t else fail

/-- All tokens up to the first that does not satisfy `p`. -/
def takeWhile (p : τ → Bool) : Reader τ (List τ) := ⟨fun s =>
  some (s.takeWhile p, ⟨s.dropWhile p, (List.dropWhile_suffix p).length_le⟩)⟩

/-- At least one token, up to the first that does not satisfy `p`. -/
def takeWhile1 (p : τ → Bool) : Reader τ (List τ) := do
  let taken ← takeWhile p
  if taken.isEmpty then fail else pure taken

/-- The number of tokens that are left. -/
def remaining : Reader τ Nat := ⟨fun s => some (s.length, ⟨s, Nat.le_refl _⟩)⟩

/-- Succeeds at the end only. -/
def atEnd : Reader τ Unit := ⟨fun
  | [] => some ((), ⟨[], Nat.le_refl _⟩)
  | _ :: _ => none⟩

/-- Tries `q` where `p` fails. -/
def or (p q : Reader τ α) : Reader τ α := ⟨fun s =>
  match p.read s with
  | none => q.read s
  | found => found⟩

/-- The first of several readers that succeeds. -/
def oneOf : List (Reader τ α) → Reader τ α
  | [] => fail
  | p :: ps => p.or (oneOf ps)

/-- Reads nothing where `p` fails. -/
def optional (p : Reader τ α) : Reader τ (Option α) := or (some <$> p) (pure none)

/-- The given tokens, one after the other. -/
def tokens [BEq τ] : List τ → Reader τ Unit
  | [] => pure ()
  | t :: ts => do
    let _ ← satisfy (· == t)
    tokens ts

/-- Reads with `p` a number of times, onto the values in `seen`, the last one first. -/
def timesOnto (p : Reader τ α) (bound : Nat) :
    Nat → List α → (s : List τ) → s.length ≤ bound →
      Option (List α × { rest : List τ // rest.length ≤ bound })
  | 0, seen, s, h => some (seen.reverse, ⟨s, h⟩)
  | count + 1, seen, s, h =>
    match p.read s with
    | none => none
    | some (a, ⟨rest, h'⟩) => p.timesOnto bound count (a :: seen) rest (Nat.le_trans h' h)

/-- Reads with `p` a number of times. -/
def times (p : Reader τ α) (count : Nat) : Reader τ (List α) := ⟨fun s =>
  p.timesOnto s.length count [] s (Nat.le_refl _)⟩

/-- Reads with `p` for as long as it succeeds and takes something, onto the values in `seen`, the
last one first. -/
def manyOnto (p : Reader τ α) (bound : Nat) (seen : List α) (s : List τ) (h : s.length ≤ bound) :
    List α × { rest : List τ // rest.length ≤ bound } :=
  match p.read s with
  | none => (seen.reverse, ⟨s, h⟩)
  | some (a, ⟨rest, _⟩) =>
    if shorter : rest.length < s.length then
      p.manyOnto bound (a :: seen) rest (Nat.le_trans (Nat.le_of_lt shorter) h)
    else (seen.reverse, ⟨s, h⟩)
termination_by s.length

/-- Reads with `p` for as long as it succeeds and takes something. -/
def many (p : Reader τ α) : Reader τ (List α) := ⟨fun s =>
  some (p.manyOnto s.length [] s (Nat.le_refl _))⟩

/-- Values with a separator between any two of them, and no separator behind the last. -/
def separated (p : Reader τ α) (separator : Reader τ Unit) : Reader τ (List α) := do
  match ← p.optional with
  | none => pure []
  | some first =>
    let rest ← many (do separator; p)
    pure (first :: rest)

/-- Takes a token and goes on with `step`, until `step` has a result. -/
def iterateFrom (step : σ → τ → Reader τ (σ ⊕ β)) (bound : Nat) (state : σ) :
    (s : List τ) → s.length ≤ bound → Option (β × { rest : List τ // rest.length ≤ bound })
  | [], _ => none
  | t :: s, h =>
    match (step state t).read s with
    | none => none
    | some (.inr b, ⟨rest, h'⟩) => some (b, ⟨rest, Nat.le_trans h' (Nat.le_of_succ_le h)⟩)
    | some (.inl state, ⟨rest, h'⟩) =>
      iterateFrom step bound state rest (Nat.le_trans h' (Nat.le_of_succ_le h))
termination_by s => s.length
decreasing_by exact Nat.lt_succ_of_le h'

/-- Takes a token and goes on with `step`, until `step` has a result. -/
def iterate (step : σ → τ → Reader τ (σ ⊕ β)) (state : σ) : Reader τ β := ⟨fun s =>
  iterateFrom step s.length state s (Nat.le_refl _)⟩

/-- Takes a token and reads on with `step`, again and again until `step` fails, onto the values in
`seen`, the last one first. -/
def eachOnto (step : τ → Reader τ α) (bound : Nat) (seen : List α) :
    (s : List τ) → s.length ≤ bound → List α × { rest : List τ // rest.length ≤ bound }
  | [], h => (seen.reverse, ⟨[], h⟩)
  | t :: s, h =>
    match (step t).read s with
    | none => (seen.reverse, ⟨t :: s, h⟩)
    | some (a, ⟨rest, h'⟩) =>
      eachOnto step bound (a :: seen) rest (Nat.le_trans h' (Nat.le_of_succ_le h))
termination_by s => s.length
decreasing_by exact Nat.lt_succ_of_le h'

/-- Takes a token and reads on with `step`, again and again until `step` fails. -/
def each (step : τ → Reader τ α) : Reader τ (List α) := ⟨fun s =>
  some (eachOnto step s.length [] s (Nat.le_refl _))⟩

/-- The value that a reader makes of all of a list. -/
def readAll (p : Reader τ α) (s : List τ) : Option α :=
  (((do let a ← p; atEnd; pure a) : Reader τ α).read s).map (·.1)

end Reader

end DependencyLint
