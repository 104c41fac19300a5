/-!
# Glob patterns

A pattern is compiled to a list of tokens and matched against a whole text. `?` stands for one
character and `*` for any number of them, slashes and dots included; `[..]` and `[!..]` are
character classes; `**`, which has to be a path component of its own, stands for any number of
leading directories.
-/

namespace DependencyLint

namespace Glob

/-- One alternative of a character class. -/
inductive Span where
  | single (c : Char)
  | range (first last : Char)
deriving DecidableEq, Repr

def Span.contains (c : Char) : Span → Bool
  | .single d => c = d
  | .range first last => first ≤ c && c ≤ last

/-- A part of a pattern. -/
inductive Token where
  | char (c : Char)
  | anyChar
  | within (spans : List Span)
  | except (spans : List Span)
  | anySequence
  | anyDirectories
deriving DecidableEq, Repr

/-- What is wrong with a pattern. -/
inductive Fault where
  | starRun
  | partialComponent
  | badClass
deriving DecidableEq, Repr

def Fault.message : Fault → String
  | .starRun => "wildcards are either regular `*` or recursive `**`"
  | .partialComponent => "recursive wildcards must form a single path component"
  | .badClass => "invalid range pattern"

/-- A fault and the number of characters in front of it. -/
structure Error where
  position : Nat
  fault : Fault
deriving DecidableEq, Repr

def Error.message (e : Error) : String :=
  s!"Pattern syntax error near position {e.position}: {e.fault.message}"

end Glob

/-- A compiled pattern. -/
structure Glob where
  tokens : List Glob.Token
deriving DecidableEq, Repr

namespace Glob

/-! ## Compiling -/

/-- The spans of a class: `a-z` is a range wherever three characters allow it. -/
def spans : List Char → List Span
  | first :: '-' :: last :: rest => .range first last :: spans rest
  | c :: rest => .single c :: spans rest
  | [] => []

/-- The characters of a class up to the closing bracket and what follows that. The first character
belongs to the class whatever it is. -/
def classBody : List Char → Option (List Char × List Char)
  | [] => none
  | first :: rest =>
    match rest.dropWhile (· ≠ ']') with
    | [] => none
    | _ :: after => some (first :: rest.takeWhile (· ≠ ']'), after)

theorem length_classBody_lt {cs body rest : List Char} (h : classBody cs = some (body, rest)) :
    rest.length < cs.length := by
  cases cs with
  | nil => simp [classBody] at h
  | cons first tail =>
    simp only [classBody] at h
    split at h
    · simp at h
    · next c after heq =>
      simp only [Option.some.injEq, Prod.mk.injEq] at h
      obtain ⟨_, rfl⟩ := h
      have hle : (tail.dropWhile (· ≠ ']')).length ≤ tail.length :=
        (List.dropWhile_suffix _).length_le
      rw [heq] at hle
      simp only [List.length_cons] at hle ⊢
      omega

/-- The token of a class whose opening bracket has been read, and what follows the class. -/
def classToken : List Char → Option (Token × List Char)
  | '!' :: cs => (classBody cs).map fun (body, rest) => (.except (spans body), rest)
  | cs => (classBody cs).map fun (body, rest) => (.within (spans body), rest)

theorem length_classToken_lt {cs rest : List Char} {token : Token}
    (h : classToken cs = some (token, rest)) : rest.length < cs.length := by
  unfold classToken at h
  split at h
  · next cs =>
    obtain ⟨⟨body, left⟩, hbody, heq⟩ := Option.map_eq_some_iff.1 h
    simp only [Prod.mk.injEq] at heq
    have := length_classBody_lt hbody
    simp only [List.length_cons, ← heq.2]
    omega
  · obtain ⟨⟨body, left⟩, hbody, heq⟩ := Option.map_eq_some_iff.1 h
    simp only [Prod.mk.injEq] at heq
    have := length_classBody_lt hbody
    simp only [← heq.2]
    omega

/-- What follows a run of stars. -/
def afterStars (cs : List Char) : List Char := cs.dropWhile (· = '*')

theorem length_afterStars_le (cs : List Char) : (afterStars cs).length ≤ cs.length :=
  (List.dropWhile_suffix _).length_le

/-- Compiles the rest of a pattern. `position` characters have been read, `before` is the last of
them and `done` the tokens so far, the last one first. -/
def compileFrom (position : Nat) (before : Option Char) (done : List Token) :
    List Char → Except Error (List Token)
  | [] => .ok done.reverse
  | '?' :: rest => compileFrom (position + 1) (some '?') (.anyChar :: done) rest
  | '[' :: rest =>
    match _h : classToken rest with
    | some (token, after) =>
      compileFrom (position + 1 + (rest.length - after.length)) (some ']') (token :: done) after
    | none => .error ⟨position, .badClass⟩
  | '*' :: rest =>
    let after := afterStars rest
    match rest.length - after.length with
    | 0 => compileFrom (position + 1) (some '*') (.anySequence :: done) after
    | 1 =>
      if before ≠ none ∧ before ≠ some '/' then .error ⟨position - 1, .partialComponent⟩
      else
        -- A second one in a row adds nothing.
        let done := if done.length > 1 ∧ done.head? = some .anyDirectories then done
          else .anyDirectories :: done
        match _h : after with
        | [] => .ok done.reverse
        | c :: behind =>
          if c = '/' then compileFrom (position + 3) (some '/') done behind
          else .error ⟨position + 2, .partialComponent⟩
    | _ => .error ⟨position + 2, .starRun⟩
  | c :: rest => compileFrom (position + 1) (some c) (.char c :: done) rest
termination_by cs => cs.length
decreasing_by
  · simp
  · have := length_classToken_lt _h
    simp only [List.length_cons]
    omega
  · have := length_afterStars_le rest
    simp only [List.length_cons]
    omega
  · have hle := length_afterStars_le rest
    have heq : afterStars rest = c :: behind := _h
    rw [heq] at hle
    simp only [List.length_cons] at hle ⊢
    omega
  · simp

/-- Compiles a pattern. -/
def compile (pattern : String) : Except Error Glob :=
  (compileFrom 0 none [] pattern.toList).map Glob.mk

/-! ## Matching -/

/-- How an attempt to match ended: with a match, at a character that does not fit, or at the end of
the text while a token still wanted a character. After the last of these no longer stretch for an
earlier wildcard can help. -/
inductive Outcome where
  | matched
  | mismatch
  | exhausted
deriving DecidableEq, Repr

/-- Whether a token for a single character takes `c`. -/
def Token.accepts (c : Char) : Token → Bool
  | .char d => c = d
  | .anyChar => true
  | .within spans => spans.any (Span.contains c)
  | .except spans => !spans.any (Span.contains c)
  | .anySequence | .anyDirectories => false

/-- Gives a wildcard ever more characters and tries the rest of the pattern behind each character
for which `stop` holds, and at the end of the text. -/
def sweep (attempt : List Char → Outcome) (stop : Char → Bool) : List Char → Outcome
  | [] => attempt []
  | c :: rest =>
    if stop c then
      match attempt rest with
      | .mismatch => sweep attempt stop rest
      | outcome => outcome
    else sweep attempt stop rest

/-- Tries the rest of the pattern first where the wildcard stands, then further on. -/
def stretch (attempt : List Char → Outcome) (stop : Char → Bool) (text : List Char) : Outcome :=
  match attempt text with
  | .mismatch => sweep attempt stop text
  | outcome => outcome

/-- Matches tokens against a text. -/
def run : List Token → List Char → Outcome
  | [], [] => .matched
  | [], _ :: _ => .mismatch
  | .anySequence :: tokens, text => stretch (run tokens) (fun _ => true) text
  | .anyDirectories :: tokens, text => stretch (run tokens) (· = '/') text
  | _ :: _, [] => .exhausted
  | token :: tokens, c :: rest => if token.accepts c then run tokens rest else .mismatch

/-- Whether the pattern stands for the text. -/
def isMatch (glob : Glob) (text : String) : Bool := run glob.tokens text.toList = .matched

end Glob

end DependencyLint
