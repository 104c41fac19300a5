import Mathlib.Data.List.Infix
import Mathlib.Data.List.TakeWhile

/-!
# Patterns

Patterns that are searched for in a text: characters of a class, repetitions, optional parts, the end
of a line, and a part that is captured.

**Matching** (`Pattern.tryMatch`). Matching backtracks. A repetition takes as many characters as it
can and gives them back one by one if what follows does not match, and an optional part is left out
only if the pattern does not match with it. What follows is a continuation, so that the first way
that lets everything match is the one that counts. The ways themselves are a relation
(`Pattern.Matches`): a match follows one of them (`exists_matches`), and where there is one, there is
a match (`Matches.tryMatch_isSome`).

**Searching** (`Pattern.findAll`). A text is searched from the left at the starts of its lines, and
the search goes on behind a match. A line starts at the start of the text and behind a line feed.

**Main result** (`findAll_eq_lines`). A pattern that cannot match a line feed is found line by line:
at most once in each line, and in each line as if this line were the whole text.
-/

namespace DependencyLint

/-- A place in a text: what comes next, and what was captured so far. -/
structure Cursor where
  rest : List Char
  captured : Option (List Char) := none

namespace Cursor

def atLineEnd (c : Cursor) : Bool := c.rest.head?.all (· == '\n')

/-- What stands between two places. -/
def upTo (c e : Cursor) : List Char := c.rest.take (c.rest.length - e.rest.length)

/-- The same place with more text behind it. -/
def extend (c : Cursor) (tail : List Char) : Cursor := { c with rest := c.rest ++ tail }

theorem upTo_eq {c e : Cursor} {matched : List Char} (h : c.rest = matched ++ e.rest) :
    c.upTo e = matched := by
  simp [upTo, h]

theorem upTo_extend {c e : Cursor} {matched : List Char} (h : c.rest = matched ++ e.rest)
    (tail : List Char) : (c.extend tail).upTo (e.extend tail) = matched := by
  apply upTo_eq
  simp [extend, h]

end Cursor

/-- What is searched for. -/
inductive Pattern where
  | empty
  | lineEnd
  /-- One character of a class. -/
  | one (isOne : Char → Bool)
  /-- As many characters of a class as possible. -/
  | many (isOne : Char → Bool)
  /-- A part that may be missing. -/
  | optional (p : Pattern)
  /-- A part that is captured. -/
  | group (p : Pattern)
  /-- One pattern after the other. -/
  | seq (p q : Pattern)

namespace Pattern

variable {α β : Type}

/-! ## Matching -/

/-- What is left behind any number of characters of a class, the most characters first. -/
def places (isOne : Char → Bool) : List Char → List (List Char)
  | [] => [[]]
  | x :: rest => if isOne x then places isOne rest ++ [x :: rest] else [x :: rest]

/-- Matches a pattern at a place such that `k` succeeds behind it, and gives what `k` gives. -/
def tryMatch : Pattern → (Cursor → Option α) → Cursor → Option α
  | empty, k, c => k c
  | lineEnd, k, c => if c.atLineEnd then k c else none
  | one isOne, k, c =>
    match c.rest with
    | [] => none
    | x :: rest => if isOne x then k { c with rest := rest } else none
  | many isOne, k, c => (places isOne c.rest).findSome? fun rest => k { c with rest := rest }
  | optional p, k, c => (p.tryMatch k c).or (k c)
  | group p, k, c => p.tryMatch (fun e => k { e with captured := some (c.upTo e) }) c
  | seq p q, k, c => p.tryMatch (q.tryMatch k) c

/-- The ways to match a pattern, from one place to another. -/
def Matches : Pattern → Cursor → Cursor → Prop
  | empty, c, e => e = c
  | lineEnd, c, e => c.atLineEnd = true ∧ e = c
  | one isOne, c, e => ∃ x, isOne x = true ∧ c.rest = x :: e.rest ∧ e.captured = c.captured
  | many isOne, c, e =>
    ∃ front, (∀ x ∈ front, isOne x = true) ∧ c.rest = front ++ e.rest ∧ e.captured = c.captured
  | optional p, c, e => p.Matches c e ∨ e = c
  | group p, c, e =>
    ∃ d matched, p.Matches c d ∧ c.rest = matched ++ d.rest ∧ e = ⟨d.rest, some matched⟩
  | seq p q, c, e => ∃ d, p.Matches c d ∧ q.Matches d e

/-- Nothing in the pattern matches a line feed. -/
def avoidsBreaks : Pattern → Bool
  | empty | lineEnd => true
  | one isOne | many isOne => !isOne '\n'
  | optional p | group p => p.avoidsBreaks
  | seq p q => p.avoidsBreaks && q.avoidsBreaks

theorem mem_places {isOne : Char → Bool} {text rest : List Char} :
    rest ∈ places isOne text ↔ ∃ front, (∀ x ∈ front, isOne x = true) ∧ text = front ++ rest := by
  induction text with
  | nil =>
    simp only [places, List.mem_singleton, List.nil_eq, List.append_eq_nil_iff]
    constructor
    · intro h
      exact ⟨[], by simp, rfl, h⟩
    · rintro ⟨front, -, -, h⟩
      exact h
  | cons x text ih =>
    constructor
    · intro h
      have hcases : (isOne x = true ∧ rest ∈ places isOne text) ∨ rest = x :: text := by
        rw [places] at h
        split_ifs at h with hx
        · simpa [hx] using h
        · exact Or.inr (List.mem_singleton.1 h)
      rcases hcases with ⟨hx, hrest⟩ | rfl
      · obtain ⟨front, hfront, rfl⟩ := ih.1 hrest
        exact ⟨x :: front, List.forall_mem_cons.2 ⟨hx, hfront⟩, rfl⟩
      · exact ⟨[], by simp, rfl⟩
    · rintro ⟨front, hfront, h⟩
      rw [places]
      cases front with
      | nil =>
        have hrest : rest = x :: text := h.symm
        split_ifs <;> simp [hrest]
      | cons y front =>
        obtain ⟨rfl, htext⟩ := List.cons.inj h
        rw [List.forall_mem_cons] at hfront
        rw [if_pos hfront.1, List.mem_append]
        exact Or.inl (ih.2 ⟨front, hfront.2, htext⟩)

/-- The first place is the one behind all characters of the class. -/
theorem exists_places_eq_cons (isOne : Char → Bool) (text : List Char) :
    ∃ others, places isOne text = text.dropWhile isOne :: others := by
  induction text with
  | nil => exact ⟨[], rfl⟩
  | cons x text ih =>
    obtain ⟨others, h⟩ := ih
    rw [places, List.dropWhile_cons]
    split_ifs
    · exact ⟨others ++ [x :: text], by rw [h]; rfl⟩
    · exact ⟨[], rfl⟩

/-- What was matched stands between the two places. -/
theorem Matches.exists_matched {p : Pattern} {c e : Cursor} (h : p.Matches c e) :
    ∃ matched, c.rest = matched ++ e.rest ∧ (p.avoidsBreaks = true → '\n' ∉ matched) := by
  induction p generalizing c e with
  | empty => exact ⟨[], by rw [h]; rfl, by simp⟩
  | lineEnd => exact ⟨[], by rw [h.2]; rfl, by simp⟩
  | one isOne =>
    obtain ⟨x, hx, hrest, -⟩ := h
    refine ⟨[x], hrest, fun hp hmem => ?_⟩
    rw [← List.mem_singleton.1 hmem] at hx
    simp [avoidsBreaks, hx] at hp
  | many isOne =>
    obtain ⟨front, hfront, hrest, -⟩ := h
    refine ⟨front, hrest, fun hp hmem => ?_⟩
    simp [avoidsBreaks, hfront _ hmem] at hp
  | optional p ih =>
    rcases h with h | rfl
    · exact ih h
    · exact ⟨[], rfl, by simp⟩
  | group p ih =>
    obtain ⟨d, -, hd, -, rfl⟩ := h
    exact ih (e := d) hd
  | seq p q ihp ihq =>
    obtain ⟨d, hd, he⟩ := h
    obtain ⟨u, hu, hu'⟩ := ihp hd
    obtain ⟨v, hv, hv'⟩ := ihq he
    refine ⟨u ++ v, by rw [hu, hv, List.append_assoc], fun hp => ?_⟩
    rw [avoidsBreaks, Bool.and_eq_true] at hp
    simp [hu' hp.1, hv' hp.2]

/-- **A match follows one of the ways.** -/
theorem exists_matches {p : Pattern} {k : Cursor → Option α} {c : Cursor} {a : α}
    (h : p.tryMatch k c = some a) : ∃ e, p.Matches c e ∧ k e = some a := by
  induction p generalizing k c with
  | empty => exact ⟨c, rfl, h⟩
  | lineEnd =>
    rw [tryMatch] at h
    split_ifs at h with hend
    exact ⟨c, ⟨hend, rfl⟩, h⟩
  | one isOne =>
    rw [tryMatch] at h
    cases hc : c.rest with
    | nil => simp [hc] at h
    | cons x rest =>
      simp only [hc] at h
      split_ifs at h with hx
      exact ⟨{ c with rest := rest }, ⟨x, hx, hc, rfl⟩, h⟩
  | many isOne =>
    obtain ⟨rest, hmem, h⟩ := List.exists_of_findSome?_eq_some h
    obtain ⟨front, hfront, hrest⟩ := mem_places.1 hmem
    exact ⟨{ c with rest := rest }, ⟨front, hfront, hrest, rfl⟩, h⟩
  | optional p ih =>
    rcases Option.or_eq_some_iff.1 h with h | ⟨-, h⟩
    · obtain ⟨e, he, hk⟩ := ih h
      exact ⟨e, Or.inl he, hk⟩
    · exact ⟨c, Or.inr rfl, h⟩
  | group p ih =>
    obtain ⟨e, he, hk⟩ := ih h
    obtain ⟨matched, hmatched, -⟩ := he.exists_matched
    rw [Cursor.upTo_eq hmatched] at hk
    exact ⟨_, ⟨e, matched, he, hmatched, rfl⟩, hk⟩
  | seq p q ihp ihq =>
    obtain ⟨d, hd, h⟩ := ihp h
    obtain ⟨e, he, hk⟩ := ihq h
    exact ⟨e, ⟨d, hd, he⟩, hk⟩

/-- **Where there is a way, there is a match.** -/
theorem Matches.tryMatch_isSome {p : Pattern} {k : Cursor → Option α} {c e : Cursor}
    (h : p.Matches c e) (hk : (k e).isSome) : (p.tryMatch k c).isSome := by
  induction p generalizing k c e with
  | empty => rwa [tryMatch, ← show e = c from h]
  | lineEnd => rwa [tryMatch, if_pos h.1, ← h.2]
  | one isOne =>
    obtain ⟨x, hx, hrest, hcaptured⟩ := h
    simpa only [tryMatch, hrest, if_pos hx, ← hcaptured] using hk
  | many isOne =>
    obtain ⟨front, hfront, hrest, hcaptured⟩ := h
    rw [tryMatch, List.findSome?_isSome_iff]
    refine ⟨e.rest, mem_places.2 ⟨front, hfront, hrest⟩, ?_⟩
    rwa [← hcaptured]
  | optional p ih =>
    rw [tryMatch, Option.isSome_or, Bool.or_eq_true]
    rcases h with h | rfl
    · exact Or.inl (ih h hk)
    · exact Or.inr hk
  | group p ih =>
    obtain ⟨d, matched, hd, hmatched, rfl⟩ := h
    apply ih hd
    rwa [Cursor.upTo_eq hmatched]
  | seq p q ihp ihq =>
    obtain ⟨d, hd, he⟩ := h
    exact ihp hd (ihq he hk)

/-- What is done afterwards matters only at places that can be reached. -/
theorem tryMatch_congr {p : Pattern} {k k' : Cursor → Option α} {c : Cursor}
    (h : ∀ e, p.Matches c e → k e = k' e) : p.tryMatch k c = p.tryMatch k' c := by
  induction p generalizing k k' c with
  | empty => exact h c rfl
  | lineEnd =>
    rw [tryMatch, tryMatch]
    split_ifs with hend
    · exact h c ⟨hend, rfl⟩
    · rfl
  | one isOne =>
    rw [tryMatch, tryMatch]
    cases hc : c.rest with
    | nil => rfl
    | cons x rest =>
      simp only
      split_ifs with hx
      · exact h _ ⟨x, hx, hc, rfl⟩
      · rfl
  | many isOne =>
    rw [tryMatch, tryMatch, ← List.head?_filterMap, ← List.head?_filterMap]
    congr 1
    apply List.filterMap_congr
    intro rest hrest
    obtain ⟨front, hfront, hrest⟩ := mem_places.1 hrest
    exact h _ ⟨front, hfront, hrest, rfl⟩
  | optional p ih => rw [tryMatch, tryMatch, ih fun e he => h e (Or.inl he), h c (Or.inr rfl)]
  | group p ih =>
    refine ih fun e he => h _ ?_
    obtain ⟨matched, hmatched, -⟩ := he.exists_matched
    rw [Cursor.upTo_eq hmatched]
    exact ⟨e, matched, he, hmatched, rfl⟩
  | seq p q ihp ihq => exact ihp fun d hd => ihq fun e he => h e ⟨d, hd, he⟩

theorem tryMatch_map (p : Pattern) (k : Cursor → Option α) (g : α → β) (c : Cursor) :
    p.tryMatch (fun e => (k e).map g) c = (p.tryMatch k c).map g := by
  induction p generalizing k c with
  | empty => rfl
  | lineEnd =>
    simp only [tryMatch]
    split_ifs <;> rfl
  | one isOne =>
    simp only [tryMatch]
    cases c.rest with
    | nil => rfl
    | cons x rest =>
      simp only
      split_ifs <;> rfl
  | many isOne => rw [tryMatch, tryMatch, List.map_findSome?]; rfl
  | optional p ih => rw [tryMatch, tryMatch, ih, Option.map_or]
  | group p ih => exact ih _ c
  | seq p q ihp ihq =>
    rw [tryMatch, tryMatch, ← ihp]
    congr 1
    funext e
    exact ihq k e

/-! ## Matches within a line -/

/-- What comes behind a line: nothing, or a line feed. -/
def IsLineTail (tail : List Char) : Prop := tail.head?.all (· == '\n') = true

theorem eq_break_of_isLineTail {x : Char} {tail : List Char} (h : IsLineTail (x :: tail)) :
    x = '\n' := by
  simpa [IsLineTail] using h

theorem places_append {isOne : Char → Bool} (hbreak : isOne '\n' = false) {tail : List Char}
    (htail : IsLineTail tail) (rest : List Char) :
    places isOne (rest ++ tail) = (places isOne rest).map (· ++ tail) := by
  induction rest with
  | nil =>
    cases tail with
    | nil => rfl
    | cons x tail => simp [places, eq_break_of_isLineTail htail, hbreak]
  | cons x rest ih =>
    rw [List.cons_append, places, places]
    split_ifs <;> simp [ih]

/-- **A match does not depend on later lines.** -/
theorem tryMatch_extend {p : Pattern} (hp : p.avoidsBreaks = true) {tail : List Char}
    (htail : IsLineTail tail) (k : Cursor → Option α) (c : Cursor) :
    p.tryMatch k (c.extend tail) = p.tryMatch (fun e => k (e.extend tail)) c := by
  induction p generalizing k c with
  | empty => rfl
  | lineEnd =>
    have hend : (c.extend tail).atLineEnd = c.atLineEnd := by
      rw [Cursor.atLineEnd, Cursor.atLineEnd, Cursor.extend]
      cases c.rest with
      | nil => simpa [IsLineTail] using htail
      | cons x rest => rfl
    rw [tryMatch, tryMatch, hend]
  | one isOne =>
    have hbreak : isOne '\n' = false := by simpa [avoidsBreaks] using hp
    simp only [tryMatch, Cursor.extend]
    cases c.rest with
    | nil =>
      cases tail with
      | nil => rfl
      | cons x tail => simp [eq_break_of_isLineTail htail, hbreak]
    | cons x rest => rfl
  | many isOne =>
    have hbreak : isOne '\n' = false := by simpa [avoidsBreaks] using hp
    simp only [tryMatch, Cursor.extend, places_append hbreak htail, List.findSome?_map]
    rfl
  | optional p ih => rw [tryMatch, tryMatch, ih hp]
  | group p ih =>
    rw [tryMatch, tryMatch, ih hp]
    apply tryMatch_congr
    intro e he
    obtain ⟨matched, hmatched, -⟩ := he.exists_matched
    rw [Cursor.upTo_extend hmatched, Cursor.upTo_eq hmatched]
    rfl
  | seq p q ihp ihq =>
    rw [avoidsBreaks, Bool.and_eq_true] at hp
    rw [tryMatch, tryMatch, ihp hp.1]
    congr 1
    funext e
    exact ihq hp.2 k e

/-! ## Searching -/

/-- What was found: the text, and the captured part of it. -/
structure Match where
  text : List Char
  captured : Option (List Char)

/-- The match at the front of a text, if there is one. -/
def matchAt (p : Pattern) (text : List Char) : Option Match :=
  (p.tryMatch some ⟨text, none⟩).map fun e => ⟨Cursor.upTo ⟨text, none⟩ e, e.captured⟩

/-- All matches in a text that start where a line starts, from the left. The search goes on behind a
match, and one character further where nothing was matched. -/
def findAll (p : Pattern) (atLineStart : Bool) : List Char → List Match
  | [] => if atLineStart then (p.matchAt []).toList else []
  | x :: text =>
    match if atLineStart then p.matchAt (x :: text) else none with
    | none => findAll p (x == '\n') text
    | some found =>
      found ::
        if found.text = [] then findAll p (x == '\n') text
        else findAll p (found.text.getLast? == some '\n') ((x :: text).drop found.text.length)
termination_by text => text.length
decreasing_by
  · exact Nat.lt_succ_self _
  · exact Nat.lt_succ_self _
  · rename_i hne
    rw [List.length_drop, List.length_cons]
    have := List.length_pos_iff.2 hne
    omega

variable {p : Pattern}

theorem findAll_false_nil (p : Pattern) : p.findAll false [] = [] := by
  rw [findAll]
  rfl

theorem findAll_false_cons (p : Pattern) (x : Char) (text : List Char) :
    p.findAll false (x :: text) = p.findAll (x == '\n') text := by
  rw [findAll]
  rfl

/-- Nothing is found in the rest of a line. -/
theorem findAll_false_append (p : Pattern) {line : List Char} (hline : '\n' ∉ line)
    (tail : List Char) : p.findAll false (line ++ tail) = p.findAll false tail := by
  induction line with
  | nil => rfl
  | cons x line ih =>
    rw [List.mem_cons, not_or] at hline
    have hx : (x == '\n') = false := beq_eq_false_iff_ne.2 (Ne.symm hline.1)
    rw [List.cons_append, findAll_false_cons, hx, ih hline.2]

/-- What is found stands at the front of the text, and nothing that is found extends over two
lines. -/
theorem eq_append_of_matchAt (hp : p.avoidsBreaks = true) {text : List Char} {found : Match}
    (h : p.matchAt text = some found) : '\n' ∉ found.text ∧ ∃ rest, text = found.text ++ rest := by
  obtain ⟨e, he, rfl⟩ := Option.map_eq_some_iff.1 h
  obtain ⟨_, hmatches, hsome⟩ := exists_matches he
  cases hsome
  obtain ⟨matched, hmatched, hbreak⟩ := hmatches.exists_matched
  rw [Cursor.upTo_eq hmatched]
  exact ⟨hbreak hp, e.rest, hmatched⟩

theorem matchAt_append (hp : p.avoidsBreaks = true) {tail : List Char} (htail : IsLineTail tail)
    (line : List Char) : p.matchAt (line ++ tail) = p.matchAt line := by
  have hextend : p.tryMatch some ⟨line ++ tail, none⟩ =
      (p.tryMatch some ⟨line, none⟩).map (·.extend tail) := by
    rw [← tryMatch_map]
    exact tryMatch_extend hp htail some ⟨line, none⟩
  rw [matchAt, matchAt, hextend]
  cases he : p.tryMatch some ⟨line, none⟩ with
  | none => rfl
  | some e =>
    obtain ⟨_, hmatches, hsome⟩ := exists_matches he
    cases hsome
    obtain ⟨matched, hmatched, -⟩ := hmatches.exists_matched
    have hextended := Cursor.upTo_extend hmatched tail
    rw [Option.map_some, Option.map_some, Option.map_some, Cursor.upTo_eq hmatched, ← hextended]
    rfl

/-- A line is searched as if it were the whole text, and the search goes on behind it. -/
theorem findAll_line (hp : p.avoidsBreaks = true) {line tail : List Char} (hline : '\n' ∉ line)
    (htail : IsLineTail tail) :
    p.findAll true (line ++ tail) = (p.matchAt line).toList ++ p.findAll false tail := by
  have hnext : ∀ x text, line ++ tail = x :: text →
      p.findAll (x == '\n') text = p.findAll false tail := by
    intro x text h
    rw [← findAll_false_cons, ← h, findAll_false_append p hline]
  cases htext : line ++ tail with
  | nil =>
    obtain ⟨rfl, rfl⟩ := List.append_eq_nil_iff.1 htext
    rw [findAll, findAll_false_nil, List.append_nil]
    rfl
  | cons x text =>
    rw [findAll, if_pos rfl, ← htext, matchAt_append hp htail]
    cases hfound : p.matchAt line with
    | none => exact hnext x text htext
    | some found =>
      obtain ⟨hbreak, rest, rfl⟩ := eq_append_of_matchAt hp hfound
      have hlast : (found.text.getLast? == some '\n') = false := by
        rw [beq_eq_false_iff_ne]
        exact fun h => hbreak (List.mem_of_getLast? h)
      rw [List.mem_append, not_or] at hline
      simp only
      rw [List.append_assoc, List.drop_left, hlast, findAll_false_append p hline.2, hnext x text htext,
        ite_self]
      rfl

/-- A text is its last line, or a line and the text behind it. -/
theorem induction_on_lines {motive : List Char → Prop}
    (last : ∀ line, '\n' ∉ line → motive line)
    (next : ∀ line text, '\n' ∉ line → motive text → motive (line ++ '\n' :: text))
    (text : List Char) : motive text := by
  by_cases h : '\n' ∈ text
  · obtain ⟨line, rest, rfl, hline⟩ := List.eq_append_cons_of_mem h
    exact next line rest hline (induction_on_lines last next rest)
  · exact last text h
termination_by text.length
decreasing_by
  subst text
  rw [List.length_append, List.length_cons]
  omega

/-- **A pattern without line feeds is found line by line.** -/
theorem findAll_eq_lines (hp : p.avoidsBreaks = true) (text : List Char) :
    p.findAll true text = (text.splitOn '\n').filterMap p.matchAt := by
  induction text using induction_on_lines with
  | last line hline =>
    have h := findAll_line hp hline (show IsLineTail [] from rfl)
    rw [List.append_nil, findAll_false_nil, List.append_nil] at h
    rw [h, List.splitOn_eq_singleton hline, List.filterMap_cons]
    cases p.matchAt line <;> rfl
  | next line text hline ih =>
    have h := findAll_line hp hline (show IsLineTail ('\n' :: text) from rfl)
    rw [findAll_false_cons, beq_self_eq_true, ih] at h
    rw [h, List.splitOn_append_cons_self_of_not_mem hline, List.filterMap_cons]
    cases p.matchAt line <;> rfl

end Pattern

end DependencyLint
