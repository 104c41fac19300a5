import DependencyLint.Proofs.LineGrammar
import DependencyLint.Proofs.Patterns

/-!
# Import and package lines by search

The imports and the package of a source text can also be found by searching the whole text for a
pattern. The patterns leave choices open: blanks, `static`, a star and a name compete for the same
characters, and the search goes on behind each match.

**Theorem (`source_read_by_lines`).** Reading line by line and searching the whole text give the same
names, and these are the names of the lines of the grammar. No match extends over two lines.

The ways to match a pattern in one line are the lines of the grammar, except that in an import of
Kotlin a shorter part of the name would do as well, because anything may follow it. There the name is
the longest one since a repetition takes as many characters as it can.
-/

namespace DependencyLint

open Source

namespace Pattern

/-! ## The patterns -/

def word (w : List Char) : Pattern := w.foldr (fun x p => seq (one (· == x)) p) empty

def blanks : Pattern := many isBlankChar

def keyword (w : String) : Pattern := seq (word w.toList) (seq (one isBlankChar) blanks)

/-- A keyword, with or without blanks in front of it. -/
def lead (w : String) : Pattern := seq blanks (keyword w)

/-- The name is what is captured. -/
def name : Pattern := group (seq (one isNameChar) (many isNameChar))

def optionally (x : Char) : Pattern := optional (one (· == x))

/-- Anything in the line but a carriage return, which may come last. -/
def anything : Pattern := seq (many fun x => x != '\r' && x != '\n') (optionally '\r')

/-- Nothing but blanks, a semicolon and a carriage return. -/
def nothing : Pattern := seq blanks (seq (optionally ';') (seq blanks (optionally '\r')))

def terminator : Pattern := seq blanks (one (· == ';'))

/-- A keyword and a name, with something in front of the name and behind it. -/
def entry (w : String) (front back : Pattern) : Pattern := seq (lead w) (seq front (seq name back))

def ofImports : Language → Pattern
  | .kotlin => entry "import" empty (seq anything lineEnd)
  | .java => entry "import" (optional (keyword "static")) (seq (optionally '*') terminator)

def ofPackages : Language → Pattern
  | .kotlin => entry "package" empty (seq nothing lineEnd)
  | .java => entry "package" empty terminator

theorem avoidsBreaks_ofImports (language : Language) : (ofImports language).avoidsBreaks = true := by
  cases language <;> decide

theorem avoidsBreaks_ofPackages (language : Language) :
    (ofPackages language).avoidsBreaks = true := by
  cases language <;> decide

/-! ## What a pattern without captures reads -/

/-- From `c` to `e` the text goes on with `cs`, and nothing is captured. -/
def Passes (c e : Cursor) (cs : List Char) : Prop := c.rest = cs ++ e.rest ∧ e.captured = c.captured

theorem passes_nil_iff {c e : Cursor} : Passes c e [] ↔ e = c := by
  constructor
  · rintro ⟨hrest, hcaptured⟩
    cases c
    cases e
    simp_all
  · rintro rfl
    exact ⟨rfl, rfl⟩

/-- The pattern matches exactly the texts in `P`, and captures nothing. -/
def Reads (p : Pattern) (P : List Char → Prop) : Prop :=
  ∀ c e, p.Matches c e ↔ ∃ cs, P cs ∧ Passes c e cs

variable {p q : Pattern} {P Q : List Char → Prop}

theorem Reads.congr (h : Reads p P) (hPQ : ∀ cs, P cs ↔ Q cs) : Reads p Q := by
  intro c e
  rw [h c e]
  simp only [hPQ]

theorem reads_empty : Reads empty (· = []) := by
  intro c e
  simp only [exists_eq_left, passes_nil_iff]
  rfl

theorem reads_one (isOne : Char → Bool) :
    Reads (one isOne) fun cs => ∃ x, isOne x = true ∧ cs = [x] := by
  intro c e
  constructor
  · rintro ⟨x, hx, hrest, hcaptured⟩
    exact ⟨[x], ⟨x, hx, rfl⟩, hrest, hcaptured⟩
  · rintro ⟨_, ⟨x, hx, rfl⟩, hrest, hcaptured⟩
    exact ⟨x, hx, hrest, hcaptured⟩

theorem reads_many (isOne : Char → Bool) : Reads (many isOne) fun cs => ∀ x ∈ cs, isOne x = true :=
  fun _ _ => Iff.rfl

theorem Reads.optional (h : Reads p P) : Reads (optional p) fun cs => cs = [] ∨ P cs := by
  intro c e
  simp only [or_and_right, exists_or, exists_eq_left, passes_nil_iff, ← h c e]
  exact or_comm

theorem Reads.seq (hp : Reads p P) (hq : Reads q Q) :
    Reads (seq p q) fun cs => ∃ u v, P u ∧ Q v ∧ cs = u ++ v := by
  intro c e
  constructor
  · rintro ⟨d, hd, he⟩
    obtain ⟨u, hu, hrest, hcaptured⟩ := (hp c d).1 hd
    obtain ⟨v, hv, hrest', hcaptured'⟩ := (hq d e).1 he
    refine ⟨u ++ v, ⟨u, v, hu, hv, rfl⟩, ?_, hcaptured'.trans hcaptured⟩
    rw [hrest, hrest', List.append_assoc]
  · rintro ⟨_, ⟨u, v, hu, hv, rfl⟩, hrest, hcaptured⟩
    rw [List.append_assoc] at hrest
    exact ⟨⟨v ++ e.rest, c.captured⟩, (hp _ _).2 ⟨u, hu, hrest, rfl⟩,
      (hq _ _).2 ⟨v, hv, rfl, hcaptured⟩⟩

theorem reads_char (x : Char) : Reads (one (· == x)) (· = [x]) :=
  (reads_one _).congr fun cs => by simp

theorem reads_word (w : List Char) : Reads (word w) (· = w) := by
  induction w with
  | nil => exact reads_empty
  | cons x w ih => exact ((reads_char x).seq ih).congr fun cs => by simp

theorem reads_blanks : Reads blanks AreBlank :=
  (reads_many _).congr fun _ => areBlank_iff.symm

/-- One character of a class, and as many more as possible. -/
theorem reads_some (isOne : Char → Bool) :
    Reads (seq (one isOne) (many isOne)) fun cs => cs ≠ [] ∧ ∀ x ∈ cs, isOne x = true := by
  refine ((reads_one isOne).seq (reads_many isOne)).congr fun cs => ?_
  cases cs with
  | nil => simp
  | cons x cs => simp

theorem reads_keyword (w : String) : Reads (keyword w) (IsKeyword w) := by
  refine ((reads_word w.toList).seq (reads_some isBlankChar)).congr fun cs => ?_
  simp only [IsKeyword, areBlank_iff, exists_and_left, exists_eq_left, and_assoc]

theorem reads_lead (w : String) :
    Reads (lead w) fun cs => ∃ indent keyword, AreBlank indent ∧ IsKeyword w keyword ∧
      cs = indent ++ keyword :=
  reads_blanks.seq (reads_keyword w)

theorem reads_optionally (x : Char) : Reads (optionally x) (IsOptional x) :=
  (reads_char x).optional

theorem reads_nothing : Reads nothing NothingFollows := by
  refine (reads_blanks.seq ((reads_optionally ';').seq
    (reads_blanks.seq (reads_optionally '\r')))).congr fun cs => ?_
  constructor
  · rintro ⟨u, _, hu, ⟨v, _, hv, ⟨w, x, hw, hx, rfl⟩, rfl⟩, rfl⟩
    exact ⟨u, v, w, x, hu, hv, hw, hx, rfl⟩
  · rintro ⟨u, v, w, x, hu, hv, hw, hx, rfl⟩
    exact ⟨u, _, hu, ⟨v, _, hv, ⟨w, x, hw, hx, rfl⟩, rfl⟩, rfl⟩

/-! ## What a pattern with a name reads -/

theorem matches_name_iff {c e : Cursor} :
    name.Matches c e ↔
      ∃ cs, cs ≠ [] ∧ (∀ x ∈ cs, InName x) ∧ c.rest = cs ++ e.rest ∧ e.captured = some cs := by
  constructor
  · rintro ⟨d, cs, hd, hcs, rfl⟩
    obtain ⟨cs', ⟨hne, hchars⟩, hrest, -⟩ := (reads_some isNameChar c d).1 hd
    have heq : cs = cs' := List.append_cancel_right (hcs.symm.trans hrest)
    subst heq
    exact ⟨cs, hne, fun x hx => isNameChar_iff.1 (hchars x hx), hcs, rfl⟩
  · rintro ⟨cs, hne, hchars, hrest, hcaptured⟩
    have hsome : ∀ x ∈ cs, isNameChar x = true := fun x hx => isNameChar_iff.2 (hchars x hx)
    refine ⟨⟨e.rest, c.captured⟩, cs, ?_, hrest, ?_⟩
    · exact (reads_some isNameChar _ _).2 ⟨cs, ⟨hne, hsome⟩, hrest, rfl⟩
    · rw [← hcaptured]

theorem matches_lead_iff {w : String} {c e : Cursor} :
    (lead w).Matches c e ↔ IsStatement w c.rest e.rest ∧ e.captured = c.captured := by
  rw [reads_lead w c e]
  constructor
  · rintro ⟨_, ⟨indent, keyword, hindent, hkeyword, rfl⟩, hrest, hcaptured⟩
    exact ⟨⟨indent, keyword, hindent, hkeyword, hrest⟩, hcaptured⟩
  · rintro ⟨⟨indent, keyword, hindent, hkeyword, hrest⟩, hcaptured⟩
    exact ⟨_, ⟨indent, keyword, hindent, hkeyword, rfl⟩, hrest, hcaptured⟩

theorem matches_entry_iff {w : String} {front back : Pattern} {F : List Char → Prop}
    (hfront : Reads front F) {line : List Char} {e : Cursor} :
    (entry w front back).Matches ⟨line, none⟩ e ↔
      ∃ modifier name rest, IsStatement w line (modifier ++ (name ++ rest)) ∧ F modifier ∧
        name ≠ [] ∧ (∀ x ∈ name, InName x) ∧ back.Matches ⟨rest, some name⟩ e := by
  constructor
  · rintro ⟨c, hc, d, hd, ⟨rest, captured⟩, hname, he⟩
    obtain ⟨hline, -⟩ := matches_lead_iff.1 hc
    obtain ⟨modifier, hmodifier, hrest, -⟩ := (hfront c d).1 hd
    obtain ⟨name, hne, hchars, hrest', hcaptured⟩ := matches_name_iff.1 hname
    cases hcaptured
    rw [hrest, hrest'] at hline
    exact ⟨modifier, name, rest, hline, hmodifier, hne, hchars, he⟩
  · rintro ⟨modifier, name, rest, hline, hmodifier, hne, hchars, he⟩
    refine ⟨⟨_, none⟩, matches_lead_iff.2 ⟨hline, rfl⟩, ⟨name ++ rest, none⟩, ?_,
      ⟨rest, some name⟩, ?_, he⟩
    · exact (hfront _ _).2 ⟨modifier, hmodifier, rfl, rfl⟩
    · exact matches_name_iff.2 ⟨name, hne, hchars, rfl, rfl⟩

/-- In a line, the pattern matches exactly in front of the texts in `B`, and captures nothing. -/
structure Accepts (p : Pattern) (B : List Char → Prop) : Prop where
  sound : ∀ c e, '\n' ∉ c.rest → p.Matches c e → B c.rest ∧ e.captured = c.captured
  complete : ∀ c, '\n' ∉ c.rest → B c.rest → ∃ e, p.Matches c e

/-- What is read may be followed by anything. -/
theorem Reads.accepts (h : Reads p P) {B : List Char → Prop}
    (hB : ∀ text, B text ↔ ∃ cs rest, P cs ∧ text = cs ++ rest) : Accepts p B where
  sound := by
    intro c e _ he
    obtain ⟨cs, hcs, hrest, hcaptured⟩ := (h c e).1 he
    exact ⟨(hB _).2 ⟨cs, e.rest, hcs, hrest⟩, hcaptured⟩
  complete := by
    intro c _ hc
    obtain ⟨cs, rest, hcs, hrest⟩ := (hB _).1 hc
    exact ⟨⟨rest, c.captured⟩, (h _ _).2 ⟨cs, hcs, hrest, rfl⟩⟩

/-- What is read has to be the rest of the line. -/
theorem Reads.accepts_lineEnd (h : Reads p P) {B : List Char → Prop}
    (hB : ∀ text, '\n' ∉ text → (B text ↔ P text)) : Accepts (Pattern.seq p lineEnd) B where
  sound := by
    rintro c e hc ⟨d, hd, hend, rfl⟩
    obtain ⟨cs, hcs, hrest, hcaptured⟩ := (h c e).1 hd
    have hnil : e.rest = [] := by
      rw [hrest, List.mem_append, not_or] at hc
      cases hd : e.rest with
      | nil => rfl
      | cons x rest =>
        rw [hd] at hc
        simp_all [Cursor.atLineEnd]
    rw [hnil, List.append_nil] at hrest
    rw [hB _ hc, hrest]
    exact ⟨hcs, hcaptured⟩
  complete := by
    intro c hline hc
    refine ⟨⟨[], c.captured⟩, ⟨[], c.captured⟩, ?_, rfl, rfl⟩
    exact (h _ _).2 ⟨c.rest, (hB _ hline).1 hc, (List.append_nil _).symm, rfl⟩

theorem accepts_terminator : Accepts terminator SemicolonFollows := by
  refine (reads_blanks.seq (reads_char ';')).accepts fun text => ?_
  constructor
  · rintro ⟨gap, rest, hgap, rfl⟩
    exact ⟨gap ++ [';'], rest, ⟨gap, [';'], hgap, rfl, rfl⟩, by simp⟩
  · rintro ⟨_, rest, ⟨gap, _, hgap, rfl, rfl⟩, rfl⟩
    exact ⟨gap, rest, hgap, by simp⟩

theorem accepts_star : Accepts (Pattern.seq (optionally '*') terminator) StarFollows := by
  refine ((reads_optionally '*').seq (reads_blanks.seq (reads_char ';'))).accepts fun text => ?_
  constructor
  · rintro ⟨star, _, hstar, ⟨gap, rest, hgap, rfl⟩, rfl⟩
    exact ⟨star ++ (gap ++ [';']), rest, ⟨star, _, hstar, ⟨gap, [';'], hgap, rfl, rfl⟩, rfl⟩, by simp⟩
  · rintro ⟨_, rest, ⟨star, _, hstar, ⟨gap, _, hgap, rfl, rfl⟩, rfl⟩, rfl⟩
    exact ⟨star, gap ++ ';' :: rest, hstar, ⟨gap, rest, hgap, rfl⟩, by simp⟩

theorem accepts_nothing : Accepts (Pattern.seq nothing lineEnd) NothingFollows :=
  reads_nothing.accepts_lineEnd fun _ _ => Iff.rfl

theorem accepts_anything : Accepts (Pattern.seq anything lineEnd) AnythingFollows := by
  refine ((reads_many _).seq (reads_optionally '\r')).accepts_lineEnd fun text htext => ?_
  constructor
  · rintro ⟨rest, ending, hrest, hend, rfl⟩
    rw [List.mem_append, not_or] at htext
    refine ⟨rest, ending, fun x hx => ?_, hend, rfl⟩
    have hr : x ≠ '\r' := fun h => hrest (h ▸ hx)
    have hn : x ≠ '\n' := fun h => htext.1 (h ▸ hx)
    simp [hr, hn]
  · rintro ⟨rest, ending, hrest, hend, rfl⟩
    refine ⟨rest, ending, fun hmem => ?_, hend, rfl⟩
    simpa using hrest _ hmem

/-! ## The names that are found -/

/-- In this line, the pattern finds exactly the name that `L` tells. -/
structure Finds (p : Pattern) (line : List Char) (L : List Char → Prop) : Prop where
  sound : ∀ e, p.tryMatch some ⟨line, none⟩ = some e → ∃ name, e.captured = some name ∧ L name
  complete : ∀ name, L name → ∃ e, p.Matches ⟨line, none⟩ e

theorem Finds.map_captured {line : List Char} {L : List Char → Prop} (h : Finds p line L)
    {read : Option (List Char)} (hread : ∀ name, read = some name ↔ L name) :
    (p.matchAt line).map (·.captured) = read.map some := by
  rw [matchAt, Option.map_map]
  cases hmatch : p.tryMatch some ⟨line, none⟩ with
  | none =>
    cases hname : read with
    | none => rfl
    | some name =>
      obtain ⟨e, he⟩ := h.complete name ((hread name).1 hname)
      have hsome := he.tryMatch_isSome (k := some) rfl
      rw [hmatch] at hsome
      cases hsome
  | some e =>
    obtain ⟨name, hname, hL⟩ := h.sound e hmatch
    rw [(hread name).2 hL]
    exact congrArg some hname

section Entry

variable {w : String} {front back : Pattern} {F B : List Char → Prop} {line : List Char}

theorem not_mem_body (hline : '\n' ∉ line) {body : List Char} (h : IsStatement w line body) :
    '\n' ∉ body := by
  obtain ⟨indent, keyword, -, -, rfl⟩ := h
  rw [List.mem_append, not_or] at hline
  exact hline.2

theorem not_mem_rest (hline : '\n' ∉ line) {modifier name rest : List Char}
    (h : IsStatement w line (modifier ++ (name ++ rest))) : '\n' ∉ rest := by
  have hbody := not_mem_body hline h
  simp only [List.mem_append, not_or] at hbody
  exact hbody.2.2

theorem exists_matches_entry (hfront : Reads front F) (hback : Accepts back B) (hline : '\n' ∉ line)
    {name : List Char} (h : NameLine w F B line name) :
    ∃ e, (entry w front back).Matches ⟨line, none⟩ e := by
  obtain ⟨modifier, rest, hstatement, hmodifier, hname, hrest⟩ := h
  obtain ⟨e, he⟩ := hback.complete ⟨rest, some name⟩ (not_mem_rest hline hstatement) hrest
  exact ⟨e, (matches_entry_iff hfront).2
    ⟨modifier, name, rest, hstatement, hmodifier, hname.nonempty, hname.inName, he⟩⟩

/-- Where what follows a name cannot be part of it, every way to match captures the whole name. -/
theorem finds_entry (hfront : Reads front F) (hback : Accepts back B)
    (hends : ∀ rest, B rest → ∀ x ∈ rest.head?, ¬InName x) (hline : '\n' ∉ line) :
    Finds (entry w front back) line (NameLine w F B line) where
  sound := by
    intro e h
    obtain ⟨_, hmatches, hsome⟩ := exists_matches h
    cases hsome
    obtain ⟨modifier, name, rest, hstatement, hmodifier, hne, hchars, he⟩ :=
      (matches_entry_iff hfront).1 hmatches
    obtain ⟨hB, hcaptured⟩ := hback.sound _ _ (not_mem_rest hline hstatement) he
    exact ⟨name, hcaptured, modifier, rest, hstatement, hmodifier, ⟨hne, hchars, hends rest hB⟩, hB⟩
  complete := fun _ => exists_matches_entry hfront hback hline

end Entry

/-! ## The longest name -/

/-- If the pattern matches behind the longest name, this is the name that is captured. -/
theorem tryMatch_name {α : Type} {k : Cursor → Option α} {c : Cursor} {name rest : List Char}
    (hname : IsName name rest) (hc : c.rest = name ++ rest) (hk : (k ⟨rest, some name⟩).isSome) :
    Pattern.name.tryMatch k c = k ⟨rest, some name⟩ := by
  obtain ⟨x, cs, rfl⟩ := List.exists_cons_of_ne_nil hname.nonempty
  have hchars : ∀ y ∈ x :: cs, isNameChar y = true := fun y hy => isNameChar_iff.2 (hname.inName y hy)
  rw [List.forall_mem_cons] at hchars
  have hlongest : (cs ++ rest).dropWhile isNameChar = rest :=
    hname.stopsAt_rest.dropWhile_append hchars.2
  obtain ⟨others, hplaces⟩ := exists_places_eq_cons isNameChar (cs ++ rest)
  have hupTo : c.upTo ⟨rest, c.captured⟩ = x :: cs := Cursor.upTo_eq hc
  rw [Pattern.name, tryMatch, tryMatch, tryMatch, hc, List.cons_append]
  simp only [hchars.1, if_true, tryMatch, hplaces, hlongest]
  rw [List.findSome?_cons_of_isSome, hupTo]
  rwa [hupTo]

theorem not_mem_of_inName {name : List Char} (h : ∀ x ∈ name, InName x) : '\r' ∉ name := by
  intro hmem
  exact absurd (h _ hmem) (by decide)

/-- A part of a name in front is a part of the longest one. -/
theorem exists_isName {part : List Char} (hne : part ≠ []) (hpart : ∀ x ∈ part, InName x)
    (rest : List Char) : ∃ name rest', part ++ rest = name ++ rest' ∧ IsName name rest' := by
  have htake : (part ++ rest).takeWhile isNameChar ≠ [] := by
    rw [List.takeWhile_append_of_pos fun x hx => isNameChar_iff.2 (hpart x hx)]
    exact List.append_ne_nil_of_left_ne_nil hne _
  exact ⟨_, _, List.takeWhile_append_dropWhile.symm, isName_takeWhile htake⟩

theorem finds_anything {w : String} {line : List Char} (hline : '\n' ∉ line) :
    Finds (entry w empty (seq anything lineEnd)) line (NameLine w (· = []) AnythingFollows line) where
  sound := by
    intro e h
    obtain ⟨c, hlead, h⟩ := exists_matches (p := lead w) h
    obtain ⟨hstatement, -⟩ := matches_lead_iff.1 hlead
    have hc : '\n' ∉ c.rest := not_mem_body hline hstatement
    -- Some part of the name is captured, and what follows it goes on to the end of the line.
    obtain ⟨_, ⟨c', hempty, d, hd, he⟩, -⟩ := exists_matches h
    rw [show c' = c from hempty] at hd
    obtain ⟨part, hne, hpart, hrest, -⟩ := matches_name_iff.1 hd
    have hfollows : AnythingFollows c.rest := by
      rw [hrest, anythingFollows_append_iff (not_mem_of_inName hpart)]
      refine (accepts_anything.sound d _ ?_ he).1
      rw [hrest, List.mem_append, not_or] at hc
      exact hc.2
    -- So does what follows the longest name, which is therefore captured first.
    obtain ⟨name, rest, hbody, hname⟩ := exists_isName hne hpart d.rest
    rw [← hrest] at hbody
    rw [hbody, List.mem_append, not_or] at hc
    rw [hbody, anythingFollows_append_iff (not_mem_of_inName hname.inName)] at hfollows
    obtain ⟨e', he'⟩ := accepts_anything.complete ⟨rest, some name⟩ hc.2 hfollows
    have hfirst := tryMatch_name hname hbody (he'.tryMatch_isSome (k := some) rfl)
    obtain ⟨_, hlast, hsome⟩ := exists_matches (hfirst.symm.trans h)
    cases hsome
    refine ⟨name, (accepts_anything.sound _ _ hc.2 hlast).2, [], rest, ?_, rfl, hname, hfollows⟩
    rwa [List.nil_append, ← hbody]
  complete := fun _ => exists_matches_entry reads_empty accepts_anything hline

theorem finds_ofImports (language : Language) {line : List Char} (hline : '\n' ∉ line) :
    Finds (ofImports language) line (ImportLine language line) := by
  cases language with
  | kotlin => exact finds_anything hline
  | java =>
    apply finds_entry (reads_keyword "static").optional accepts_star ?_ hline
    exact fun _ => not_inName_starFollows

theorem finds_ofPackages (language : Language) {line : List Char} (hline : '\n' ∉ line) :
    Finds (ofPackages language) line (PackageLine language line) := by
  cases language with
  | kotlin =>
    apply finds_entry reads_empty accepts_nothing ?_ hline
    exact fun _ => not_inName_nothingFollows
  | java =>
    apply finds_entry reads_empty accepts_terminator ?_ hline
    exact fun _ => not_inName_semicolonFollows

/-! ## Whole texts -/

/-- What the search captures is what is read from the lines. -/
theorem map_captured_findAll (hp : p.avoidsBreaks = true) {L : List Char → List Char → Prop}
    {read : List Char → Option (List Char)} (hread : ∀ line name, read line = some name ↔ L line name)
    (hfinds : ∀ line, '\n' ∉ line → Finds p line (L line)) (text : List Char) :
    (p.findAll true text).map (·.captured) = ((text.splitOn '\n').filterMap read).map some := by
  rw [findAll_eq_lines hp, List.map_filterMap, List.map_filterMap]
  apply List.filterMap_congr
  intro line hline
  exact (hfinds line (Text.not_mem_of_mem_splitOn hline)).map_captured (hread line)

theorem not_mem_text_of_mem_findAll (hp : p.avoidsBreaks = true) {text : List Char} {found : Match}
    (h : found ∈ p.findAll true text) : '\n' ∉ found.text := by
  rw [findAll_eq_lines hp, List.mem_filterMap] at h
  obtain ⟨line, -, hfound⟩ := h
  exact (eq_append_of_matchAt hp hfound).1

end Pattern

/-- **Reading by lines, by grammar and by search agree.** In every text, the imports are the names of
the lines of the grammar without repetitions, in the order of their first lines, and the package is
the first name of a package line. Searching the whole text finds the same names, one for each line
that has one, and nothing that is found extends over two lines. -/
theorem source_read_by_lines (language : Language) (text : String) :
    let lines := text.toList.splitOn '\n'
    (∀ line name, Source.import? language line = some name ↔ ImportLine language line name) ∧
    (∀ line name, Source.package? language line = some name ↔ PackageLine language line name) ∧
    Source.imports language text =
      ((lines.filterMap (Source.import? language)).map String.ofList).eraseDups ∧
    Source.package language text =
      ((lines.findSome? (Source.package? language)).map String.ofList).getD "" ∧
    ((Pattern.ofImports language).findAll true text.toList).map (·.captured) =
      (lines.filterMap (Source.import? language)).map some ∧
    ((Pattern.ofPackages language).findAll true text.toList).map (·.captured) =
      (lines.filterMap (Source.package? language)).map some ∧
    ∀ p ∈ [Pattern.ofImports language, Pattern.ofPackages language],
      ∀ found ∈ p.findAll true text.toList, '\n' ∉ found.text := by
  intro lines
  have hlines : Source.lines text.toList = lines := lines_eq_splitOn text.toList
  refine ⟨fun _ _ => import?_eq_some_iff, fun _ _ => package?_eq_some_iff, ?_, ?_, ?_, ?_, ?_⟩
  · rw [imports, hlines, List.map_filterMap]
  · rw [package, hlines]
    cases lines.findSome? (package? language) <;> rfl
  · exact Pattern.map_captured_findAll (Pattern.avoidsBreaks_ofImports language)
      (fun _ _ => import?_eq_some_iff) (fun _ => Pattern.finds_ofImports language) text.toList
  · exact Pattern.map_captured_findAll (Pattern.avoidsBreaks_ofPackages language)
      (fun _ _ => package?_eq_some_iff) (fun _ => Pattern.finds_ofPackages language) text.toList
  · intro p hp found hfound
    rcases List.mem_pair.1 hp with rfl | rfl
    · exact Pattern.not_mem_text_of_mem_findAll (Pattern.avoidsBreaks_ofImports language) hfound
    · exact Pattern.not_mem_text_of_mem_findAll (Pattern.avoidsBreaks_ofPackages language) hfound

end DependencyLint
