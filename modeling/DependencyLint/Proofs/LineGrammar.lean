import DependencyLint.Proofs.Names
import DependencyLint.Source
import Mathlib.Data.List.TakeWhile

/-!
# The grammar of import and package lines

What an import line and a package line are, told as a grammar: a line is cut into blanks, a keyword,
a name and what may follow the name in its language. The readers of lines accept exactly the lines of
the grammar and give their names (`import?_eq_some_iff`, `package?_eq_some_iff`). In particular a
line has at most one name, although `static` can be read in two ways.
-/

namespace DependencyLint

namespace Source

/-! ## Runs of characters -/

/-- The text does not go on with a character of the class. -/
def StopsAt (isOne : Char → Bool) (rest : List Char) : Prop := ∀ c ∈ rest.head?, isOne c = false

section Runs

variable {isOne : Char → Bool} {front rest : List Char}

theorem stopsAt_dropWhile (isOne : Char → Bool) (text : List Char) :
    StopsAt isOne (text.dropWhile isOne) := by
  intro c hc
  have h := List.head?_dropWhile_not isOne text
  rw [Option.mem_def.1 hc] at h
  simpa using h

theorem StopsAt.dropWhile_eq (h : StopsAt isOne rest) : rest.dropWhile isOne = rest := by
  cases rest with
  | nil => rfl
  | cons c rest => rw [List.dropWhile_cons, h c rfl, if_neg Bool.false_ne_true]

theorem StopsAt.dropWhile_append (h : StopsAt isOne rest) (hfront : ∀ c ∈ front, isOne c = true) :
    (front ++ rest).dropWhile isOne = rest := by
  rw [List.dropWhile_append_of_pos hfront, h.dropWhile_eq]

theorem StopsAt.takeWhile_append (h : StopsAt isOne rest) (hfront : ∀ c ∈ front, isOne c = true) :
    (front ++ rest).takeWhile isOne = front := by
  rw [List.takeWhile_append_of_pos hfront]
  cases rest with
  | nil => rw [List.takeWhile_nil, List.append_nil]
  | cons c rest =>
    rw [List.takeWhile_cons, h c rfl, if_neg Bool.false_ne_true, List.append_nil]

end Runs

/-! ## The grammar -/

def AreBlank (cs : List Char) : Prop := ∀ c ∈ cs, c = ' ' ∨ c = '\t'

def IsOptional (c : Char) (cs : List Char) : Prop := cs = [] ∨ cs = [c]

def InName (c : Char) : Prop :=
  ('A' ≤ c ∧ c ≤ 'Z') ∨ ('a' ≤ c ∧ c ≤ 'z') ∨ ('0' ≤ c ∧ c ≤ '9') ∨ c = '_' ∨ c = '.'

/-- A name, as long as possible, in front of `rest`. -/
structure IsName (name rest : List Char) : Prop where
  nonempty : name ≠ []
  inName : ∀ c ∈ name, InName c
  maximal : ∀ c ∈ rest.head?, ¬InName c

/-- A word and at least one blank. -/
def IsKeyword (word : String) (cs : List Char) : Prop :=
  ∃ gap, gap ≠ [] ∧ AreBlank gap ∧ cs = word.toList ++ gap

/-- A line that starts with a keyword, blanks aside; `body` is what follows. -/
def IsStatement (word : String) (line body : List Char) : Prop :=
  ∃ indent keyword, AreBlank indent ∧ IsKeyword word keyword ∧ line = indent ++ keyword ++ body

/-- A line with a keyword, what `front` allows in front of the name, the name, and what `back` allows
behind it. -/
def NameLine (word : String) (front back : List Char → Prop) (line name : List Char) : Prop :=
  ∃ modifier rest, IsStatement word line (modifier ++ (name ++ rest)) ∧ front modifier ∧
    IsName name rest ∧ back rest

/-- Anything may follow, and a carriage return only at the end. -/
def AnythingFollows (cs : List Char) : Prop :=
  ∃ rest ending, '\r' ∉ rest ∧ IsOptional '\r' ending ∧ cs = rest ++ ending

/-- A semicolon follows, and anything behind it. -/
def SemicolonFollows (cs : List Char) : Prop :=
  ∃ blanks rest, AreBlank blanks ∧ cs = blanks ++ ';' :: rest

/-- A star may stand in front of the semicolon. -/
def StarFollows (cs : List Char) : Prop :=
  ∃ star rest, IsOptional '*' star ∧ SemicolonFollows rest ∧ cs = star ++ rest

/-- Only blanks and a semicolon follow, and a carriage return at the end. -/
def NothingFollows (cs : List Char) : Prop :=
  ∃ blanks semicolon blanks' ending, AreBlank blanks ∧ IsOptional ';' semicolon ∧ AreBlank blanks' ∧
    IsOptional '\r' ending ∧ cs = blanks ++ (semicolon ++ (blanks' ++ ending))

def ImportLine : Language → List Char → List Char → Prop
  | .kotlin => NameLine "import" (· = []) AnythingFollows
  | .java => NameLine "import" (fun cs => cs = [] ∨ IsKeyword "static" cs) StarFollows

def PackageLine : Language → List Char → List Char → Prop
  | .kotlin => NameLine "package" (· = []) NothingFollows
  | .java => NameLine "package" (· = []) SemicolonFollows

/-! ## Reading keywords and names -/

theorem isBlankChar_iff {c : Char} : isBlankChar c = true ↔ c = ' ' ∨ c = '\t' := by
  simp [isBlankChar]

theorem isNameChar_iff {c : Char} : isNameChar c = true ↔ InName c := by
  have hupper : c.isUpper = true ↔ 'A' ≤ c ∧ c ≤ 'Z' := decide_eq_true_iff
  have hlower : c.isLower = true ↔ 'a' ≤ c ∧ c ≤ 'z' :=
    Bool.and_eq_true_iff.trans (and_congr decide_eq_true_iff decide_eq_true_iff)
  have hdigit : c.isDigit = true ↔ '0' ≤ c ∧ c ≤ '9' :=
    Bool.and_eq_true_iff.trans (and_congr decide_eq_true_iff decide_eq_true_iff)
  have hname : isNameChar c = (c.isUpper || c.isLower || c.isDigit || c = '_' || c = '.') := rfl
  rw [hname, InName]
  simp only [Bool.or_eq_true, hupper, hlower, hdigit, decide_eq_true_eq, or_assoc]

theorem areBlank_iff {cs : List Char} : AreBlank cs ↔ ∀ c ∈ cs, isBlankChar c = true := by
  simp only [AreBlank, isBlankChar_iff]

instance (c : Char) : Decidable (InName c) := decidable_of_iff (isNameChar c = true) isNameChar_iff

theorem inName_of_all {cs : List Char} (h : cs.all isNameChar = true) : ∀ c ∈ cs, InName c :=
  fun c hc => isNameChar_iff.1 (List.all_eq_true.1 h c hc)

theorem not_inName_of_isBlankChar {c : Char} (h : isBlankChar c = true) : ¬InName c := by
  rcases isBlankChar_iff.1 h with rfl | rfl <;> decide

/-- What starts with a name does not start with anything else. -/
theorem IsName.stopsAt {isOne : Char → Bool} {name rest : List Char} (h : IsName name rest)
    (hother : ∀ c, isOne c = true → ¬InName c) (tail : List Char) : StopsAt isOne (name ++ tail) := by
  obtain ⟨c, name, rfl⟩ := List.exists_cons_of_ne_nil h.nonempty
  intro d hd
  have hdc : d = c := (Option.some.inj hd).symm
  rw [hdc, ← Bool.not_eq_true]
  exact fun hc => hother c hc (h.inName c List.mem_cons_self)

theorem IsName.stopsAt_rest {name rest : List Char} (h : IsName name rest) :
    StopsAt isNameChar rest := by
  intro c hc
  rw [← Bool.not_eq_true, isNameChar_iff]
  exact h.maximal c hc

theorem isName_takeWhile {text : List Char} (h : text.takeWhile isNameChar ≠ []) :
    IsName (text.takeWhile isNameChar) (text.dropWhile isNameChar) where
  nonempty := h
  inName := fun _ hc => isNameChar_iff.1 (List.mem_takeWhile_imp hc)
  maximal := by
    intro c hc hname
    have hstops := stopsAt_dropWhile isNameChar text c hc
    rw [isNameChar_iff.2 hname] at hstops
    cases hstops

theorem afterWord?_eq_some_iff {word line rest : List Char} :
    afterWord? word line = some rest ↔ line = word ++ rest := by
  induction word generalizing line with
  | nil => simp [afterWord?]
  | cons w word ih =>
    cases line with
    | nil => simp [afterWord?]
    | cons c line =>
      rw [afterWord?]
      split_ifs with h
      · simp [ih, h]
      · simp [Ne.symm h]

theorem afterKeyword?_eq_some_iff {word : String} {line body : List Char} :
    afterKeyword? word line = some body ↔
      (∃ keyword, IsKeyword word keyword ∧ line = keyword ++ body) ∧ StopsAt isBlankChar body := by
  constructor
  · intro h
    rw [afterKeyword?] at h
    split at h
    · rename_i c rest hword
      split_ifs at h with hc
      cases h
      refine ⟨⟨word.toList ++ c :: rest.takeWhile isBlankChar, ⟨_, by simp, ?_, rfl⟩, ?_⟩,
        stopsAt_dropWhile isBlankChar rest⟩
      · rw [areBlank_iff, List.forall_mem_cons]
        exact ⟨hc, fun _ => List.mem_takeWhile_imp⟩
      · rw [afterWord?_eq_some_iff.1 hword]
        simp
    · cases h
  · rintro ⟨⟨_, ⟨gap, hne, hgap, rfl⟩, rfl⟩, hstops⟩
    obtain ⟨c, gap, rfl⟩ := List.exists_cons_of_ne_nil hne
    rw [areBlank_iff, List.forall_mem_cons] at hgap
    have hword : afterWord? word.toList (word.toList ++ c :: gap ++ body) =
        some (c :: (gap ++ body)) := by
      simp [afterWord?_eq_some_iff]
    rw [afterKeyword?, hword]
    simp only [hgap.1, if_true, hstops.dropWhile_append hgap.2]

theorem splitName?_eq_some_iff {line name rest : List Char} :
    splitName? line = some (name, rest) ↔ line = name ++ rest ∧ IsName name rest := by
  constructor
  · intro h
    rw [splitName?] at h
    split at h
    · cases h
    · rename_i hne
      cases h
      exact ⟨List.takeWhile_append_dropWhile.symm, isName_takeWhile hne⟩
  · rintro ⟨rfl, h⟩
    have hchars : ∀ c ∈ name, isNameChar c = true := fun c hc => isNameChar_iff.2 (h.inName c hc)
    have hstops := h.stopsAt_rest
    rw [splitName?, hstops.takeWhile_append hchars, hstops.dropWhile_append hchars]
    split
    · exact absurd rfl h.nonempty
    · rfl

/-- Blanks before a keyword are skipped, and so are those behind it. -/
theorem afterKeyword?_dropWhile_iff (word : String)
    (hword : word.toList.head?.map isBlankChar = some false) {line body : List Char} :
    afterKeyword? word (line.dropWhile isBlankChar) = some body ↔
      IsStatement word line body ∧ StopsAt isBlankChar body := by
  rw [afterKeyword?_eq_some_iff]
  refine and_congr_left fun _ => ⟨?_, ?_⟩
  · rintro ⟨keyword, hkeyword, h⟩
    refine ⟨line.takeWhile isBlankChar, keyword, ?_, hkeyword, ?_⟩
    · exact areBlank_iff.2 fun c => List.mem_takeWhile_imp
    · rw [List.append_assoc, ← h, List.takeWhile_append_dropWhile]
  · rintro ⟨indent, keyword, hindent, hkeyword, rfl⟩
    refine ⟨keyword, hkeyword, ?_⟩
    rw [List.append_assoc]
    refine StopsAt.dropWhile_append ?_ (areBlank_iff.1 hindent)
    obtain ⟨gap, -, -, rfl⟩ := hkeyword
    cases hw : word.toList with
    | nil => rw [hw] at hword; cases hword
    | cons w ws =>
      rw [hw] at hword
      intro c hc
      cases hc
      exact Option.some.inj hword

theorem statement?_eq_some_iff (word : String) (hword : word.toList.head?.map isBlankChar = some false)
    {line name rest : List Char} :
    statement? word line = some (name, rest) ↔
      IsStatement word line (name ++ rest) ∧ IsName name rest := by
  rw [statement?, Option.bind_eq_some_iff]
  simp only [afterKeyword?_dropWhile_iff word hword, splitName?_eq_some_iff]
  constructor
  · rintro ⟨body, ⟨hline, -⟩, rfl, hname⟩
    exact ⟨hline, hname⟩
  · rintro ⟨hline, hname⟩
    exact ⟨_, ⟨hline, hname.stopsAt (fun _ => not_inName_of_isBlankChar) rest⟩, rfl, hname⟩

/-! ## Reading what follows a name -/

theorem isLineEnd_iff {cs : List Char} : isLineEnd cs = true ↔ IsOptional '\r' cs := by
  rw [isLineEnd.eq_def, IsOptional]
  split <;> simp_all

/-- What does not start with the character is left alone. -/
theorem dropOne_append {c : Char} {opt rest : List Char} (hopt : IsOptional c opt)
    (hrest : ∀ d ∈ rest.head?, d ≠ c) : dropOne c (opt ++ rest) = rest := by
  rcases hopt with rfl | rfl
  · cases rest with
    | nil => rfl
    | cons d rest => rw [List.nil_append, dropOne, if_neg (hrest d rfl)]
  · rw [List.singleton_append, dropOne, if_pos rfl]

theorem exists_dropOne (c : Char) (rest : List Char) :
    ∃ opt, IsOptional c opt ∧ rest = opt ++ dropOne c rest := by
  cases rest with
  | nil => exact ⟨[], Or.inl rfl, rfl⟩
  | cons d rest =>
    rw [dropOne]
    split_ifs with h
    · exact ⟨[c], Or.inr rfl, by rw [h]; rfl⟩
    · exact ⟨[], Or.inl rfl, rfl⟩

theorem head?_append_of_blank {blanks rest : List Char} (hblanks : AreBlank blanks) {c : Char}
    (h : c ∈ (blanks ++ rest).head?) : (c = ' ' ∨ c = '\t') ∨ c ∈ rest.head? := by
  cases blanks with
  | nil => exact Or.inr h
  | cons d blanks =>
    cases h
    exact Or.inl (hblanks c List.mem_cons_self)

theorem not_inName_semicolonFollows {rest : List Char} (h : SemicolonFollows rest) :
    ∀ x ∈ rest.head?, ¬InName x := by
  obtain ⟨blanks, tail, hblanks, rfl⟩ := h
  intro x hx
  rcases head?_append_of_blank hblanks hx with (rfl | rfl) | hx
  · decide
  · decide
  · cases hx
    decide

theorem not_inName_starFollows {rest : List Char} (h : StarFollows rest) :
    ∀ x ∈ rest.head?, ¬InName x := by
  obtain ⟨star, rest, rfl | rfl, hrest, rfl⟩ := h
  · exact not_inName_semicolonFollows hrest
  · intro x hx
    cases hx
    decide

theorem not_inName_nothingFollows {rest : List Char} (h : NothingFollows rest) :
    ∀ x ∈ rest.head?, ¬InName x := by
  obtain ⟨blanks, semicolon, blanks', ending, hblanks, hsemicolon, hblanks', hend, rfl⟩ := h
  intro x hx
  rcases head?_append_of_blank hblanks hx with (rfl | rfl) | hx
  · decide
  · decide
  rcases hsemicolon with rfl | rfl
  · rcases head?_append_of_blank hblanks' hx with (rfl | rfl) | hx
    · decide
    · decide
    rcases hend with rfl | rfl
    · cases hx
    · cases hx
      decide
  · cases hx
    decide

theorem isLineEnd_dropWhile_iff {rest : List Char} :
    isLineEnd (rest.dropWhile (· ≠ '\r')) = true ↔ AnythingFollows rest := by
  rw [isLineEnd_iff]
  constructor
  · intro h
    refine ⟨rest.takeWhile (· ≠ '\r'), _, ?_, h, List.takeWhile_append_dropWhile.symm⟩
    intro hmem
    simpa using List.mem_takeWhile_imp hmem
  · rintro ⟨rest, ending, hrest, hend, rfl⟩
    have hchars : ∀ c ∈ rest, decide (c ≠ '\r') = true := by
      intro c hc
      exact decide_eq_true fun h => hrest (h ▸ hc)
    have hstops : StopsAt (fun c => decide (c ≠ '\r')) ending := by
      rcases hend with rfl | rfl <;> simp [StopsAt]
    rwa [hstops.dropWhile_append hchars]

/-- Characters in front do not matter. -/
theorem anythingFollows_append_iff {front rest : List Char} (hfront : '\r' ∉ front) :
    AnythingFollows (front ++ rest) ↔ AnythingFollows rest := by
  have hchars : ∀ c ∈ front, decide (c ≠ '\r') = true := by
    intro c hc
    exact decide_eq_true fun h => hfront (h ▸ hc)
  rw [← isLineEnd_dropWhile_iff, ← isLineEnd_dropWhile_iff, List.dropWhile_append_of_pos hchars]

theorem startsWithSemicolon_iff {rest : List Char} :
    startsWithSemicolon rest = true ↔ SemicolonFollows rest := by
  rw [startsWithSemicolon, decide_eq_true_iff]
  constructor
  · intro h
    obtain ⟨tail, htail⟩ := List.head?_eq_some_iff.1 h
    refine ⟨rest.takeWhile isBlankChar, tail, areBlank_iff.2 fun c => List.mem_takeWhile_imp, ?_⟩
    rw [← htail, List.takeWhile_append_dropWhile]
  · rintro ⟨blanks, tail, hblanks, rfl⟩
    have hstops : StopsAt isBlankChar (';' :: tail) := by
      intro c hc
      cases hc
      rfl
    rw [hstops.dropWhile_append (areBlank_iff.1 hblanks)]
    rfl

theorem startsWithSemicolon_dropOne_iff {rest : List Char} :
    startsWithSemicolon (dropOne '*' rest) = true ↔ StarFollows rest := by
  rw [startsWithSemicolon_iff]
  constructor
  · intro h
    obtain ⟨star, hstar, hrest⟩ := exists_dropOne '*' rest
    exact ⟨star, _, hstar, h, hrest⟩
  · rintro ⟨star, rest, hstar, ⟨blanks, tail, hblanks, rfl⟩, rfl⟩
    rw [dropOne_append hstar]
    · exact ⟨blanks, tail, hblanks, rfl⟩
    · intro d hd
      rcases head?_append_of_blank hblanks hd with (rfl | rfl) | hd
      · decide
      · decide
      · cases hd
        decide

theorem isLineEnd_dropOne_iff {rest : List Char} :
    isLineEnd ((dropOne ';' (rest.dropWhile isBlankChar)).dropWhile isBlankChar) = true ↔
      NothingFollows rest := by
  rw [isLineEnd_iff]
  constructor
  · intro hend
    obtain ⟨semicolon, hsemicolon, heq⟩ := exists_dropOne ';' (rest.dropWhile isBlankChar)
    refine ⟨rest.takeWhile isBlankChar, semicolon,
      (dropOne ';' (rest.dropWhile isBlankChar)).takeWhile isBlankChar, _, ?_, hsemicolon, ?_, hend, ?_⟩
    · exact areBlank_iff.2 fun c => List.mem_takeWhile_imp
    · exact areBlank_iff.2 fun c => List.mem_takeWhile_imp
    · rw [List.takeWhile_append_dropWhile, ← heq, List.takeWhile_append_dropWhile]
  · rintro ⟨blanks, semicolon, blanks', ending, hblanks, hsemicolon, hblanks', hend, rfl⟩
    have hstops : StopsAt isBlankChar ending := by
      rcases hend with rfl | rfl <;> simp [StopsAt, isBlankChar]
    have hending : dropOne ';' ending = ending := by
      rcases hend with rfl | rfl <;> rfl
    rw [areBlank_iff] at hblanks hblanks'
    rw [List.dropWhile_append_of_pos hblanks]
    rcases hsemicolon with rfl | rfl
    · rw [List.nil_append, hstops.dropWhile_append hblanks', hending, hstops.dropWhile_eq]
      exact hend
    · have hsemi : StopsAt isBlankChar ([';'] ++ (blanks' ++ ending)) := by
        intro c hc
        cases hc
        rfl
      rw [hsemi.dropWhile_eq, List.singleton_append, dropOne, if_pos rfl,
        hstops.dropWhile_append hblanks']
      exact hend

/-! ## Reading lines -/

/-- A name is read if what follows it is right. -/
theorem bind_if_eq_some_iff (read : Option (List Char × List Char)) (isRight : List Char → Bool)
    {name : List Char} :
    (read.bind fun (name, rest) => if isRight rest then some name else none) = some name ↔
      ∃ rest, read = some (name, rest) ∧ isRight rest = true := by
  rw [Option.bind_eq_some_iff]
  constructor
  · rintro ⟨⟨name', rest⟩, hread, h⟩
    simp only at h
    split_ifs at h with hright
    cases h
    exact ⟨rest, hread, hright⟩
  · rintro ⟨rest, hread, hright⟩
    exact ⟨(name, rest), hread, if_pos hright⟩

theorem nameLine_nil_iff {word : String} {back : List Char → Prop} {line name : List Char} :
    NameLine word (· = []) back line name ↔
      ∃ rest, (IsStatement word line (name ++ rest) ∧ IsName name rest) ∧ back rest := by
  simp only [NameLine, and_left_comm, exists_and_left, exists_eq_left, List.nil_append, and_assoc]

theorem kotlinImport?_eq_some_iff {line name : List Char} :
    kotlinImport? line = some name ↔ ImportLine .kotlin line name := by
  refine (bind_if_eq_some_iff (statement? "import" line)
    fun rest => isLineEnd (rest.dropWhile (· ≠ '\r'))).trans ?_
  simp only [statement?_eq_some_iff "import" rfl, isLineEnd_dropWhile_iff]
  exact nameLine_nil_iff.symm

theorem kotlinPackage?_eq_some_iff {line name : List Char} :
    kotlinPackage? line = some name ↔ PackageLine .kotlin line name := by
  refine (bind_if_eq_some_iff (statement? "package" line) fun rest =>
    isLineEnd ((dropOne ';' (rest.dropWhile isBlankChar)).dropWhile isBlankChar)).trans ?_
  simp only [statement?_eq_some_iff "package" rfl, isLineEnd_dropOne_iff]
  exact nameLine_nil_iff.symm

theorem javaPackage?_eq_some_iff {line name : List Char} :
    javaPackage? line = some name ↔ PackageLine .java line name := by
  refine (bind_if_eq_some_iff (statement? "package" line) startsWithSemicolon).trans ?_
  simp only [statement?_eq_some_iff "package" rfl, startsWithSemicolon_iff]
  exact nameLine_nil_iff.symm

theorem terminatedName?_eq_some_iff {body name : List Char} :
    terminatedName? body = some name ↔
      ∃ rest, (body = name ++ rest ∧ IsName name rest) ∧ StarFollows rest := by
  refine (bind_if_eq_some_iff (splitName? body)
    fun rest => startsWithSemicolon (dropOne '*' rest)).trans ?_
  simp only [splitName?_eq_some_iff, startsWithSemicolon_dropOne_iff]

/-- Where a name follows `static`, this word is not the name. -/
theorem terminatedName?_static {body rest name : List Char}
    (hstatic : afterKeyword? "static" body = some rest) (hname : terminatedName? rest = some name) :
    terminatedName? body = none := by
  obtain ⟨⟨_, ⟨gap, hne, hgap, rfl⟩, rfl⟩, hstops⟩ := afterKeyword?_eq_some_iff.1 hstatic
  obtain ⟨tail, ⟨hrest, hisName⟩, -⟩ := terminatedName?_eq_some_iff.1 hname
  obtain ⟨c, gap, rfl⟩ := List.exists_cons_of_ne_nil hne
  have hc := isBlankChar_iff.2 (hgap c List.mem_cons_self)
  have hsplit : splitName? ("static".toList ++ c :: gap ++ rest) =
      some ("static".toList, c :: gap ++ rest) := by
    rw [splitName?_eq_some_iff, List.append_assoc]
    refine ⟨rfl, by decide, inName_of_all (by decide), ?_⟩
    intro d hd
    cases hd
    exact not_inName_of_isBlankChar hc
  have hstar : dropOne '*' (c :: gap ++ rest) = c :: gap ++ rest := by
    apply dropOne_append (Or.inl rfl)
    intro d hd
    cases hd
    rintro rfl
    cases hc
  have hends : startsWithSemicolon (dropOne '*' (c :: gap ++ rest)) = false := by
    have hhead : StopsAt (· == ';') rest := by
      rw [hrest]
      apply hisName.stopsAt
      intro d hd
      rw [beq_iff_eq.1 hd]
      decide
    rw [hstar, startsWithSemicolon, hstops.dropWhile_append (areBlank_iff.1 hgap),
      decide_eq_false_iff_not]
    intro h
    cases hhead ';' h
  rw [terminatedName?, hsplit]
  exact if_neg (by rw [hends]; exact Bool.false_ne_true)

/-- `static` is read as a modifier where that is possible. -/
theorem modifiedName_eq_some_iff {body name : List Char} :
    ((afterKeyword? "static" body).bind terminatedName?).or (terminatedName? body) = some name ↔
      ∃ modifier rest, body = modifier ++ (name ++ rest) ∧
        (modifier = [] ∨ IsKeyword "static" modifier) ∧ IsName name rest ∧ StarFollows rest := by
  constructor
  · intro h
    rcases Option.or_eq_some_iff.1 h with h | ⟨-, h⟩
    · obtain ⟨_, hstatic, hrest⟩ := Option.bind_eq_some_iff.1 h
      obtain ⟨⟨modifier, hmodifier, rfl⟩, -⟩ := afterKeyword?_eq_some_iff.1 hstatic
      obtain ⟨rest, ⟨rfl, hname⟩, hstar⟩ := terminatedName?_eq_some_iff.1 hrest
      exact ⟨modifier, rest, rfl, Or.inr hmodifier, hname, hstar⟩
    · obtain ⟨rest, ⟨rfl, hname⟩, hstar⟩ := terminatedName?_eq_some_iff.1 h
      exact ⟨[], rest, rfl, Or.inl rfl, hname, hstar⟩
  · rintro ⟨modifier, rest, rfl, hmodifier, hname, hstar⟩
    have hplain := terminatedName?_eq_some_iff.2 ⟨rest, ⟨rfl, hname⟩, hstar⟩
    rcases hmodifier with rfl | hmodifier
    · rw [List.nil_append, hplain]
      cases h : (afterKeyword? "static" (name ++ rest)).bind terminatedName? with
      | none => rfl
      | some other =>
        obtain ⟨_, hrest, hother⟩ := Option.bind_eq_some_iff.1 h
        rw [terminatedName?_static hrest hother] at hplain
        cases hplain
    · have hstops := hname.stopsAt (fun _ => not_inName_of_isBlankChar) rest
      rw [afterKeyword?_eq_some_iff.2 ⟨⟨modifier, hmodifier, rfl⟩, hstops⟩, Option.bind_some, hplain]
      rfl

theorem javaImport?_eq_some_iff {line name : List Char} :
    javaImport? line = some name ↔ ImportLine .java line name := by
  refine Option.bind_eq_some_iff.trans ?_
  simp only [afterKeyword?_dropWhile_iff "import" rfl, modifiedName_eq_some_iff]
  constructor
  · rintro ⟨_, ⟨hline, -⟩, modifier, rest, rfl, h⟩
    exact ⟨modifier, rest, hline, h⟩
  · rintro ⟨modifier, rest, hline, h⟩
    refine ⟨_, ⟨hline, ?_⟩, modifier, rest, rfl, h⟩
    rcases h.1 with rfl | ⟨gap, -, -, rfl⟩
    · exact h.2.1.stopsAt (fun _ => not_inName_of_isBlankChar) rest
    · intro c hc
      cases hc
      decide

/-- **The import lines are those of the grammar.** -/
theorem import?_eq_some_iff {language : Language} {line name : List Char} :
    Source.import? language line = some name ↔ ImportLine language line name := by
  cases language with
  | kotlin => exact kotlinImport?_eq_some_iff
  | java => exact javaImport?_eq_some_iff

/-- **The package lines are those of the grammar.** -/
theorem package?_eq_some_iff {language : Language} {line name : List Char} :
    Source.package? language line = some name ↔ PackageLine language line name := by
  cases language with
  | kotlin => exact kotlinPackage?_eq_some_iff
  | java => exact javaPackage?_eq_some_iff

/-! ## Lines -/

theorem lines_eq_splitOn (text : List Char) : lines text = text.splitOn '\n' := by
  apply Text.eq_splitOn rfl
  · intro cs
    rw [lines, List.foldr_cons, ← lines, if_pos rfl]
  · intro c cs line rest hc hlines
    rw [lines, List.foldr_cons, ← lines, if_neg hc, hlines]

end Source

end DependencyLint
