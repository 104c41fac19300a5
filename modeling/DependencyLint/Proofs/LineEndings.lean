import DependencyLint.Proofs.SourceSearch
import DependencyLint.Text.Replace

/-!
# Line endings

A text may end its lines with a line feed, or with a carriage return and a line feed. In the second
case the carriage return is the last character of every line but the last. Each of the four kinds of
lines treats what follows its name in a way of its own, and none of them minds that character
(`IgnoresReturn`): where the end of the line counts, it may stand there, and where a semicolon counts,
it stands behind the semicolon.

**Main result** (`source_reading_ignores_returns`). A text without carriage returns has the same
imports and the same package with one in front of each of its line feeds.
-/

namespace DependencyLint

namespace Source

/-! ## Parts of a line without carriage returns -/

theorem return_not_mem_of_eq_nil {cs : List Char} (h : cs = []) : '\r' ∉ cs := by
  rw [h]
  exact List.not_mem_nil

theorem return_not_mem_of_areBlank {cs : List Char} (h : AreBlank cs) : '\r' ∉ cs := by
  intro hmem
  rcases h _ hmem with h | h <;> cases h

theorem return_not_mem_of_isOptional {c : Char} {cs : List Char} (h : IsOptional c cs) (hc : c ≠ '\r') :
    '\r' ∉ cs := by
  rcases h with hnil | rfl
  · exact return_not_mem_of_eq_nil hnil
  · simpa using hc.symm

theorem return_not_mem_of_isKeyword {word : String} {cs : List Char} (h : IsKeyword word cs)
    (hword : '\r' ∉ word.toList) : '\r' ∉ cs := by
  obtain ⟨gap, -, hgap, rfl⟩ := h
  rw [List.mem_append, not_or]
  exact ⟨hword, return_not_mem_of_areBlank hgap⟩

/-- What has no carriage return ends in front of the last one. -/
theorem append_eq_append_return {front back line : List Char} (hfront : '\r' ∉ front)
    (h : line ++ ['\r'] = front ++ back) : ∃ rest, back = rest ++ ['\r'] ∧ line = front ++ rest := by
  rcases List.eq_nil_or_concat back with rfl | ⟨rest, c, rfl⟩
  · rw [List.append_nil] at h
    exact absurd (h ▸ List.mem_append_right line List.mem_cons_self) hfront
  · rw [List.concat_eq_append, ← List.append_assoc] at h
    obtain ⟨hline, hc⟩ := List.append_inj' h rfl
    exact ⟨rest, by rw [List.concat_eq_append, hc], hline⟩

/-! ## What follows a name -/

/-- A carriage return behind what has none makes no difference. -/
def IgnoresReturn (back : List Char → Prop) : Prop :=
  ∀ rest, '\r' ∉ rest → (back (rest ++ ['\r']) ↔ back rest)

theorem ignoresReturn_anythingFollows : IgnoresReturn AnythingFollows := by
  intro rest hrest
  refine iff_of_true ⟨rest, ['\r'], hrest, Or.inr rfl, rfl⟩ ⟨rest, [], hrest, Or.inl rfl, ?_⟩
  rw [List.append_nil]

theorem ignoresReturn_semicolonFollows : IgnoresReturn SemicolonFollows := by
  intro rest _
  constructor
  · rintro ⟨blanks, tail, hblanks, h⟩
    have hfront : '\r' ∉ blanks ++ [';'] := by
      rw [List.mem_append, not_or]
      exact ⟨return_not_mem_of_areBlank hblanks, by decide⟩
    rw [List.append_cons blanks] at h
    obtain ⟨tail', -, rfl⟩ := append_eq_append_return hfront h
    exact ⟨blanks, tail', hblanks, (List.append_cons blanks ';' tail').symm⟩
  · rintro ⟨blanks, tail, hblanks, rfl⟩
    exact ⟨blanks, tail ++ ['\r'], hblanks, by rw [List.append_assoc, List.cons_append]⟩

theorem ignoresReturn_starFollows : IgnoresReturn StarFollows := by
  intro rest hrest
  constructor
  · rintro ⟨star, tail, hstar, htail, h⟩
    obtain ⟨tail', rfl, rfl⟩ :=
      append_eq_append_return (return_not_mem_of_isOptional hstar (by decide)) h
    rw [List.mem_append, not_or] at hrest
    exact ⟨star, tail', hstar, (ignoresReturn_semicolonFollows tail' hrest.2).1 htail, rfl⟩
  · rintro ⟨star, tail, hstar, htail, rfl⟩
    rw [List.mem_append, not_or] at hrest
    exact ⟨star, tail ++ ['\r'], hstar, (ignoresReturn_semicolonFollows tail hrest.2).2 htail,
      List.append_assoc star tail ['\r']⟩

theorem ignoresReturn_nothingFollows : IgnoresReturn NothingFollows := by
  intro rest hrest
  constructor
  · rintro ⟨blanks, semicolon, blanks', ending, hblanks, hsemicolon, hblanks', hend, h⟩
    have hfront : '\r' ∉ blanks ++ (semicolon ++ blanks') := by
      simp only [List.mem_append, not_or]
      exact ⟨return_not_mem_of_areBlank hblanks,
        return_not_mem_of_isOptional hsemicolon (by decide), return_not_mem_of_areBlank hblanks'⟩
    rw [← List.append_assoc semicolon, ← List.append_assoc blanks] at h
    obtain ⟨ending', rfl, rfl⟩ := append_eq_append_return hfront h
    have hnil : ending' = [] := by simpa [IsOptional] using hend
    refine ⟨blanks, semicolon, blanks', [], hblanks, hsemicolon, hblanks', Or.inl rfl, ?_⟩
    rw [hnil, List.append_nil, List.append_nil]
  · rintro ⟨blanks, semicolon, blanks', ending, hblanks, hsemicolon, hblanks', hend, rfl⟩
    simp only [List.mem_append, not_or] at hrest
    have hnil : ending = [] := hend.resolve_right fun h => hrest.2.2.2 (h ▸ List.mem_cons_self)
    refine ⟨blanks, semicolon, blanks', ['\r'], hblanks, hsemicolon, hblanks', Or.inr rfl, ?_⟩
    rw [hnil, List.append_nil, List.append_assoc, List.append_assoc]

/-! ## Lines -/

theorem isName_append_return_iff {name rest : List Char} :
    IsName name (rest ++ ['\r']) ↔ IsName name rest := by
  have hmaximal : (∀ c ∈ (rest ++ ['\r']).head?, ¬InName c) ↔ ∀ c ∈ rest.head?, ¬InName c := by
    cases rest with
    | nil =>
      refine iff_of_true (fun c hc => ?_) (by simp)
      cases hc
      decide
    | cons c rest => rfl
  exact ⟨fun h => ⟨h.nonempty, h.inName, hmaximal.1 h.maximal⟩,
    fun h => ⟨h.nonempty, h.inName, hmaximal.2 h.maximal⟩⟩

/-- A line of the grammar remains one, with its name, if a carriage return is put at its end, and no
other line becomes one. -/
theorem nameLine_append_return_iff {word : String} {front back : List Char → Prop}
    (hword : '\r' ∉ word.toList) (hfront : ∀ cs, front cs → '\r' ∉ cs) (hback : IgnoresReturn back)
    {line name : List Char} (hline : '\r' ∉ line) :
    NameLine word front back (line ++ ['\r']) name ↔ NameLine word front back line name := by
  constructor
  · rintro ⟨modifier, rest, ⟨indent, keyword, hindent, hkeyword, h⟩, hmodifier, hname, hrest⟩
    -- Up to the end of the name there is no carriage return, so the last one is in what follows.
    have hlead : '\r' ∉ indent ++ keyword ++ modifier ++ name := by
      simp only [List.mem_append, not_or]
      exact ⟨⟨⟨return_not_mem_of_areBlank hindent, return_not_mem_of_isKeyword hkeyword hword⟩,
        hfront modifier hmodifier⟩, Pattern.not_mem_of_inName hname.inName⟩
    rw [← List.append_assoc, ← List.append_assoc] at h
    obtain ⟨rest', rfl, rfl⟩ := append_eq_append_return hlead h
    have hrest' : '\r' ∉ rest' := fun hmem => hline (List.mem_append_right _ hmem)
    refine ⟨modifier, rest', ⟨indent, keyword, hindent, hkeyword, ?_⟩, hmodifier,
      isName_append_return_iff.1 hname, (hback rest' hrest').1 hrest⟩
    simp only [List.append_assoc]
  · rintro ⟨modifier, rest, ⟨indent, keyword, hindent, hkeyword, rfl⟩, hmodifier, hname, hrest⟩
    simp only [List.mem_append, not_or] at hline
    refine ⟨modifier, rest ++ ['\r'], ⟨indent, keyword, hindent, hkeyword, ?_⟩, hmodifier,
      isName_append_return_iff.2 hname, (hback rest hline.2.2.2).2 hrest⟩
    simp only [List.append_assoc]

theorem importLine_append_return_iff {language : Language} {line name : List Char}
    (hline : '\r' ∉ line) :
    ImportLine language (line ++ ['\r']) name ↔ ImportLine language line name := by
  cases language with
  | kotlin =>
    exact nameLine_append_return_iff (by decide) (fun _ => return_not_mem_of_eq_nil)
      ignoresReturn_anythingFollows hline
  | java =>
    refine nameLine_append_return_iff (by decide) ?_ ignoresReturn_starFollows hline
    rintro cs (hnil | hstatic)
    · exact return_not_mem_of_eq_nil hnil
    · exact return_not_mem_of_isKeyword hstatic (by decide)

theorem packageLine_append_return_iff {language : Language} {line name : List Char}
    (hline : '\r' ∉ line) :
    PackageLine language (line ++ ['\r']) name ↔ PackageLine language line name := by
  cases language with
  | kotlin =>
    exact nameLine_append_return_iff (by decide) (fun _ => return_not_mem_of_eq_nil)
      ignoresReturn_nothingFollows hline
  | java =>
    exact nameLine_append_return_iff (by decide) (fun _ => return_not_mem_of_eq_nil)
      ignoresReturn_semicolonFollows hline

theorem import?_append_return (language : Language) {line : List Char} (hline : '\r' ∉ line) :
    Source.import? language (line ++ ['\r']) = Source.import? language line := by
  apply Option.ext
  intro name
  rw [import?_eq_some_iff, import?_eq_some_iff, importLine_append_return_iff hline]

theorem package?_append_return (language : Language) {line : List Char} (hline : '\r' ∉ line) :
    Source.package? language (line ++ ['\r']) = Source.package? language line := by
  apply Option.ext
  intro name
  rw [package?_eq_some_iff, package?_eq_some_iff, packageLine_append_return_iff hline]

/-! ## Texts -/

section Texts

open Text

/-- A reader that does not mind a carriage return at the end of a line reads a text with them as the
text without them. -/
theorem filterMap_lines_replaceChars {α : Type} {read : List Char → Option α}
    (hread : ∀ line, '\r' ∉ line → read (line ++ ['\r']) = read line) {text : List Char}
    (htext : '\r' ∉ text) :
    (lines (replaceChars ['\n'] ['\r', '\n'] text)).filterMap read = (lines text).filterMap read := by
  rw [lines_eq_splitOn, lines_eq_splitOn]
  induction text using Pattern.induction_on_lines with
  | last line hline =>
    -- Nothing ends the last line, so it is the same in both texts.
    have h : replaceChars ['\n'] ['\r', '\n'] (line ++ []) = _ :=
      replaceChars_append ['\r', '\n'] hline []
    rw [replaceChars_nil, List.append_nil] at h
    rw [h]
  | next line text hline ih =>
    rw [List.mem_append, List.mem_cons, not_or, not_or] at htext
    have hline' : '\n' ∉ line ++ ['\r'] := by
      rw [List.mem_append, not_or]
      exact ⟨hline, by decide⟩
    have hfirst : replaceChars ['\n'] ['\r', '\n'] (line ++ '\n' :: text) =
        (line ++ ['\r']) ++ '\n' :: replaceChars ['\n'] ['\r', '\n'] text := by
      have hbreak : replaceChars ['\n'] ['\r', '\n'] ('\n' :: text) = _ :=
        replaceChars_word ['\r', '\n'] text
      rw [replaceChars_append _ hline, hbreak, List.append_assoc]
      rfl
    rw [hfirst, List.splitOn_append_cons_self_of_not_mem hline',
      List.splitOn_append_cons_self_of_not_mem hline, List.filterMap_cons, List.filterMap_cons,
      hread line htext.1, ih htext.2.2]

end Texts

end Source

/-- **Line endings do not matter.** In every text without carriage returns and in both languages, the
imports, in their order, and the package are those of the text with a carriage return and a line feed
for each line feed. -/
theorem source_reading_ignores_returns (language : Language) {text : String} (h : '\r' ∉ text.toList) :
    Source.imports language (Text.replace text "\n" "\r\n") = Source.imports language text ∧
    Source.package language (Text.replace text "\n" "\r\n") = Source.package language text := by
  have htext : (Text.replace text "\n" "\r\n").toList =
      Text.replaceChars ['\n'] ['\r', '\n'] text.toList := String.toList_ofList
  constructor
  · rw [Source.imports, Source.imports, htext]
    congr 1
    refine Source.filterMap_lines_replaceChars (fun line hline => ?_) h
    rw [Source.import?_append_return language hline]
  · have hfirst : (Source.lines (Text.replaceChars ['\n'] ['\r', '\n'] text.toList)).findSome?
          (Source.package? language) =
        (Source.lines text.toList).findSome? (Source.package? language) := by
      rw [← List.head?_filterMap, ← List.head?_filterMap,
        Source.filterMap_lines_replaceChars (fun _ => Source.package?_append_return language) h]
    rw [Source.package, Source.package, htext, hfirst]

/-- The last line has no line feed, and the line in front of it is almost an import. -/
theorem almost_imports_read_alike :
    let kotlin := "package a.b\nimport c.D as E\nimport c.*\n\nimport\nimport c.F"
    let java := "package a.b;\nimport static c.D.e;\nimport c.*;\nimport c.G\nimport c.F;"
    ('\r' ∉ kotlin.toList ∧ '\r' ∉ java.toList) ∧
    (Source.imports .kotlin (Text.replace kotlin "\n" "\r\n") = ["c.D", "c.", "c.F"] ∧
      Source.package .kotlin (Text.replace kotlin "\n" "\r\n") = "a.b") ∧
    (Source.imports .java (Text.replace java "\n" "\r\n") = ["c.D.e", "c.", "c.F"] ∧
      Source.package .java (Text.replace java "\n" "\r\n") = "a.b") := by
  intro kotlin java
  have hkotlin : '\r' ∉ kotlin.toList := by decide
  have hjava : '\r' ∉ java.toList := by decide
  rw [(source_reading_ignores_returns .kotlin hkotlin).1,
    (source_reading_ignores_returns .kotlin hkotlin).2,
    (source_reading_ignores_returns .java hjava).1, (source_reading_ignores_returns .java hjava).2]
  exact ⟨⟨hkotlin, hjava⟩, ⟨by decide, by decide⟩, by decide, by decide⟩

end DependencyLint
