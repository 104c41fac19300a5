import DependencyLint.CustomCheck
import DependencyLint.Proofs.Answers
import Mathlib.Data.List.Infix

/-!
# Placeholders in messages

The message of a custom check has placeholders for the name of the module and for the name of the
library. They are filled in one after the other: the library's placeholder is looked for in a text that
the module's name is part of already.

**Theorem (`message_filled_in_one_pass`).** If the name of the module has no braces and is no part of
the word `library`, the message is the same as if both placeholders were filled in a single pass over
the template, in which nothing that was put in is looked at again.

The only danger is that a module's name completes a placeholder for the library. Such a placeholder
starts before the name and ends behind it, as there are no braces in the name. Then all of the name is
part of the word between the braces (`Text.prefix_of_prefix_replaceChars`).
-/

namespace DependencyLint

/-- **What stands in front of a mark was there before.** If the mark is not part of the value that was
put in, and the value not part of what stands in front of the mark, then both were there before. -/
theorem Text.prefix_of_prefix_replaceChars {c mark : Char} {word value : List Char}
    (hmark : mark ∉ value) {front text : List Char} (hfront : ¬value <:+: front)
    (h : front ++ [mark] <+: replaceChars (c :: word) value text) : front ++ [mark] <+: text := by
  induction text generalizing front with
  | nil => simp at h
  | cons d text ih =>
    by_cases hword : c :: word <+: d :: text
    · -- The value comes next, and the mark would have to lie in it or behind it.
      obtain ⟨rest, hrest⟩ := hword
      rw [← hrest, replaceChars_word] at h
      have hmem : ∀ {l : List Char}, front ++ [mark] <+: l → mark ∈ l := fun hl =>
        hl.subset (List.mem_append_right front List.mem_cons_self)
      rcases List.prefix_or_prefix_of_prefix h (List.prefix_append value _) with hin | hbehind
      · exact absurd (hmem hin) hmark
      · rcases List.prefix_concat_iff.1 hbehind with heq | hbefore
        · exact absurd (hmem (heq ▸ List.prefix_refl _)) hmark
        · exact absurd hbefore.isInfix hfront
    · rw [replaceChars_cons value hword] at h
      cases front with
      | nil =>
        have hd := (List.cons_prefix_cons.1 h).1
        exact List.cons_prefix_cons.2 ⟨hd, List.nil_prefix⟩
      | cons y front =>
        obtain ⟨hy, hrest⟩ := List.cons_prefix_cons.1 h
        have hlater : ¬value <:+: front := fun hin => hfront (List.infix_cons hin)
        exact List.cons_prefix_cons.2 ⟨hy, ih hlater hrest⟩

namespace CustomCheck

/-! ## One pass -/

/-- A placeholder: a name in braces. -/
def placeholder (name : String) : List Char := '{' :: (name.toList ++ ['}'])

/-- Fills in a template in one pass from left to right. Where a placeholder stands, its value is put in
and the pass goes on behind it; everything else is copied. -/
def fillOnce (module library : List Char) : List Char → List Char
  | [] => []
  | c :: rest =>
    if (placeholder "module").isPrefixOf (c :: rest) then
      module ++ fillOnce module library (rest.drop 7)
    else if (placeholder "library").isPrefixOf (c :: rest) then
      library ++ fillOnce module library (rest.drop 8)
    else c :: fillOnce module library rest
termination_by template => template.length
decreasing_by
  · exact Nat.lt_succ_of_le (List.drop_suffix _ _).length_le
  · exact Nat.lt_succ_of_le (List.drop_suffix _ _).length_le
  · exact Nat.lt_succ_self _

/-- What follows a placeholder at the front of a template. -/
theorem exists_of_prefix {name : String} {c : Char} {rest : List Char}
    (h : placeholder name <+: c :: rest) :
    ∃ text, c :: rest = placeholder name ++ text ∧ rest.drop (name.toList.length + 1) = text := by
  obtain ⟨text, htext⟩ := h
  refine ⟨text, htext.symm, ?_⟩
  obtain ⟨-, rfl⟩ := List.cons.inj htext
  exact List.drop_left' (by simp)

/-- A module's name does not complete the library's placeholder. -/
theorem not_prefix_of_replaced {module : List Char} (hclose : '}' ∉ module)
    (hname : ¬module <:+: "library".toList) {c : Char} {rest : List Char}
    (h : ¬placeholder "library" <+: c :: rest) :
    ¬placeholder "library" <+: c :: Text.replaceChars (placeholder "module") module rest := by
  intro hprefix
  obtain ⟨hc, hrest⟩ := List.cons_prefix_cons.1 hprefix
  have hbefore := Text.prefix_of_prefix_replaceChars hclose hname hrest
  exact h (List.cons_prefix_cons.2 ⟨hc, hbefore⟩)

/-- **Filling in one placeholder after the other is one pass.** -/
theorem replaceChars_replaceChars {module : List Char} (hopen : '{' ∉ module) (hclose : '}' ∉ module)
    (hname : ¬module <:+: "library".toList) (library template : List Char) :
    Text.replaceChars (placeholder "library") library
        (Text.replaceChars (placeholder "module") module template) =
      fillOnce module library template := by
  fun_induction fillOnce module library template with
  | case1 => simp
  | case2 c rest hmodule ih =>
    obtain ⟨text, htext, hdrop⟩ := exists_of_prefix (List.isPrefixOf_iff_prefix.1 hmodule)
    have hnext : rest.drop 7 = text := hdrop
    have hfirst : Text.replaceChars (placeholder "module") module (placeholder "module" ++ text) = _ :=
      Text.replaceChars_word module text
    rw [hnext] at ih ⊢
    rw [htext, hfirst, ← ih]
    exact Text.replaceChars_append library hopen _
  | case3 c rest hmodule hlibrary ih =>
    rw [List.isPrefixOf_iff_prefix] at hmodule
    obtain ⟨text, htext, hdrop⟩ := exists_of_prefix (List.isPrefixOf_iff_prefix.1 hlibrary)
    have hnext : rest.drop 8 = text := hdrop
    -- The library's placeholder has one brace to open it, and none of the module's starts there.
    have hfirst : Text.replaceChars (placeholder "module") module (placeholder "library" ++ text) =
        placeholder "library" ++ Text.replaceChars (placeholder "module") module text := by
      rw [htext] at hmodule
      refine (Text.replaceChars_cons module hmodule).trans (congrArg (List.cons '{') ?_)
      exact Text.replaceChars_append module (by decide) text
    rw [hnext] at ih ⊢
    rw [htext, hfirst, ← ih]
    exact Text.replaceChars_word library _
  | case4 c rest hmodule hlibrary ih =>
    rw [List.isPrefixOf_iff_prefix] at hmodule hlibrary
    rw [← ih]
    refine (congrArg _ (Text.replaceChars_cons module hmodule)).trans ?_
    exact Text.replaceChars_cons library (not_prefix_of_replaced hclose hname hlibrary)

/-- A name with a colon is no part of the word. -/
theorem not_infix_of_colon {name : List Char} (h : ':' ∈ name) : ¬name <:+: "library".toList := by
  intro hin
  have hcolon := hin.subset h
  revert hcolon
  decide

end CustomCheck

/-! ## A library with a placeholder in its name -/

namespace TrickyNames

/-- The template has a placeholder in double braces and one that is not closed. -/
def settings : CheckSettings where
  name := "tricky"
  library := "org:*"
  message := "\x7bmodule\x7d: \x7blibrary\x7d, \x7b\x7bmodule\x7d\x7d, \x7blibrary"

def glob : Glob := ⟨[.char 'o', .char 'r', .char 'g', .char ':', .anySequence]⟩

def app : ModuleSummary := ⟨":app", []⟩

def library : LibraryContent := ⟨"org:\x7bmodule\x7d:1", ⟨"org", "lib", "1"⟩, []⟩

theorem compile_pattern : Glob.compile settings.library = .ok glob :=
  eq_ok_of_toOption (by decide +kernel)

end TrickyNames

/-! ## The theorem -/

open CustomCheck in
/-- **A message is filled in as if in one pass.** For a glob that can be compiled there is a check. Its
message for a library that the glob matches is the template with both placeholders filled in by a
single pass, for every module whose name has no braces and is no part of the word `library`, such as
one with a colon in it. -/
theorem message_filled_in_one_pass {settings : CheckSettings} {glob : Glob}
    (hglob : Glob.compile settings.library = .ok glob) :
    ∃ check, ofSettings settings = .ok check ∧
      (∀ (module : ModuleSummary) (library : LibraryContent),
        glob.isMatch library.fullName = true →
        '{' ∉ module.name.toList → '}' ∉ module.name.toList →
        ¬module.name.toList <:+: "library".toList →
        (check.evaluate module library).toList =
          fillOnce module.name.toList library.fullName.toList settings.message.toList) ∧
      ∀ name : String, ':' ∈ name.toList → ¬name.toList <:+: "library".toList := by
  have hcompile : compilePattern settings.library = .ok glob := by rw [compilePattern, hglob]
  refine ⟨_, by rw [ofSettings, hcompile]; rfl, ?_, fun name => not_infix_of_colon⟩
  intro module library hmatch hopen hclose hname
  rw [← replaceChars_replaceChars hopen hclose hname]
  simp only [hmatch, if_true, fill, Text.replace, String.toList_ofList]
  rfl

open TrickyNames in
theorem placeholder_in_name_stays :
    Glob.compile settings.library = .ok glob ∧ glob.isMatch library.fullName = true ∧
      ∃ check, CustomCheck.ofSettings settings = .ok check ∧
        check.evaluate app library =
          ":app: org:\x7bmodule\x7d:1, \x7b:app\x7d, \x7blibrary" := by
  have hmatch : glob.isMatch library.fullName = true := by decide
  obtain ⟨check, hcheck, hfilled, hcolon⟩ := message_filled_in_one_pass compile_pattern
  refine ⟨compile_pattern, hmatch, check, hcheck, ?_⟩
  have hname := hcolon app.name (by decide)
  rw [← String.toList_inj, hfilled app library hmatch (by decide) (by decide) hname]
  decide +kernel

/-- The name of a module can complete a placeholder if it is part of the word. -/
example : CustomCheck.fill "\x7b\x7bmodule\x7d\x7d" "library" "org:lib:1" = "org:lib:1" := by
  decide +kernel

end DependencyLint
