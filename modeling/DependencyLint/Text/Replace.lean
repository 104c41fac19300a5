/-!
# Replacement in texts
-/

namespace DependencyLint.Text

/-- Puts `value` for every occurrence of `word`, from left to right and without overlaps. -/
def replaceChars (word value : List Char) : List Char → List Char
  | [] => []
  | c :: rest =>
    if !word.isEmpty && word.isPrefixOf (c :: rest) then
      value ++ replaceChars word value (rest.drop (word.length - 1))
    else c :: replaceChars word value rest
termination_by text => text.length
decreasing_by
  all_goals simp only [List.length_drop, List.length_cons]; omega

/-- Puts `value` for every occurrence of `word` in a text. -/
def replace (text word value : String) : String :=
  String.ofList (replaceChars word.toList value.toList text.toList)

/-! ## Occurrences -/

section Occurrences

variable {c : Char} {word : List Char} (value : List Char)

@[simp] theorem replaceChars_nil (word value : List Char) : replaceChars word value [] = [] := by
  rw [replaceChars]

/-- The word itself is replaced. -/
theorem replaceChars_word (text : List Char) :
    replaceChars (c :: word) value (c :: word ++ text) =
      value ++ replaceChars (c :: word) value text := by
  rw [List.cons_append, replaceChars]
  simp

theorem replaceChars_cons {d : Char} {text : List Char} (h : ¬c :: word <+: d :: text) :
    replaceChars (c :: word) value (d :: text) = d :: replaceChars (c :: word) value text := by
  have hprefix : (c :: word).isPrefixOf (d :: text) = false := by
    rw [← Bool.not_eq_true, List.isPrefixOf_iff_prefix]
    exact h
  rw [replaceChars, hprefix, Bool.and_false]
  rfl

/-- No occurrence starts in a text without the first character of the word. -/
theorem replaceChars_append {front : List Char} (h : c ∉ front) (text : List Char) :
    replaceChars (c :: word) value (front ++ text) =
      front ++ replaceChars (c :: word) value text := by
  induction front with
  | nil => rfl
  | cons d front ih =>
    rw [List.mem_cons, not_or] at h
    have hfirst : ¬c :: word <+: d :: (front ++ text) := fun hprefix =>
      h.1 (List.cons_prefix_cons.1 hprefix).1
    rw [List.cons_append, replaceChars_cons value hfirst, ih h.2, List.cons_append]

end Occurrences

end DependencyLint.Text
