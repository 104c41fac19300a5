import DependencyLint.Text.Keyword
import DependencyLint.Text.Sorted
import DependencyLint.Usage
import Mathlib.Data.List.Infix
import Mathlib.Data.List.Nodup

/-!
# Names in texts and in lists

Facts about names that do not depend on what they are names of: a text is cut into pieces at each
separator, a keyword is found exactly where it stands in the name, a package is imported where an
imported name starts with it, looking up one of several different names finds its item, sorting loses
and invents no name, and a list with its repetitions erased is ordered by first occurrence.
-/

namespace DependencyLint

/-! ## Pieces of a text -/

/-- Cutting a text from its end, one character at a time, cuts it at each separator. -/
theorem Text.eq_splitOn {α : Type} [DecidableEq α] {split : List α → List (List α)} {sep : α}
    (hnil : split [] = [[]]) (hsep : ∀ cs, split (sep :: cs) = [] :: split cs)
    (hother : ∀ c cs piece rest, c ≠ sep → split cs = piece :: rest →
      split (c :: cs) = (c :: piece) :: rest) (cs : List α) : split cs = cs.splitOn sep := by
  induction cs with
  | nil => exact hnil
  | cons c cs ih =>
    rw [List.splitOn_cons_eq_if_modifyHead, ← ih]
    by_cases hc : c = sep
    · rw [if_pos (beq_iff_eq.2 hc), hc, hsep]
    · rw [if_neg (by simpa using hc)]
      cases hcs : split cs with
      | nil => exact absurd (ih.symm.trans hcs) (List.splitOn_ne_nil _ _)
      | cons piece rest => exact hother c cs piece rest hc hcs

theorem Text.not_mem_of_mem_splitOn {α : Type} [DecidableEq α] {cs piece : List α} {sep : α}
    (h : piece ∈ cs.splitOn sep) : sep ∉ piece := by
  induction cs generalizing piece with
  | nil =>
    rw [List.splitOn_nil, List.mem_singleton] at h
    rw [h]
    exact List.not_mem_nil
  | cons c cs ih =>
    rw [List.splitOn_cons_eq_if_modifyHead] at h
    split_ifs at h with hc
    · rcases List.mem_cons.1 h with rfl | h
      · exact List.not_mem_nil
      · exact ih h
    · cases hcs : cs.splitOn sep with
      | nil => exact absurd hcs (List.splitOn_ne_nil _ _)
      | cons first rest =>
        rw [hcs] at h ih
        rcases List.mem_cons.1 h with rfl | h
        · rw [List.mem_cons, not_or]
          exact ⟨fun heq => hc (beq_iff_eq.2 heq.symm), ih List.mem_cons_self⟩
        · exact ih (List.mem_cons_of_mem first h)

/-! ## Keywords -/

theorem Text.hasInfix_iff (word text : List Char) :
    Text.hasInfix word text = true ↔ word <:+: text := by
  induction text with
  | nil => simp [hasInfix]
  | cons c rest ih =>
    rw [hasInfix, Bool.or_eq_true, List.isPrefixOf_iff_prefix, ih, List.infix_cons_iff]

theorem Text.containsKeyword_iff (name keyword : String) :
    Text.containsKeyword name keyword = true ↔
      keyword.toList <:+: name.toList.flatMap Text.lowerChar :=
  Text.hasInfix_iff _ _

/-! ## Packages of imported names -/

theorem importsAnyPackage_iff {packages imports : List String} :
    importsAnyPackage packages imports = true ↔
      ∃ package ∈ packages, ∃ name ∈ imports, package.toList <+: name.toList := by
  simp only [importsAnyPackage, List.any_eq_true, List.isPrefixOf_iff_prefix]

/-! ## Looking up a name -/

/-- Where names are distinct, looking up a name finds the item that has it. -/
theorem find?_name_eq_some_iff {α κ : Type} [DecidableEq κ] {name : α → κ} {items : List α}
    (h : (items.map name).Nodup) {item : α} {text : κ} :
    items.find? (name · = text) = some item ↔ item ∈ items ∧ name item = text := by
  constructor
  · intro hfind
    exact ⟨List.mem_of_find?_eq_some hfind, by simpa using List.find?_some hfind⟩
  · rintro ⟨hitem, rfl⟩
    cases hfind : items.find? (name · = name item) with
    | none => exact absurd (List.find?_eq_none.1 hfind item hitem) (by simp)
    | some found =>
      have hname : name found = name item := by simpa using List.find?_some hfind
      rw [List.inj_on_of_nodup_map h (List.mem_of_find?_eq_some hfind) hitem hname]

/-! ## Sorted names -/

theorem Text.mem_skipRepeats (name : String) (names : List String) :
    name ∈ names.foldr (fun name kept => if kept.head? = some name then kept else name :: kept) [] ↔
      name ∈ names := by
  induction names with
  | nil => rfl
  | cons first rest ih =>
    rw [List.foldr_cons, List.mem_cons, ← ih]
    split_ifs with h
    · -- The first name is there already.
      have hfirst := List.mem_of_head? h
      exact ⟨Or.inr, fun hn => hn.elim (fun hn => hn ▸ hfirst) id⟩
    · exact List.mem_cons

theorem Text.mem_sortedNames {name : String} {names : List String} :
    name ∈ Text.sortedNames names ↔ name ∈ names := by
  rw [Text.sortedNames, Text.mem_skipRepeats, (List.mergeSort_perm _ _).mem_iff]

theorem Text.pairwise_skipRepeats {names : List String} (h : names.Pairwise (· ≤ ·)) :
    (names.foldr (fun name kept => if kept.head? = some name then kept else name :: kept)
      []).Pairwise (· < ·) := by
  induction names with
  | nil => exact List.Pairwise.nil
  | cons first rest ih =>
    obtain ⟨hfirst, hrest⟩ := List.pairwise_cons.1 h
    have hkept := ih hrest
    have hleast := fun name hname => hfirst name ((Text.mem_skipRepeats name rest).1 hname)
    rw [List.foldr_cons]
    split_ifs with hhead
    · exact hkept
    · generalize rest.foldr _ _ = kept at hkept hleast hhead ⊢
      cases kept with
      | nil => exact List.pairwise_singleton _ _
      | cons next others =>
        have hnext : first < next := by
          refine String.not_le.1 fun hge => hhead ?_
          rw [String.le_antisymm (hleast next List.mem_cons_self) hge]
          rfl
        refine List.pairwise_cons.2 ⟨List.forall_mem_cons.2 ⟨hnext, fun name hname => ?_⟩, hkept⟩
        exact String.lt_trans hnext ((List.pairwise_cons.1 hkept).1 name hname)

/-- Sorting by names puts the names in ascending order. -/
theorem Text.pairwise_mergeSort {α : Type} (name : α → String) (items : List α) :
    (items.mergeSort fun a b => name a ≤ name b).Pairwise fun a b => name a ≤ name b := by
  have htrans : ∀ a b c : α, decide (name a ≤ name b) = true → decide (name b ≤ name c) = true →
      decide (name a ≤ name c) = true := by
    simp only [decide_eq_true_eq]
    exact fun a b c => String.le_trans
  have htotal : ∀ a b : α, (decide (name a ≤ name b) || decide (name b ≤ name a)) = true := by
    simp only [Bool.or_eq_true, decide_eq_true_eq]
    exact fun a b => String.le_total (name a) (name b)
  exact (List.pairwise_mergeSort htrans htotal items).imp of_decide_eq_true

/-- Sorted names are in strictly ascending order. -/
theorem Text.pairwise_sortedNames (names : List String) :
    (Text.sortedNames names).Pairwise (· < ·) :=
  Text.pairwise_skipRepeats (Text.pairwise_mergeSort id names)

/-! ## First occurrences -/

section FirstOccurrence

variable {α : Type} [BEq α] [LawfulBEq α]

/-- Leaving items out does not change which of two kept items occurs first. -/
theorem idxOf_lt_of_filter {p : α → Bool} {a b : α} (ha : p a = true) (hb : p b = true)
    {l : List α} (h : (l.filter p).idxOf a < (l.filter p).idxOf b) : l.idxOf a < l.idxOf b := by
  induction l with
  | nil => simp at h
  | cons x l ih =>
    cases hx : p x with
    | false =>
      have hxa : (x == a) = false := beq_false_of_ne fun he => by rw [he, ha] at hx; cases hx
      have hxb : (x == b) = false := beq_false_of_ne fun he => by rw [he, hb] at hx; cases hx
      rw [List.filter_cons_of_neg (by simp [hx])] at h
      simpa [List.idxOf_cons, hxa, hxb] using ih h
    | true =>
      rw [List.filter_cons_of_pos hx, List.idxOf_cons, List.idxOf_cons] at h
      rw [List.idxOf_cons, List.idxOf_cons]
      cases hxa : x == a <;> cases hxb : x == b <;> simp_all

/-- A list with its repetitions erased is in the order of first occurrence. -/
theorem pairwise_eraseDups : ∀ l : List α, l.eraseDups.Pairwise fun a b => l.idxOf a < l.idxOf b
  | [] => by simp
  | x :: l => by
    have hrest : ∀ b ∈ (l.filter fun b => !b == x).eraseDups, b ≠ x := by
      intro b hb
      simpa using (List.mem_filter.1 (List.mem_eraseDups.1 hb)).2
    have hskip : ∀ b, b ≠ x → (x :: l).idxOf b = l.idxOf b + 1 := by
      intro b hb
      rw [List.idxOf_cons, beq_false_of_ne hb.symm, cond_false]
    rw [List.eraseDups_cons, List.pairwise_cons]
    constructor
    · intro b hb
      rw [hskip b (hrest b hb), List.idxOf_cons_self]
      exact Nat.succ_pos _
    · refine (pairwise_eraseDups (l.filter fun b => !b == x)).imp_of_mem fun {a b} ha hb hab => ?_
      have ha := hrest a ha
      have hb := hrest b hb
      rw [hskip a ha, hskip b hb]
      exact Nat.succ_lt_succ
        (idxOf_lt_of_filter (p := fun b => !b == x) (by simpa using ha) (by simpa using hb) hab)
termination_by l => l.length
decreasing_by exact Nat.lt_succ_of_le (List.length_filter_le _ _)

end FirstOccurrence

end DependencyLint
