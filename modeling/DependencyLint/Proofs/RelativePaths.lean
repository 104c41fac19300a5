import DependencyLint.FileSystem
import DependencyLint.Proofs.EncodedText
import DependencyLint.Proofs.Names
import Mathlib.Data.List.TakeWhile
import Mathlib.Tactic.SplitIfs

/-!
# Longer and shorter paths

A path becomes longer by going on along names, and shorter where a directory in front of it is left
out. In its components this is appending and taking off (`components_extend`, `IsBehind`).

**Lemma (`stripDir?_eq_some_iff`).** The rest of a path behind a directory is the longest end of its
text whose components follow those of the directory. It is a rest of the text, not of the components
only: idle pieces inside it are kept.
-/

namespace DependencyLint

namespace RawText

theorem bytes_inj {a b : RawText} : a.bytes = b.bytes ↔ a = b :=
  ⟨congrArg mk, congrArg bytes⟩

@[simp] theorem bytes_append (a b : RawText) : (a ++ b).bytes = a.bytes ++ b.bytes := rfl

theorem append_empty (a : RawText) : a ++ ("" : RawText) = a :=
  bytes_inj.1 (List.append_nil _)

@[simp] theorem bytes_empty : (ofText "").bytes = [] := rfl

@[simp] theorem bytes_slash : (ofText "/").bytes = [Path.slash] := rfl

@[simp] theorem append_slash_ne (a : RawText) : a ++ ofText "/" ≠ ofText "" := by
  simp [← bytes_inj]

end RawText

namespace Path

/-! ## Pieces -/

theorem piecesOf_eq_splitOn (bytes : List UInt8) : piecesOf bytes = bytes.splitOn slash := by
  apply Text.eq_splitOn rfl
  · intro bytes
    rw [piecesOf, List.foldr_cons, ← piecesOf, if_pos rfl]
  · intro b bytes piece rest hb hpieces
    rw [piecesOf, List.foldr_cons, ← piecesOf, if_neg hb, hpieces]

theorem pieces_ne_nil (p : Path) : p.pieces ≠ [] := by
  rw [pieces, piecesOf_eq_splitOn, ne_eq, List.map_eq_nil_iff]
  exact List.splitOn_ne_nil _ _

theorem pieces_slash (front back : RawText) :
    (mk (front ++ "/" ++ back)).pieces = (mk front).pieces ++ (mk back).pieces := by
  have hbytes : (front ++ "/" ++ back).bytes = front.bytes ++ slash :: back.bytes := by simp
  simp only [pieces, piecesOf_eq_splitOn, hbytes, List.splitOn_append_cons_self, List.map_append]

theorem pieces_of_not_mem {name : RawText} (h : slash ∉ name.bytes) : (mk name).pieces = [name] := by
  rw [pieces, piecesOf_eq_splitOn, List.splitOn_eq_singleton h, List.map_singleton]

@[simp] theorem pieces_empty : (mk "").pieces = [("" : RawText)] := pieces_of_not_mem (by simp)

theorem not_mem_of_mem_pieces {p : Path} {piece : RawText} (h : piece ∈ p.pieces) :
    slash ∉ piece.bytes := by
  rw [pieces, piecesOf_eq_splitOn] at h
  obtain ⟨bytes, hbytes, rfl⟩ := List.mem_map.1 h
  exact Text.not_mem_of_mem_splitOn hbytes

theorem bytes_ofPieces (l : List RawText) :
    (ofPieces l).raw.bytes = [slash].intercalate (l.map RawText.bytes) := rfl

theorem ofPieces_pieces (p : Path) : ofPieces p.pieces = p := by
  have hback : p.pieces.map RawText.bytes = p.raw.bytes.splitOn slash := by
    simp [pieces, piecesOf_eq_splitOn, Function.comp_def]
  have hraw : (ofPieces p.pieces).raw = p.raw := by
    rw [← RawText.bytes_inj, bytes_ofPieces, hback, List.intercalate_splitOn]
  exact congrArg mk hraw

theorem pieces_ofPieces {l : List RawText} (hne : l ≠ []) (h : ∀ piece ∈ l, slash ∉ piece.bytes) :
    (ofPieces l).pieces = l := by
  rw [pieces, piecesOf_eq_splitOn, bytes_ofPieces, List.splitOn_intercalate]
  · simp [Function.comp_def]
  · simpa using h
  · simpa using hne

theorem ofPieces_append {front back : List RawText} (hfront : front ≠ []) (hback : back ≠ []) :
    (ofPieces (front ++ back)).raw = (ofPieces front).raw ++ "/" ++ (ofPieces back).raw := by
  rw [← RawText.bytes_inj, RawText.bytes_append, RawText.bytes_append, RawText.bytes_slash]
  induction front with
  | nil => exact absurd rfl hfront
  | cons piece front ih =>
    have hrest : (front ++ back).map RawText.bytes ≠ [] := by simp [hback]
    rw [List.cons_append, bytes_ofPieces, List.map_cons, List.intercalate_cons_of_ne_nil hrest,
      ← bytes_ofPieces]
    by_cases hnil : front = []
    · rw [hnil, List.nil_append, bytes_ofPieces [piece], List.map_singleton,
        List.intercalate_singleton]
    · have hfront' : front.map RawText.bytes ≠ [] := by simpa using hnil
      rw [ih hnil, bytes_ofPieces (piece :: front), List.map_cons,
        List.intercalate_cons_of_ne_nil hfront', ← bytes_ofPieces]
      simp only [List.append_assoc]

/-! ## Steps -/

theorem steps_append (a b : List RawText) : steps (a ++ b) = steps a ++ steps b := by
  rw [steps, List.filter_append, List.map_append, steps, steps]

theorem steps_cons_of_idle {piece : RawText} (h : isIdle piece = true) (pieces : List RawText) :
    steps (piece :: pieces) = steps pieces := by
  rw [steps, List.filter_cons_of_neg (by simp [h]), steps]

theorem steps_cons_of_not_idle {piece : RawText} (h : isIdle piece = false) (pieces : List RawText) :
    steps (piece :: pieces) = stepOf piece :: steps pieces := by
  rw [steps, List.filter_cons_of_pos (by simp [h]), List.map_cons, steps]

/-- Steps are names or lead up. -/
theorem ne_of_mem_steps {step : Component} {pieces : List RawText} (h : step ∈ steps pieces) :
    step ≠ .root ∧ step ≠ .here := by
  obtain ⟨piece, -, rfl⟩ := List.mem_map.1 h
  unfold stepOf
  split_ifs <;> simp

/-! ## Components -/

theorem components_of_pieces {p : Path} {first : RawText} {rest : List RawText}
    (h : p.pieces = first :: rest) :
    p.components = if p.isAbsolute then .root :: steps rest
      else if first = "." then .here :: steps rest
      else steps (first :: rest) := by
  rw [components, h]

theorem isAbsolute_append {raw : RawText} (h : raw ≠ "") (more : RawText) :
    (mk (raw ++ more)).isAbsolute = (mk raw).isAbsolute := by
  have hne : raw.bytes ≠ [] := fun hnil => h (RawText.bytes_inj.1 hnil)
  rw [isAbsolute, isAbsolute, RawText.bytes_append, List.head?_append_of_ne_nil _ hne]

/-- A path that starts with an empty piece is absolute, or empty. -/
theorem head?_pieces_eq_iff {p : Path} :
    p.pieces.head? = some ("" : RawText) ↔ p.isAbsolute = true ∨ p.raw = "" := by
  rw [pieces, piecesOf_eq_splitOn, isAbsolute, decide_eq_true_eq, ← RawText.bytes_inj]
  rcases hp : p.raw.bytes with _ | ⟨b, bytes⟩
  · simp [← RawText.bytes_inj]
  · rw [List.splitOn_cons_eq_if_modifyHead]
    by_cases hb : b = slash
    · simp [hb, ← RawText.bytes_inj]
    · rcases hbytes : bytes.splitOn slash with _ | ⟨first, rest⟩
      · exact absurd hbytes (List.splitOn_ne_nil _ _)
      · simp [hb, ← RawText.bytes_inj]

/-- Behind the first piece, all pieces count alike. -/
theorem components_eq_append {p q : Path} {first : RawText} {rest rest' : List RawText}
    {extra : List Component} (habsolute : q.isAbsolute = p.isAbsolute) (hp : p.pieces = first :: rest)
    (hq : q.pieces = first :: rest') (hsteps : steps rest' = steps rest ++ extra) :
    q.components = p.components ++ extra := by
  have hcons : ∀ rest, steps (first :: rest) = steps [first] ++ steps rest := fun rest =>
    steps_append [first] rest
  rw [components_of_pieces hp, components_of_pieces hq, habsolute]
  split_ifs
  · rw [hsteps, List.cons_append]
  · rw [hsteps, List.cons_append]
  · rw [hcons rest', hcons rest, hsteps, List.append_assoc]

section Slash

variable {front : RawText} {first : RawText} {rest : List RawText}

theorem pieces_trailing (h : (mk front).pieces = first :: rest) :
    (mk (front ++ "/")).pieces = first :: (rest ++ [("" : RawText)]) := by
  have hslash := pieces_slash front ""
  rwa [RawText.append_empty, h, pieces_empty] at hslash

theorem steps_trailing (rest : List RawText) : steps (rest ++ [("" : RawText)]) = steps rest := by
  rw [steps_append, steps_cons_of_idle rfl]
  exact List.append_nil _

/-- A slash at the end does not count. -/
theorem components_trailing (h : front ≠ "") :
    (mk (front ++ "/")).components = (mk front).components := by
  rcases hfront : (mk front).pieces with _ | ⟨first, rest⟩
  · exact absurd hfront (pieces_ne_nil _)
  have hsteps : steps (rest ++ [("" : RawText)]) = steps rest ++ [] := by
    rw [steps_trailing, List.append_nil]
  rw [components_eq_append (isAbsolute_append h _) hfront (pieces_trailing hfront) hsteps,
    List.append_nil]

/-- Behind a slash every piece counts as a step. -/
theorem components_slash (front back : RawText) :
    (mk (front ++ "/" ++ back)).components =
      (mk (front ++ "/")).components ++ steps (mk back).pieces := by
  rcases hfront : (mk front).pieces with _ | ⟨first, rest⟩
  · exact absurd hfront (pieces_ne_nil _)
  have hpieces : (mk (front ++ "/" ++ back)).pieces = first :: (rest ++ (mk back).pieces) := by
    rw [pieces_slash, hfront, List.cons_append]
  refine components_eq_append (isAbsolute_append (by simp) _) (pieces_trailing hfront) hpieces ?_
  rw [steps_append, steps_trailing]

end Slash

/-- Only the empty path has no components. -/
theorem raw_eq_empty_of_components {p : Path} (h : p.components = []) : p.raw = "" := by
  rcases hpieces : p.pieces with _ | ⟨first, rest⟩
  · exact absurd hpieces (pieces_ne_nil p)
  rw [components_of_pieces hpieces] at h
  split_ifs at h with habsolute hfirst
  have hidle : isIdle first = true := by
    by_contra hidle
    rw [steps_cons_of_not_idle (by simpa using hidle)] at h
    cases h
  have hempty : first = "" := by simpa [isIdle, hfirst] using hidle
  have hhead : p.pieces.head? = some ("" : RawText) := by rw [hpieces, hempty, List.head?_cons]
  exact (head?_pieces_eq_iff.1 hhead).resolve_left habsolute

/-! ## Going on along names -/

/-- A name that an entry of a directory can have. -/
structure IsEntryName (name : RawText) : Prop where
  noSlash : slash ∉ name.bytes
  noNul : 0 ∉ name.bytes
  notIdle : isIdle name = false
  notUp : name ≠ ".."

instance (name : RawText) : Decidable (IsEntryName name) :=
  decidable_of_iff (slash ∉ name.bytes ∧ 0 ∉ name.bytes ∧ isIdle name = false ∧ name ≠ "..")
    ⟨fun h => ⟨h.1, h.2.1, h.2.2.1, h.2.2.2⟩, fun h => ⟨h.noSlash, h.noNul, h.notIdle, h.notUp⟩⟩

theorem IsEntryName.steps_eq {name : RawText} (h : IsEntryName name) :
    steps [name] = [.name name] := by
  simp [steps, h.notIdle, stepOf, h.notUp]

theorem isAbsolute_of_not_mem {name : RawText} (h : slash ∉ name.bytes) :
    (mk name).isAbsolute = false := by
  rw [isAbsolute, decide_eq_false_iff_not]
  exact fun hhead => h (List.mem_of_head? hhead)

/-- A slash stands between a path and the name along which it goes on. -/
theorem join_name {p : Path} (hp : p.raw ≠ "") {name : RawText} (hname : slash ∉ name.bytes) :
    ∃ front, p.join ⟨name⟩ = ⟨front ++ "/" ++ name⟩ ∧ (p.raw = front ∨ p.raw = front ++ "/") := by
  have hstart : ¬((mk name).isAbsolute || decide (p.raw = "")) = true := by
    simp [isAbsolute_of_not_mem hname, hp]
  rw [join, if_neg hstart]
  split_ifs with hslash
  · obtain ⟨bytes, hbytes⟩ := List.getLast?_eq_some_iff.1 hslash
    have hraw : p.raw = ⟨bytes⟩ ++ "/" := RawText.bytes_inj.1 hbytes
    exact ⟨⟨bytes⟩, by rw [hraw], Or.inr hraw⟩
  · exact ⟨p.raw, rfl, Or.inl rfl⟩

theorem getLast?_pieces_join (p : Path) {name : RawText} (h : slash ∉ name.bytes) :
    (p.join ⟨name⟩).pieces.getLast? = some name := by
  by_cases hempty : p.raw = ""
  · rw [join, if_pos (by simp [hempty]), pieces_of_not_mem h, List.getLast?_singleton]
  · obtain ⟨front, hjoin, -⟩ := join_name hempty h
    rw [hjoin, pieces_slash, pieces_of_not_mem h, List.getLast?_concat]

theorem components_join (p : Path) {name : RawText} (h : IsEntryName name) :
    (p.join ⟨name⟩).components = p.components ++ [.name name] := by
  have hsteps : steps (mk name).pieces = [.name name] := by
    rw [pieces_of_not_mem h.noSlash, h.steps_eq]
  obtain ⟨raw⟩ := p
  by_cases hempty : raw = ""
  · have hjoin : (mk raw).join ⟨name⟩ = ⟨name⟩ := by simp [join, hempty]
    have hdot : name ≠ "." := by
      rintro rfl
      cases h.notIdle
    rw [hjoin, hempty, components_of_pieces (pieces_of_not_mem h.noSlash),
      isAbsolute_of_not_mem h.noSlash, if_neg Bool.false_ne_true, if_neg hdot, h.steps_eq]
    rfl
  · obtain ⟨front, hjoin, hfront⟩ := join_name hempty h.noSlash
    rw [hjoin, components_slash, hsteps]
    rcases hfront with rfl | rfl
    · rw [components_trailing hempty]
    · rfl

/-- Goes on from a path along names. -/
def extend (p : Path) (names : List RawText) : Path := names.foldl (fun p name => p.join ⟨name⟩) p

theorem components_extend (p : Path) {names : List RawText} (h : ∀ name ∈ names, IsEntryName name) :
    (p.extend names).components = p.components ++ names.map .name := by
  induction names generalizing p with
  | nil => rw [extend, List.foldl_nil, List.map_nil, List.append_nil]
  | cons name names ih =>
    rw [extend, List.foldl_cons, ← extend, ih _ fun n hn => h n (List.mem_cons_of_mem _ hn),
      components_join p (h name List.mem_cons_self), List.append_assoc, List.map_cons,
      List.singleton_append]

/-! ## The rest behind a directory -/

theorem exists_of_dropSteps {st : List Component} {pieces back : List RawText}
    (h : dropSteps st pieces = some back) :
    (∃ front, pieces = front ++ back ∧ steps front = st) ∧
      ∀ piece ∈ back.head?, isIdle piece = false := by
  fun_induction dropSteps st pieces with
  | case1 pieces =>
    cases h
    refine ⟨⟨pieces.takeWhile isIdle, List.takeWhile_append_dropWhile.symm, ?_⟩, ?_⟩
    · rw [steps, List.map_eq_nil_iff, List.filter_eq_nil_iff]
      intro piece hpiece
      simp [List.mem_takeWhile_imp hpiece]
    · intro piece hpiece
      have hhead := List.head?_dropWhile_not isIdle pieces
      rw [Option.mem_def.1 hpiece] at hhead
      simpa using hhead
  | case2 => cases h
  | case3 step st piece pieces hidle ih =>
    obtain ⟨⟨front, rfl, hfront⟩, hback⟩ := ih h
    refine ⟨⟨piece :: front, rfl, ?_⟩, hback⟩
    rw [steps_cons_of_idle hidle, hfront]
  | case4 st piece pieces hidle ih =>
    obtain ⟨⟨front, rfl, hfront⟩, hback⟩ := ih h
    refine ⟨⟨piece :: front, rfl, ?_⟩, hback⟩
    rw [steps_cons_of_not_idle (by simpa using hidle), hfront]
  | case5 => cases h

theorem isSome_dropSteps_iff {st : List Component} {pieces : List RawText} :
    (dropSteps st pieces).isSome = true ↔ st <+: steps pieces := by
  fun_induction dropSteps st pieces with
  | case1 pieces => simp
  | case2 step st => simp [steps]
  | case3 step st piece pieces hidle ih =>
    rw [ih, steps_cons_of_idle hidle]
  | case4 st piece pieces hidle ih =>
    rw [ih, steps_cons_of_not_idle (by simpa using hidle), List.cons_prefix_cons]
    exact (and_iff_right rfl).symm
  | case5 step st piece pieces hidle hstep =>
    rw [steps_cons_of_not_idle (by simpa using hidle), List.cons_prefix_cons]
    simp [Ne.symm hstep]

theorem trimEnd_eq_self {pieces : List RawText}
    (h : ∀ piece ∈ pieces.getLast?, isIdle piece = false) : trimEnd pieces = pieces := by
  rcases List.eq_nil_or_concat pieces with rfl | ⟨front, last, rfl⟩
  · rfl
  · have hlast : isIdle last = false := h last (by simp)
    rw [trimEnd]
    simp [hlast]

theorem not_isAbsolute_of_ne {p : Path} {first : RawText} {rest : List RawText}
    (hp : p.pieces = first :: rest) (hfirst : first ≠ "") : ¬p.isAbsolute = true := by
  intro habsolute
  have hhead := head?_pieces_eq_iff.2 (Or.inl habsolute)
  rw [hp] at hhead
  exact hfirst (Option.some.inj hhead)

theorem components_ofPieces {back : List RawText} (hslash : ∀ piece ∈ back, slash ∉ piece.bytes)
    (hhead : ∀ piece ∈ back.head?, isIdle piece = false) :
    (ofPieces back).components = steps back := by
  cases back with
  | nil => decide
  | cons first rest =>
    have hpieces := pieces_ofPieces (List.cons_ne_nil first rest) hslash
    have hfirst : first ≠ "" ∧ first ≠ "." := by simpa [isIdle] using hhead first rfl
    rw [components_of_pieces hpieces, if_neg (not_isAbsolute_of_ne hpieces hfirst.1),
      if_neg hfirst.2]

theorem isSome_stripDir?_iff {dir p : Path} :
    (dir.stripDir? p).isSome = true ↔ dir.components <+: p.components := by
  unfold stripDir?
  split
  case h_1 hdir => simp [hdir]
  case h_2 st first rest hdir hpieces =>
    rw [components_of_pieces hpieces, hdir]
    by_cases habsolute : p.isAbsolute = true
    · rw [if_pos habsolute, if_pos habsolute, Option.isSome_map, isSome_dropSteps_iff,
        List.cons_prefix_cons]
      exact (and_iff_right rfl).symm
    · rw [if_neg habsolute, if_neg habsolute]
      refine iff_of_false Bool.false_ne_true fun hstart => ?_
      split_ifs at hstart
      · exact absurd (List.cons_prefix_cons.1 hstart).1 (by decide)
      · exact (ne_of_mem_steps (hstart.subset List.mem_cons_self)).1 rfl
  case h_3 st first rest hdir hpieces =>
    rw [components_of_pieces hpieces, hdir]
    by_cases hfirst : first = "."
    · rw [if_pos hfirst, if_neg (not_isAbsolute_of_ne hpieces (by simp [hfirst])), if_pos hfirst,
        Option.isSome_map, isSome_dropSteps_iff, List.cons_prefix_cons]
      exact (and_iff_right rfl).symm
    · rw [if_neg hfirst, if_neg hfirst]
      refine iff_of_false Bool.false_ne_true fun hstart => ?_
      split_ifs at hstart
      · exact absurd (List.cons_prefix_cons.1 hstart).1 (by decide)
      · exact (ne_of_mem_steps (hstart.subset List.mem_cons_self)).2 rfl
  case h_4 first rest hpieces hne hroot hhere =>
    rw [components_of_pieces hpieces]
    rcases hdir : dir.components with _ | ⟨step, st⟩
    · exact absurd hdir hne
    have hstep : step ≠ .root ∧ step ≠ .here := by
      constructor
      · rintro rfl
        exact hroot st hdir
      · rintro rfl
        exact hhere st hdir
    by_cases habsolute : p.isAbsolute = true
    · simp [habsolute, List.cons_prefix_cons, hstep.1]
    by_cases hfirst : first = "."
    · simp [habsolute, hfirst, List.cons_prefix_cons, hstep.2]
    · simp [habsolute, hfirst, isSome_dropSteps_iff]
  case h_5 hpieces _ => exact absurd hpieces (pieces_ne_nil p)

/-- The rest of a path behind a directory that has components: its pieces from one that counts on. -/
structure Splits (dir p : Path) (front back : List RawText) : Prop where
  front_ne : front ≠ []
  pieces : p.pieces = front ++ back
  components : p.components = dir.components ++ steps back
  head : ∀ piece ∈ back.head?, isIdle piece = false

theorem splits_of_dropSteps {dir p : Path} {first : RawText} {rest back : List RawText}
    {lead st : List Component} (hpieces : p.pieces = first :: rest)
    (hp : p.components = lead ++ steps rest) (hdir : dir.components = lead ++ st)
    (h : dropSteps st rest = some back) : ∃ front, Splits dir p front back := by
  obtain ⟨⟨middle, rfl, hmiddle⟩, hhead⟩ := exists_of_dropSteps h
  refine ⟨first :: middle, List.cons_ne_nil _ _, hpieces, ?_, hhead⟩
  rw [hp, hdir, steps_append, hmiddle, List.append_assoc]

theorem exists_of_stripDir? {dir p inner : Path} (h : dir.stripDir? p = some inner) :
    dir.components = [] ∧ inner = ofPieces (trimEnd p.pieces) ∨
    ∃ front back, Splits dir p front back ∧ inner = ofPieces (trimEnd back) := by
  unfold stripDir? at h
  split at h
  case h_1 hdir =>
    cases h
    exact Or.inl ⟨hdir, rfl⟩
  case h_2 st first rest hdir hpieces =>
    split_ifs at h with habsolute
    obtain ⟨back, hdrop, rfl⟩ := Option.map_eq_some_iff.1 h
    have hp : p.components = [.root] ++ steps rest := by
      rw [components_of_pieces hpieces, if_pos habsolute, List.singleton_append]
    obtain ⟨front, hsplits⟩ := splits_of_dropSteps hpieces hp hdir hdrop
    exact Or.inr ⟨front, back, hsplits, rfl⟩
  case h_3 st first rest hdir hpieces =>
    split_ifs at h with hfirst
    obtain ⟨back, hdrop, rfl⟩ := Option.map_eq_some_iff.1 h
    have hp : p.components = [.here] ++ steps rest := by
      rw [components_of_pieces hpieces, if_neg (not_isAbsolute_of_ne hpieces (by simp [hfirst])),
        if_pos hfirst, List.singleton_append]
    obtain ⟨front, hsplits⟩ := splits_of_dropSteps hpieces hp hdir hdrop
    exact Or.inr ⟨front, back, hsplits, rfl⟩
  case h_4 first rest hpieces hne _ _ =>
    split_ifs at h with hlead
    rw [Bool.or_eq_true, decide_eq_true_eq, not_or] at hlead
    obtain ⟨back, hdrop, rfl⟩ := Option.map_eq_some_iff.1 h
    obtain ⟨⟨front, hfront, hsteps⟩, hhead⟩ := exists_of_dropSteps hdrop
    refine Or.inr ⟨front, back, ⟨?_, hpieces.trans hfront, ?_, hhead⟩, rfl⟩
    · rintro rfl
      exact hne hsteps.symm
    · rw [components_of_pieces hpieces, if_neg hlead.1, if_neg hlead.2, hfront, steps_append, hsteps]
  case h_5 => cases h

/-- The text of `inner` ends that of `p`, and its components follow those of `dir`. -/
structure IsBehind (dir p inner : Path) : Prop where
  components_eq : p.components = dir.components ++ inner.components
  suffix : inner.raw.bytes <:+ p.raw.bytes

/-- The whole rest of the path `p` behind the directory `dir`. -/
structure IsRest (dir p inner : Path) : Prop extends IsBehind dir p inner where
  longest : ∀ other, IsBehind dir p other → other.raw.bytes.length ≤ inner.raw.bytes.length

theorem Splits.isBehind {dir p : Path} {front back : List RawText} (h : Splits dir p front back) :
    IsBehind dir p (ofPieces back) := by
  constructor
  · rw [h.components, components_ofPieces ?_ h.head]
    exact fun piece hpiece => not_mem_of_mem_pieces (h.pieces ▸ List.mem_append_right _ hpiece)
  · cases back with
    | nil => exact List.nil_suffix
    | cons piece rest =>
      rw [← ofPieces_pieces p, h.pieces, ofPieces_append h.front_ne (List.cons_ne_nil _ _),
        RawText.bytes_append]
      exact List.suffix_append _ _

/-- An end of the text that starts further to the front has more components. -/
theorem Splits.isRest {dir p : Path} {front back : List RawText} (h : Splits dir p front back) :
    IsRest dir p (ofPieces back) := by
  refine ⟨h.isBehind, fun other hother => ?_⟩
  have hcomponents : other.components = steps back := by
    have heq := h.components
    rw [hother.components_eq] at heq
    exact List.append_cancel_left heq
  cases back with
  | nil =>
    have hempty : other.raw = "" := raw_eq_empty_of_components hcomponents
    simp [hempty]
  | cons piece rest =>
    have hpieces : (ofPieces (piece :: rest)).pieces = piece :: rest := by
      refine pieces_ofPieces (List.cons_ne_nil _ _) fun name hname => ?_
      exact not_mem_of_mem_pieces (h.pieces ▸ List.mem_append_right _ hname)
    -- A longer end would start in front of the slash, where some component stands already.
    by_contra hlonger
    have hslash : slash :: (ofPieces (piece :: rest)).raw.bytes <:+ p.raw.bytes := by
      rw [← ofPieces_pieces p, h.pieces, ofPieces_append h.front_ne (List.cons_ne_nil _ _)]
      simp
    obtain ⟨before, hbefore⟩ := List.suffix_of_suffix_length_le hslash hother.suffix
      (by rw [List.length_cons]; omega)
    have hraw : other.raw = ⟨before⟩ ++ "/" ++ (ofPieces (piece :: rest)).raw := by
      rw [← RawText.bytes_inj, ← hbefore]
      simp
    have hmore := components_slash ⟨before⟩ (ofPieces (piece :: rest)).raw
    rw [← hraw, hcomponents, hpieces] at hmore
    have hnone := raw_eq_empty_of_components (List.self_eq_append_left.1 hmore)
    simp at hnone

/-- **The rest of a path behind a directory,** for a path that ends with a piece that counts. -/
theorem stripDir?_eq_some_iff {dir p inner : Path}
    (hlast : ∀ piece ∈ p.pieces.getLast?, isIdle piece = false) :
    dir.stripDir? p = some inner ↔ IsRest dir p inner := by
  have hrest : ∀ {found}, dir.stripDir? p = some found → IsRest dir p found := by
    intro found hfound
    rcases exists_of_stripDir? hfound with ⟨hdir, rfl⟩ | ⟨front, back, hsplits, rfl⟩
    · rw [trimEnd_eq_self hlast, ofPieces_pieces]
      exact ⟨⟨by rw [hdir, List.nil_append], List.suffix_rfl⟩, fun other h => h.suffix.length_le⟩
    · rw [trimEnd_eq_self]
      · exact hsplits.isRest
      · intro piece hpiece
        apply hlast
        rw [hsplits.pieces, List.getLast?_append, Option.mem_def.1 hpiece]
        rfl
  refine ⟨hrest, fun h => ?_⟩
  have hsome : (dir.stripDir? p).isSome = true := by
    rw [isSome_stripDir?_iff, h.components_eq]
    exact List.prefix_append _ _
  obtain ⟨found, hfound⟩ := Option.isSome_iff_exists.1 hsome
  have hfound' := hrest hfound
  have hsame : inner.raw.bytes <:+ found.raw.bytes :=
    List.suffix_of_suffix_length_le h.suffix hfound'.suffix (hfound'.longest inner h.toIsBehind)
  have hraw := RawText.bytes_inj.1 (hsame.eq_of_length_le (h.longest found hfound'.toIsBehind))
  exact hfound.trans (congrArg (some ∘ mk) hraw.symm)

end Path

end DependencyLint
