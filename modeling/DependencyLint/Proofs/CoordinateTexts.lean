import DependencyLint.Proofs.EncodedManifest

/-!
# Texts of coordinates

A coordinate is written `group:artifact:version`. Reading a text and writing a coordinate are inverse
to each other, where the texts are those with two colons and three parts that are not empty
(`Coordinate.IsText`), and the coordinates those with parts that are not empty and hold no colon
(`Coordinate.IsWritable`).

The second condition is not checked anywhere, but every coordinate in a manifest was read from a text
and meets it. These are all coordinates that meet it (`Coordinate.isListed_iff`). Parts with colons
would not do: the text would no longer tell where a part ends.
-/

namespace DependencyLint

theorem Text.length_splitOn (cs : List Char) (sep : Char) :
    (cs.splitOn sep).length = cs.count sep + 1 := by
  induction cs with
  | nil => rfl
  | cons c cs ih =>
    rw [List.splitOn_cons_eq_if_modifyHead, List.count_cons]
    split_ifs with hc
    · rw [List.length_cons, ih]
    · rw [List.length_modifyHead, ih, Nat.add_zero]

namespace Coordinate

variable {c d : Coordinate} {text : String}

/-! ## Reading and writing -/

/-- The text has two colons, and there is something before, between and behind them. -/
def IsText (text : String) : Prop :=
  text.toList.count ':' = 2 ∧ ∀ part ∈ text.toList.splitOn ':', part ≠ []

instance (text : String) : Decidable (IsText text) :=
  inferInstanceAs
    (Decidable (text.toList.count ':' = 2 ∧ ∀ part ∈ text.toList.splitOn ':', part ≠ []))

/-- A text is read as the coordinate that is written so. -/
theorem parse_eq_ok_iff : parse text = .ok c ↔ c.IsWritable ∧ c.render = text := by
  constructor
  · exact isWritable_of_parse
  · rintro ⟨hc, rfl⟩
    exact parse_render hc

theorem IsWritable.isText_render (h : c.IsWritable) : IsText c.render := by
  have hcount := Text.length_splitOn c.render.toList ':'
  rw [h.splitOn_render] at hcount
  refine ⟨by simpa using hcount.symm, ?_⟩
  rw [h.splitOn_render]
  simp only [IsWritable, List.forall_mem_cons] at h
  obtain ⟨⟨hgroup, -⟩, ⟨hartifact, -⟩, ⟨hversion, -⟩, -⟩ := h
  simp [hgroup, hartifact, hversion]

theorem IsText.exists_parse (h : IsText text) : ∃ c, parse text = .ok c := by
  obtain ⟨hcount, hparts⟩ := h
  have hthree : (text.toList.splitOn ':').length = 3 := by
    rw [Text.length_splitOn, hcount]
  obtain ⟨group, artifact, version, hsplit⟩ := List.length_eq_three.1 hthree
  rw [hsplit] at hparts
  simp only [List.forall_mem_cons] at hparts
  obtain ⟨hgroup, hartifact, hversion, -⟩ := hparts
  refine ⟨⟨String.ofList group, String.ofList artifact, String.ofList version⟩, ?_⟩
  rw [parse, colonPieces_eq_splitOn, hsplit]
  simp [hgroup, hartifact, hversion]

/-- The texts that can be read. -/
theorem exists_parse_iff : (∃ c, parse text = .ok c) ↔ IsText text := by
  constructor
  · rintro ⟨c, h⟩
    obtain ⟨hc, rfl⟩ := isWritable_of_parse h
    exact hc.isText_render
  · exact IsText.exists_parse

/-- The key of a library tells its group and its artifact. -/
theorem sameModule_iff_moduleKey (hc : c.IsPlain) (hd : d.IsPlain) :
    c.sameModule d = true ↔ c.moduleKey = d.moduleKey := by
  have hkey : ∀ e : Coordinate, e.moduleKey.toList = e.group.toList ++ ':' :: e.artifact.toList := by
    intro e
    simp [moduleKey]
  rw [sameModule, Bool.and_eq_true, decide_eq_true_eq, decide_eq_true_eq]
  constructor
  · rintro ⟨hgroup, hartifact⟩
    rw [moduleKey, moduleKey, hgroup, hartifact]
  · intro h
    rw [← String.toList_inj, hkey, hkey] at h
    obtain ⟨hgroup, hartifact⟩ := eq_of_append_cons hc.1 hd.1 h
    exact ⟨String.toList_inj.1 hgroup, String.toList_inj.1 hartifact⟩

/-- With a colon in a part, two libraries can have one key. -/
example : (Coordinate.mk "a:b" "c" "1").moduleKey = (Coordinate.mk "a" "b:c" "1").moduleKey ∧
    (Coordinate.mk "a:b" "c" "1").sameModule ⟨"a", "b:c", "1"⟩ = false := by decide

/-! ## Coordinates in manifests -/

/-- The coordinate stands in a manifest that can be read. -/
def IsListed (c : Coordinate) : Prop :=
  ∃ text base manifest, Manifest.parse text base = .ok manifest ∧
    ∃ m ∈ manifest.modules, c ∈ m.coordinates

/-- A module that declares one library. -/
def declaringModule (c : Coordinate) : BuildModule where
  id := ""
  directory := ⟨""⟩
  configurations := [{ name := "", dependencies := [.onLibrary c] }]

theorem coordinates_declaringModule (c : Coordinate) : c.declaringModule.coordinates = [c] := rfl

theorem paths_declaringModule (c : Coordinate) : c.declaringModule.paths = [⟨"src"⟩, ⟨""⟩] := rfl

/-- Every coordinate that can be written is read from the manifest that declares it. -/
theorem IsWritable.isListed (h : c.IsWritable) : c.IsListed := by
  have hcoordinates : ∀ m ∈ [c.declaringModule], ∀ d ∈ m.coordinates, d.IsWritable := by
    simpa [coordinates_declaringModule] using h
  have hutf8 : ∀ m ∈ [c.declaringModule], ∀ path ∈ m.paths, path.IsUtf8 := by
    intro m hm
    rw [List.mem_singleton.1 hm, paths_declaringModule]
    decide +kernel
  refine ⟨_, ⟨""⟩, ⟨[Manifest.rebaseModule ⟨""⟩ c.declaringModule]⟩,
    Manifest.parse_of_tokens hcoordinates hutf8 rfl, _, List.mem_singleton_self _, ?_⟩
  rw [Manifest.coordinates_rebaseModule, coordinates_declaringModule]
  exact List.mem_singleton_self c

/-- **The coordinates in manifests are those that can be written.** -/
theorem isListed_iff : c.IsListed ↔ c.IsWritable := by
  constructor
  · rintro ⟨text, base, manifest, hparse, m, hm, hc⟩
    exact Manifest.isWritable_of_parse hparse m hm c hc
  · exact IsWritable.isListed

theorem IsListed.isPlain (h : c.IsListed) : c.IsPlain := (isListed_iff.1 h).isPlain

end Coordinate

/-! ## Lists of texts -/

/-- The coordinates whose texts are in a list. Other texts are passed over. -/
def coordinatesIn (texts : List String) : List Coordinate :=
  texts.filterMap fun text => (Coordinate.parse text).toOption

theorem mem_coordinatesIn_iff {texts : List String} {c : Coordinate} (hc : c.IsWritable) :
    c ∈ coordinatesIn texts ↔ c.render ∈ texts := by
  rw [coordinatesIn, List.mem_filterMap]
  constructor
  · rintro ⟨text, hmem, hparse⟩
    obtain ⟨-, rfl⟩ := Coordinate.isWritable_of_parse (eq_ok_of_toOption hparse)
    exact hmem
  · intro hmem
    refine ⟨c.render, hmem, ?_⟩
    rw [Coordinate.parse_render hc]
    rfl

end DependencyLint
