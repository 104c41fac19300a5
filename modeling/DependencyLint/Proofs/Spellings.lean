import DependencyLint.Proofs.RelativePaths
import DependencyLint.Proofs.TreeChanges
import DependencyLint.Proofs.UnusedLibraries

/-!
# Spellings of one path

Paths are compared by their components, but files are opened by all pieces of a path. Two spellings of
one path may therefore differ in whether they lead anywhere: a slash behind the name of a file asks
for a directory. They cannot lead to different places, though.

**Main result** (`Archive.classNames_eq_of_same`). Two spellings of the path of a library file give
the same classes, if both of them can be read.
-/

namespace DependencyLint

/-! ## Pieces that count -/

namespace Path

theorem same_iff {p q : Path} : p.same q = true ↔ p.components = q.components := by
  rw [same, decide_eq_true_eq]

theorem same_symm {p q : Path} (h : p.same q = true) : q.same p = true :=
  same_iff.2 (same_iff.1 h).symm

/-- The pieces that name something. -/
def namingPieces (pieces : List RawText) : List RawText := pieces.filter fun piece => !isIdle piece

theorem stepOf_injective : Function.Injective stepOf := by
  intro a b h
  unfold stepOf at h
  split_ifs at h with ha hb
  · rw [ha, hb]
  · exact Component.name.inj h

theorem steps_eq_iff {a b : List RawText} : steps a = steps b ↔ namingPieces a = namingPieces b :=
  List.map_inj_right fun _ _ h => stepOf_injective h

/-- The root and a leading `.` are the only components that no piece names. -/
theorem filter_components (p : Path) :
    (p.components.filter fun step => step ≠ .root && step ≠ .here) = steps p.pieces := by
  have hsteps : ∀ pieces : List RawText,
      ((steps pieces).filter fun step => step ≠ .root && step ≠ .here) = steps pieces := by
    intro pieces
    rw [List.filter_eq_self]
    intro step hstep
    simpa using ne_of_mem_steps hstep
  rcases hp : p.pieces with _ | ⟨first, rest⟩
  · exact absurd hp (pieces_ne_nil p)
  rw [components_of_pieces hp]
  split_ifs with habsolute hfirst
  · have hempty : first = "" := by
      have hhead := head?_pieces_eq_iff.2 (Or.inl habsolute)
      rw [hp] at hhead
      exact Option.some.inj hhead
    rw [steps_cons_of_idle (by simp [isIdle, hempty]), List.filter_cons_of_neg (by simp), hsteps]
  · rw [steps_cons_of_idle (by simp [isIdle, hfirst]), List.filter_cons_of_neg (by simp), hsteps]
  · rw [hsteps]

theorem namingPieces_eq_of_same {p q : Path} (h : p.same q = true) :
    namingPieces p.pieces = namingPieces q.pieces := by
  rw [← steps_eq_iff, ← filter_components p, ← filter_components q, same_iff.1 h]

/-- Only absolute paths start at the root. -/
theorem isAbsolute_iff {p : Path} : p.isAbsolute = true ↔ .root ∈ p.components := by
  rcases hp : p.pieces with _ | ⟨first, rest⟩
  · exact absurd hp (pieces_ne_nil p)
  rw [components_of_pieces hp]
  have hsteps : ∀ pieces : List RawText, .root ∉ steps pieces := fun _ hroot =>
    (ne_of_mem_steps hroot).1 rfl
  split_ifs with habsolute hfirst
  · simp [habsolute]
  · simp [habsolute, hsteps]
  · simp [habsolute, hsteps]

theorem isAbsolute_eq_of_same {p q : Path} (h : p.same q = true) : p.isAbsolute = q.isAbsolute := by
  rw [Bool.eq_iff_iff, isAbsolute_iff, isAbsolute_iff, same_iff.1 h]

end Path

/-! ## Where a path leads -/

namespace FileTree

/-- A path that leads somewhere leads there also without its idle pieces. -/
theorem follow_namingPieces {tree : FileTree} {here place : Place} {pieces : List RawText}
    (h : tree.follow here pieces = some place) :
    tree.follow here (Path.namingPieces pieces) = some place := by
  induction pieces generalizing here with
  | nil => exact h
  | cons piece pieces ih =>
    obtain ⟨next, hstep, hrest⟩ := Option.bind_eq_some_iff.1 h
    by_cases hidle : Path.isIdle piece = true
    · have hnext : next = here := by
        rcases step?_eq_some_iff.1 hstep with ⟨-, -, hnext⟩ | ⟨-, -, hnext⟩ | ⟨rfl, -⟩ | ⟨hname, -⟩
        · exact hnext
        · exact hnext
        · cases hidle
        · simp [Path.isName, hidle] at hname
      rw [Path.namingPieces, List.filter_cons_of_neg (by simp [hidle])]
      exact ih (hnext ▸ hrest)
    · rw [Path.namingPieces, List.filter_cons_of_pos (by simpa using hidle), follow_cons hstep]
      exact ih hrest

end FileTree

namespace FileSystem

/-- **Two spellings of one path lead to one place,** if both of them lead anywhere. -/
theorem find?_eq_of_same {files : FileSystem} {p q : Path} (h : p.same q = true) {a b : FileTree}
    (hp : files.find? p = some a) (hq : files.find? q = some b) : a = b := by
  obtain ⟨place, hplace, ha⟩ := Option.bind_eq_some_iff.1 hp
  obtain ⟨place', hplace', hb⟩ := Option.bind_eq_some_iff.1 hq
  rw [place?] at hplace hplace'
  split_ifs at hplace hplace'
  have hstart : files.start p = files.start q := by
    rw [start, start, Path.isAbsolute_eq_of_same h]
  have hone : some place = some place' := by
    rw [← FileTree.follow_namingPieces hplace, ← FileTree.follow_namingPieces hplace',
      Path.namingPieces_eq_of_same h, hstart]
  cases hone
  exact Option.some.inj (ha.symm.trans hb)

end FileSystem

/-! ## Classes of a file -/

namespace Archive

theorem isArchive_eq_of_same {p q : Path} (h : p.same q = true) : isArchive p = isArchive q := by
  unfold isArchive Path.fileName?
  rw [Path.same_iff.1 h]

/-- Classes of an archive come from a file that the path leads to. -/
theorem classNames_of_isArchive {files : FileSystem} {p : Path} {names : List String}
    (harchive : isArchive p = true) (h : classNames files p = .ok names) :
    ∃ access content, files.find? p = some (.fileWith access content) ∧
      (classNamesIn maxNesting content).map Text.sortedNames = .ok names := by
  unfold classNames at h
  rw [harchive, Bool.not_true, if_neg Bool.false_ne_true] at h
  cases hfind : files.find? p with
  | none => rw [hfind] at h; cases h
  | some found =>
    rw [hfind] at h
    cases found with
    | dirWith access entries => cases h
    | fileWith access content =>
      dsimp only at h
      split_ifs at h
      exact ⟨access, content, rfl, h⟩

/-- **Two spellings of one path give the same classes,** if both of them can be read. -/
theorem classNames_eq_of_same {files : FileSystem} {p q : Path} (h : p.same q = true)
    {a b : List String} (hp : classNames files p = .ok a) (hq : classNames files q = .ok b) :
    a = b := by
  have harchive := isArchive_eq_of_same h
  cases hq' : isArchive q with
  | false =>
    -- A file that is no archive by its name has no classes in either spelling.
    have hnone : ∀ {r : Path}, isArchive r = false → classNames files r = .ok [] := by
      intro r hr
      unfold classNames
      rw [hr, Bool.not_false, if_pos rfl]
    rw [hnone (harchive.trans hq')] at hp
    rw [hnone hq'] at hq
    exact Except.ok.inj (hp.symm.trans hq)
  | true =>
    obtain ⟨access, content, hfile, hnames⟩ := classNames_of_isArchive (harchive.trans hq') hp
    obtain ⟨access', content', hfile', hnames'⟩ := classNames_of_isArchive hq' hq
    cases FileSystem.find?_eq_of_same h hfile hfile'
    exact Except.ok.inj (hnames.symm.trans hnames')

end Archive

/-! ## Classes of a library -/

/-- Every file of the library `r` is a file of the library `r'`, in this or another spelling. -/
def FilesAmong (r r' : ResolvedLibrary) : Prop :=
  ∀ path ∈ r.artifacts, ∃ path' ∈ r'.artifacts, path.same path' = true

namespace Project

variable {project : Project} {r r' : ResolvedLibrary}

theorem canIndex_of_classes_ok {found : List String} (h : r.classes project.files = .ok found) :
    project.CanIndex r := by
  obtain ⟨lists, hlists, -⟩ := bind_eq_ok h
  intro path hpath
  obtain ⟨names, hnames⟩ := forall_of_mapM_ok hlists path hpath
  cases hclasses : Archive.classNames project.files path with
  | error e => rw [hclasses] at hnames; cases hnames
  | ok names => exact ⟨names, rfl⟩

theorem mem_classes_iff {found : List String} (h : r.classes project.files = .ok found)
    {name : String} : name ∈ found ↔ project.HasClass r name := by
  obtain ⟨found', h', hmem⟩ := exists_classes (canIndex_of_classes_ok h)
  cases h.symm.trans h'
  exact hmem name

theorem classes_ok_iff : (∃ found, r.classes project.files = .ok found) ↔ project.CanIndex r := by
  constructor
  · rintro ⟨found, h⟩
    exact canIndex_of_classes_ok h
  · intro h
    obtain ⟨found, hfound, -⟩ := exists_classes h
    exact ⟨found, hfound⟩

/-- A class of one library is a class of another that has its files and can be read. -/
theorem HasClass.of_filesAmong (h : FilesAmong r r') (hindex : project.CanIndex r') {name : String}
    (hname : project.HasClass r name) : project.HasClass r' name := by
  obtain ⟨path, hpath, names, hnames, hmem⟩ := hname
  obtain ⟨path', hpath', hsame⟩ := h path hpath
  obtain ⟨names', hnames'⟩ := hindex path' hpath'
  rw [Archive.classNames_eq_of_same hsame hnames hnames'] at hmem
  exact ⟨path', hpath', names', hnames', hmem⟩

end Project

end DependencyLint
