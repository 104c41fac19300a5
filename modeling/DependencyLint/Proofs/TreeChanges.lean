import DependencyLint.FileSystem
import DependencyLint.Proofs.EncodedText
import Mathlib.Data.List.Infix
import Mathlib.Tactic.SplitIfs

/-!
# Writing files

Writing a file creates the directories above it that are missing. Nothing else in the file tree
changes, whether the file can be written in the end or not.

A tree is seen as the nodes that stand at its places (`node?`): nothing, a directory, or a file with
its content, both with their access. Creating a directory and writing a file both put a single node
into a directory, at a place where no directory stands (`node?_put`). What a whole walk along a path
does follows by induction along its pieces (`growsAlong_makeDirsFrom`).
-/

namespace DependencyLint

namespace FileTree

/-! ## Nodes -/

/-- A file or a directory, without what is below it. -/
inductive Node where
  | directory (access : Access)
  | file (access : Access) (content : ByteArray)

def node : FileTree → Node
  | .dirWith access _ => .directory access
  | .fileWith access content => .file access content

/-- The node at a place. -/
def node? (place : Place) (tree : FileTree) : Option Node := (tree.at? place).map node

variable {tree after : FileTree} {here next place : Place} {piece : RawText}

theorem isDirAt_iff :
    tree.isDirAt place = true ↔ ∃ access, tree.node? place = some (.directory access) := by
  unfold isDirAt node?
  rcases tree.at? place with _ | _ | _ <;> simp [isDir, node]

theorem isOpenAt_iff : tree.isOpenAt place = true ↔
    ∃ access : Access, tree.node? place = some (.directory access) ∧ access.search = true := by
  unfold isOpenAt node?
  rcases tree.at? place with _ | _ | _ <;> simp [isOpen, node]

theorem isDirAt_of_isOpenAt (h : tree.isOpenAt place = true) : tree.isDirAt place = true := by
  obtain ⟨access, hnode, -⟩ := isOpenAt_iff.1 h
  exact isDirAt_iff.2 ⟨access, hnode⟩

theorem isOpenAt_of_isExtensibleAt (h : tree.isExtensibleAt place = true) :
    tree.isOpenAt place = true := by
  unfold isExtensibleAt at h
  unfold isOpenAt
  rcases hat : tree.at? place with _ | _ | ⟨access, entries⟩ <;> rw [hat] at h
  · cases h
  · cases h
  · exact (Bool.and_eq_true_iff.1 h).1

theorem isSome_at? : (tree.at? place).isSome = (tree.node? place).isSome := by
  rw [node?, Option.isSome_map]

theorem at?_of_node?_file {access : Access} {content : ByteArray}
    (h : tree.node? place = some (.file access content)) :
    tree.at? place = some (.fileWith access content) := by
  obtain ⟨found, hat, hnode⟩ := Option.map_eq_some_iff.1 h
  cases found with
  | fileWith access' content' =>
    cases hnode
    exact hat
  | dirWith access' entries => cases hnode

theorem node?_cons (name : RawText) (place : Place) (tree : FileTree) :
    tree.node? (name :: place) = (tree.child? name).bind (node? place) := by
  unfold node?
  rw [at?, Option.map_bind]
  rfl

/-! ## Putting a node into a directory -/

/-- A node is put below one entry of a directory, which is new if there is none of that name. -/
theorem child?_put (new : FileTree) (name : RawText) (place : Place) (other : RawText)
    (hdir : tree.isDir = true) :
    child? other (put new (name :: place) tree) =
      if other = name then some (put new place ((tree.child? name).getD empty))
      else tree.child? other := by
  cases tree with
  | fileWith access content => cases hdir
  | dirWith access entries =>
    by_cases hany : entries.any (·.1 = name) = true
    · rw [put, if_pos hany, child?, List.find?_map, Option.map_map]
      show (entries.find? (·.1 = other)).map _ = _
      cases hother : entries.find? (·.1 = other) with
      | none =>
        have hne : other ≠ name := by
          intro heq
          obtain ⟨entry, hentry, hname⟩ := List.any_eq_true.1 hany
          exact List.find?_eq_none.1 hother entry hentry (heq ▸ hname)
        rw [if_neg hne, child?, hother]
        rfl
      | some entry =>
        have hname : entry.1 = other := by simpa using List.find?_some hother
        subst hname
        by_cases heq : entry.1 = name
        · subst heq
          simp [child?, hother]
        · simp [child?, hother, heq]
    · have hnone : entries.find? (·.1 = name) = none :=
        List.find?_eq_none.2 fun entry hentry hname =>
          hany (List.any_eq_true.2 ⟨entry, hentry, hname⟩)
      rw [put, if_neg hany, child?, List.find?_append]
      by_cases heq : other = name
      · subst heq
        simp [child?, hnone]
      · simp [child?, heq, Ne.symm heq]

theorem node?_put_nil (new : FileTree) (name : RawText) (place : Place) :
    (put new (name :: place) tree).node? [] = tree.node? [] := by
  cases tree with
  | fileWith access content => rfl
  | dirWith access entries =>
    rw [put]
    split_ifs <;> rfl

theorem isDir_of_isDirAt (h : tree.isDirAt place = true) : tree.isDir = true := by
  cases tree with
  | fileWith access content => cases place <;> cases h
  | dirWith access entries => rfl

/-- **Putting a node into a directory changes nothing else.** The node is a file or an empty
directory, and no directory is in its place. -/
theorem node?_put {new : FileTree} {dir : Place} {name : RawText}
    (hnew : ∀ name place, new.node? (name :: place) = none) (hdir : tree.isDirAt dir = true)
    (hfree : tree.isDirAt (dir ++ [name]) = false) (place : Place) :
    (put new (dir ++ [name]) tree).node? place =
      if place = dir ++ [name] then some new.node else tree.node? place := by
  induction dir generalizing tree place with
  | nil =>
    rw [List.nil_append] at hfree ⊢
    rcases place with _ | ⟨other, place⟩
    · exact node?_put_nil new name []
    rw [node?_cons, child?_put new name [] other hdir, put]
    by_cases hother : other = name
    · subst hother
      rcases place with _ | ⟨next, place⟩
      · simp [node?, at?]
      · -- what was there is no directory, so nothing was below it
        have hbelow : tree.node? (other :: next :: place) = none := by
          rw [node?_cons]
          rw [isDirAt, at?] at hfree
          rcases hentry : tree.child? other with _ | _ | _
          · rfl
          · rfl
          · rw [hentry] at hfree
            cases hfree
        simp [hnew, hbelow]
    · simp [hother, node?_cons]
  | cons first dir ih =>
    have hroot := isDir_of_isDirAt hdir
    rw [List.cons_append] at hfree ⊢
    rcases place with _ | ⟨other, place⟩
    · exact node?_put_nil new first (dir ++ [name])
    rw [node?_cons, child?_put new first (dir ++ [name]) other hroot, node?_cons]
    by_cases hother : other = first
    · subst hother
      rw [isDirAt, at?] at hdir hfree
      cases hentry : tree.child? other with
      | none =>
        rw [hentry] at hdir
        cases hdir
      | some sub =>
        rw [hentry] at hdir hfree
        simpa using ih hdir hfree place
    · simp [hother]

/-! ## Following a path -/

/-- All that a piece of a path can do. -/
theorem step?_eq_some_iff : tree.step? here piece = some next ↔
    piece = "" ∧ tree.isDirAt here = true ∧ next = here ∨
    piece = "." ∧ tree.isOpenAt here = true ∧ next = here ∨
    piece = ".." ∧ tree.isOpenAt here = true ∧ next = here.dropLast ∨
    Path.isName piece = true ∧ tree.isOpenAt here = true ∧
      (tree.at? (here ++ [piece])).isSome ∧ next = here ++ [piece] := by
  unfold step?
  by_cases hempty : piece = ""
  · simp [hempty, Path.isName, Path.isIdle, @eq_comm _ next]
  by_cases hdot : piece = "."
  · simp [hdot, Path.isName, Path.isIdle, @eq_comm _ next]
  by_cases hup : piece = ".."
  · simp [hup, Path.isName, Path.isIdle, @eq_comm _ next]
  · simp [hempty, hdot, hup, Path.isName, Path.isIdle, @eq_comm _ next]

/-- Where an open directory cannot be left along a piece, it lacks an entry of that name. -/
theorem of_step?_eq_none (hopen : tree.isOpenAt here = true) (h : tree.step? here piece = none) :
    Path.isName piece = true ∧ tree.at? (here ++ [piece]) = none := by
  have hdir := isDirAt_of_isOpenAt hopen
  simp only [step?, hdir, hopen, Bool.not_true, Bool.false_eq_true, if_true, if_false] at h
  split_ifs at h with hempty hdot hup hsome
  exact ⟨by simp [Path.isName, Path.isIdle, hempty, hdot, hup], by simpa using hsome⟩

theorem step?_name (hname : Path.isName piece = true) (hopen : tree.isOpenAt here = true)
    (hsome : (tree.at? (here ++ [piece])).isSome) : tree.step? here piece = some (here ++ [piece]) :=
  step?_eq_some_iff.2 (Or.inr (Or.inr (Or.inr ⟨hname, hopen, hsome, rfl⟩)))

theorem follow_cons {pieces : List RawText} (h : tree.step? here piece = some next) :
    tree.follow here (piece :: pieces) = tree.follow next pieces := by
  rw [follow, h, Option.bind_some]

theorem follow_append (front pieces : List RawText) :
    tree.follow here (front ++ pieces) = (tree.follow here front).bind (tree.follow · pieces) := by
  induction front generalizing here with
  | nil => rfl
  | cons piece front ih =>
    rw [List.cons_append, follow, follow, Option.bind_assoc]
    exact congrArg _ (funext fun _ => ih)

/-- What there was is there still, and directories are directories with the same access. -/
structure Keeps (tree after : FileTree) : Prop where
  directory : ∀ place access, tree.node? place = some (.directory access) →
    after.node? place = some (.directory access)
  node : ∀ place, (tree.at? place).isSome → (after.at? place).isSome

/-- A tree is kept where only what is new differs. -/
theorem keeps_of_node?
    (h : ∀ place, after.node? place = tree.node? place ∨ tree.node? place = none) :
    Keeps tree after := by
  have hnode : ∀ place, (tree.node? place).isSome → after.node? place = tree.node? place := by
    intro place hplace
    refine (h place).resolve_right fun hnone => ?_
    rw [hnone] at hplace
    cases hplace
  constructor
  · intro place access hplace
    rw [hnode place (by rw [hplace]; rfl), hplace]
  · intro place hplace
    rw [isSome_at?] at hplace ⊢
    rwa [hnode place hplace]

section Keeps

variable (h : Keeps tree after)
include h

theorem Keeps.isDirAt (hdir : tree.isDirAt place = true) : after.isDirAt place = true := by
  obtain ⟨access, hnode⟩ := isDirAt_iff.1 hdir
  exact isDirAt_iff.2 ⟨access, h.directory place access hnode⟩

theorem Keeps.isOpenAt (hopen : tree.isOpenAt place = true) : after.isOpenAt place = true := by
  obtain ⟨access, hnode, hsearch⟩ := isOpenAt_iff.1 hopen
  exact isOpenAt_iff.2 ⟨access, h.directory place access hnode, hsearch⟩

theorem Keeps.step? (hstep : tree.step? here piece = some next) :
    after.step? here piece = some next := by
  rw [step?_eq_some_iff] at hstep ⊢
  rcases hstep with ⟨hpiece, hdir, hnext⟩ | ⟨hpiece, hopen, hnext⟩ | ⟨hpiece, hopen, hnext⟩ |
    ⟨hname, hopen, hsome, hnext⟩
  · exact Or.inl ⟨hpiece, h.isDirAt hdir, hnext⟩
  · exact Or.inr (Or.inl ⟨hpiece, h.isOpenAt hopen, hnext⟩)
  · exact Or.inr (Or.inr (Or.inl ⟨hpiece, h.isOpenAt hopen, hnext⟩))
  · exact Or.inr (Or.inr (Or.inr ⟨hname, h.isOpenAt hopen, h.node _ hsome, hnext⟩))

/-- A path goes on leading to the same place. -/
theorem Keeps.follow {pieces : List RawText} (hfollow : tree.follow here pieces = some place) :
    after.follow here pieces = some place := by
  induction pieces generalizing here with
  | nil => exact hfollow
  | cons piece pieces ih =>
    obtain ⟨next, hstep, hrest⟩ := Option.bind_eq_some_iff.1 hfollow
    rw [follow_cons (h.step? hstep)]
    exact ih hrest

end Keeps

/-! ## Creating directories -/

/-- The changes along a path from `here`: where there was nothing, there may be a directory that the
path leads through. -/
def GrowsAlong (tree after : FileTree) (here : Place) (pieces : List RawText) : Prop :=
  ∀ place, after.node? place = tree.node? place ∨
    tree.node? place = none ∧ after.node? place = some (.directory {}) ∧
      ∃ front, front <+: pieces ∧ after.follow here front = some place

theorem GrowsAlong.refl (tree : FileTree) (here : Place) (pieces : List RawText) :
    GrowsAlong tree tree here pieces := fun _ => Or.inl rfl

theorem GrowsAlong.keeps {pieces : List RawText} (h : GrowsAlong tree after here pieces) :
    Keeps tree after :=
  keeps_of_node? fun place => (h place).imp_right And.left

/-- A step along the path that leads from `here` to `next`. -/
theorem GrowsAlong.cons {pieces : List RawText} (h : GrowsAlong tree after next pieces)
    (hstep : after.step? here piece = some next) : GrowsAlong tree after here (piece :: pieces) := by
  intro place
  refine (h place).imp_right ?_
  rintro ⟨hnone, hdir, front, hfront, hfollow⟩
  exact ⟨hnone, hdir, piece :: front, (List.prefix_cons_inj piece).2 hfront,
    (follow_cons hstep).trans hfollow⟩

theorem node?_put_empty (hhere : tree.isDirAt here = true)
    (hnone : tree.at? (here ++ [piece]) = none) (place : Place) :
    (put empty (here ++ [piece]) tree).node? place =
      if place = here ++ [piece] then some (.directory {}) else tree.node? place :=
  node?_put (fun _ _ => rfl) hhere (by rw [isDirAt, hnone]; rfl) place

/-- A directory that is created in front of the rest of the path. -/
theorem GrowsAlong.create {pieces : List RawText} (hhere : tree.isDirAt here = true)
    (hnone : tree.at? (here ++ [piece]) = none)
    (h : GrowsAlong (put empty (here ++ [piece]) tree) after (here ++ [piece]) pieces) :
    GrowsAlong tree after (here ++ [piece]) pieces := by
  intro place
  have hput := node?_put_empty hhere hnone place
  by_cases hplace : place = here ++ [piece]
  · rw [if_pos hplace] at hput
    have hbefore : tree.node? place = none := by rw [hplace, node?, hnone]; rfl
    refine Or.inr ⟨hbefore, ?_, [], List.nil_prefix, by rw [hplace]; rfl⟩
    rcases h place with hsame | ⟨-, hdir, -⟩
    · rw [hsame, hput]
    · exact hdir
  · rw [if_neg hplace] at hput
    rw [← hput]
    exact h place

/-- **Creating directories changes nothing else.** -/
theorem growsAlong_makeDirsFrom (tree : FileTree) (here : Place) (pieces : List RawText) :
    GrowsAlong tree (tree.makeDirsFrom here pieces).1 here pieces := by
  induction pieces generalizing tree here with
  | nil => exact GrowsAlong.refl tree here []
  | cons piece pieces ih =>
    have hrefl := GrowsAlong.refl tree here (piece :: pieces)
    rw [makeDirsFrom]
    cases hstep : tree.step? here piece with
    | some next =>
      dsimp only
      split_ifs
      · have hgrows := ih tree next
        exact hgrows.cons (hgrows.keeps.step? hstep)
      · exact hrefl
    | none =>
      dsimp only
      split_ifs with hextensible
      · -- the directory is created, and then the path leads through it
        have hopen := isOpenAt_of_isExtensibleAt hextensible
        have hhere := isDirAt_of_isOpenAt hopen
        obtain ⟨hname, hnone⟩ := of_step?_eq_none hopen hstep
        have hlater := ih (put empty (here ++ [piece]) tree) (here ++ [piece])
        have hgrows := hlater.create hhere hnone
        have hmade : ((put empty (here ++ [piece]) tree).at? (here ++ [piece])).isSome := by
          rw [isSome_at?, node?_put_empty hhere hnone, if_pos rfl]
          rfl
        exact hgrows.cons (step?_name hname (hgrows.keeps.isOpenAt hopen) (hlater.keeps.node _ hmade))
      · exact hrefl

/-! ## Putting a file into a directory -/

theorem of_canWriteIn {dir : Place} {name : RawText} (h : tree.canWriteIn dir name = true) :
    tree.isOpenAt dir = true ∧ tree.isDirAt (dir ++ [name]) = false := by
  unfold canWriteIn at h
  rw [isDirAt]
  rcases hat : tree.at? (dir ++ [name]) with _ | ⟨access, content⟩ | ⟨access, entries⟩ <;>
    rw [hat] at h
  · exact ⟨isOpenAt_of_isExtensibleAt h, rfl⟩
  · exact ⟨(Bool.and_eq_true_iff.1 h).1, rfl⟩
  · cases h

/-- The access of a file. A new file in place of a directory would have all of it. -/
def Node.fileAccess : Node → Access
  | .file access _ => access
  | .directory _ => {}

theorem accessAt_eq (tree : FileTree) (place : Place) :
    tree.accessAt place = ((tree.node? place).map Node.fileAccess).getD {} := by
  unfold accessAt node?
  rcases tree.at? place with _ | _ | _ <;> rfl

theorem accessAt_eq_of_node? (h : after.node? place = tree.node? place) :
    after.accessAt place = tree.accessAt place := by
  rw [accessAt_eq, accessAt_eq, h]

section Put

variable {dir : Place} {name : RawText} (h : tree.canWriteIn dir name = true)
include h

theorem node?_put_file (access : Access) (content : ByteArray) (place : Place) :
    (put (.fileWith access content) (dir ++ [name]) tree).node? place =
      if place = dir ++ [name] then some (.file access content) else tree.node? place := by
  obtain ⟨hopen, hfree⟩ := of_canWriteIn h
  exact node?_put (fun _ _ => rfl) (isDirAt_of_isOpenAt hopen) hfree place

theorem keeps_put_file (access : Access) (content : ByteArray) :
    Keeps tree (put (.fileWith access content) (dir ++ [name]) tree) := by
  constructor
  · intro place access' hplace
    have hne : place ≠ dir ++ [name] := by
      rintro rfl
      exact absurd (isDirAt_iff.2 ⟨access', hplace⟩) (by simp [(of_canWriteIn h).2])
    rw [node?_put_file h, if_neg hne, hplace]
  · intro place hplace
    rw [isSome_at?] at hplace ⊢
    rw [node?_put_file h]
    split_ifs
    · rfl
    · exact hplace

end Put

end FileTree

namespace FileSystem

open FileTree

/-! ## Writing a file -/

variable {files : FileSystem} {p : Path} {place : Place} {content : ByteArray}

theorem filePlace?_eq_some (h : files.filePlace? p = some place) :
    ∃ front dir name, p.pieces = front ++ [name] ∧ place = dir ++ [name] ∧ p.hasNul = false ∧
      Path.isName name = true ∧ files.tree.follow (files.start p) front = some dir ∧
      files.tree.canWriteIn dir name = true := by
  obtain ⟨name, hname, h⟩ := Option.bind_eq_some_iff.1 h
  split_ifs at h with hbad
  obtain ⟨dir, hdir, h⟩ := Option.bind_eq_some_iff.1 h
  split_ifs at h with hwrite
  cases h
  simp only [Bool.or_eq_true, not_or, Bool.not_eq_true, Bool.not_eq_false'] at hbad
  exact ⟨_, dir, name, (List.dropLast_append_getLast? name hname).symm, rfl, hbad.1, hbad.2, hdir,
    hwrite⟩

/-- The files after the bytes of one file are written. -/
def putAt (files : FileSystem) (place : Place) (content : ByteArray) : FileSystem :=
  { files with tree := put (.fileWith (files.tree.accessAt place) content) place files.tree }

section Put

variable (hplace : files.filePlace? p = some place)
include hplace

theorem isDirAt_filePlace : files.tree.isDirAt place = false := by
  obtain ⟨front, dir, name, -, rfl, -, -, -, hwrite⟩ := filePlace?_eq_some hplace
  exact (of_canWriteIn hwrite).2

theorem node?_putAt (content : ByteArray) (other : Place) :
    (files.putAt place content).tree.node? other =
      if other = place then some (.file (files.tree.accessAt place) content)
      else files.tree.node? other := by
  obtain ⟨front, dir, name, -, rfl, -, -, -, hwrite⟩ := filePlace?_eq_some hplace
  exact node?_put_file hwrite _ content other

theorem keeps_putAt (content : ByteArray) : Keeps files.tree (files.putAt place content).tree := by
  obtain ⟨front, dir, name, -, rfl, -, -, -, hwrite⟩ := filePlace?_eq_some hplace
  exact keeps_put_file hwrite _ content

/-- The path leads to the file that was written. -/
theorem place?_putAt (content : ByteArray) : (files.putAt place content).place? p = some place := by
  have hkeeps := keeps_putAt hplace content
  have hsome : ((files.putAt place content).tree.at? place).isSome := by
    rw [isSome_at?, node?_putAt hplace, if_pos rfl]
    rfl
  obtain ⟨front, dir, name, hpieces, rfl, hnul, hname, hfollow, hwrite⟩ := filePlace?_eq_some hplace
  have hraw : p.raw ≠ "" := by
    intro hraw
    have hempty : [("" : RawText)] = front ++ [name] := by rw [← hpieces, Path.pieces, hraw]; rfl
    have heq : name = "" := by simpa using (congrArg List.getLast? hempty).symm
    rw [heq] at hname
    cases hname
  have hopen := hkeeps.isOpenAt (of_canWriteIn hwrite).1
  rw [place?, if_neg (by simp [hraw, hnul]), hpieces, follow_append]
  refine (congrArg (Option.bind · _) (hkeeps.follow hfollow)).trans ?_
  rw [Option.bind_some, follow_cons (step?_name hname hopen hsome)]
  rfl

end Put

/-- The changes of creating the directory above a path: where there was nothing, there may be a
directory that its path leads through. -/
structure GrowsAbove (files grown : FileSystem) (p : Path) : Prop where
  workingDir : grown.workingDir = files.workingDir
  node? : ∀ place, grown.tree.node? place = files.tree.node? place ∨
    files.tree.node? place = none ∧ grown.tree.node? place = some (.directory {}) ∧
      ∃ above front, p.parent? = some above ∧ front <+: above.pieces ∧
        grown.tree.follow (grown.start above) front = some place

theorem GrowsAbove.refl (files : FileSystem) (p : Path) : GrowsAbove files files p :=
  ⟨rfl, fun _ => Or.inl rfl⟩

theorem GrowsAbove.keeps {grown : FileSystem} (h : GrowsAbove files grown p) :
    Keeps files.tree grown.tree :=
  keeps_of_node? fun place => (h.node? place).imp_right And.left

theorem growsAbove_makeDirs (files : FileSystem) {above : Path} (habove : p.parent? = some above) :
    GrowsAbove files (files.makeDirs above).1 p := by
  rw [makeDirs]
  split_ifs
  · exact GrowsAbove.refl files p
  · refine ⟨rfl, fun place => ?_⟩
    have hgrows := growsAlong_makeDirsFrom files.tree (files.start above) above.pieces place
    refine hgrows.imp_right ?_
    rintro ⟨hnone, hdir, front, hfront, hfollow⟩
    exact ⟨hnone, hdir, above, front, habove, hfront, hfollow⟩

/-- All that can come of writing a file: directories above it are created, and then it is written
to its place or not at all. -/
theorem writeDeep_cases (files : FileSystem) (p : Path) (content : ByteArray) :
    ∃ grown, GrowsAbove files grown p ∧
      (files.writeDeep p content = (grown, false) ∨
        ∃ place, grown.filePlace? p = some place ∧
          files.writeDeep p content = (grown.putAt place content, true)) := by
  have hwrite : ∀ grown : FileSystem, grown.write? p content = none ∨
      ∃ place, grown.filePlace? p = some place ∧
        grown.write? p content = some (grown.putAt place content) := by
    intro grown
    cases hplace : grown.filePlace? p with
    | none => exact Or.inl (by rw [write?, hplace]; rfl)
    | some place => exact Or.inr ⟨place, rfl, by rw [write?, hplace]; rfl⟩
  unfold writeDeep
  cases habove : p.parent? with
  | none =>
    refine ⟨files, GrowsAbove.refl files p, (hwrite files).imp ?_ ?_⟩
    · intro hnone
      simp [hnone]
    · rintro ⟨place, hplace, hsome⟩
      exact ⟨place, hplace, by simp [hsome]⟩
  | some above =>
    refine ⟨(files.makeDirs above).1, growsAbove_makeDirs files habove, ?_⟩
    cases hready : (files.makeDirs above).2 with
    | false => exact Or.inl (by simp [hready])
    | true =>
      refine (hwrite (files.makeDirs above).1).imp ?_ ?_
      · intro hnone
        simp [hready, hnone]
      · rintro ⟨place, hplace, hsome⟩
        exact ⟨place, hplace, by simp [hready, hsome]⟩

/-- The ways in which writing `content` to the path `p` can change the node at a place. -/
inductive Change (files after : FileSystem) (p : Path) (content : ByteArray) (place : Place) :
    Prop where
  /-- The path leads there, and the file is written. It keeps the access that it has. -/
  | written (hbefore : files.tree.isDirAt place = false) (hplace : after.place? p = some place)
      (hnode : after.tree.node? place = some (.file (files.tree.accessAt place) content))
  /-- The directory above the path leads there or further, and there was nothing. -/
  | created (hbefore : files.tree.node? place = none) {above : Path} (habove : p.parent? = some above)
      {front : List RawText} (hfront : front <+: above.pieces)
      (hplace : after.tree.follow (after.start above) front = some place)
      (hnode : after.tree.node? place = some (.directory {}))

/-- **Writing a file changes nothing but the file and the missing directories above it.** -/
theorem writeDeep_changes (files : FileSystem) (p : Path) (content : ByteArray) (place : Place) :
    (files.writeDeep p content).1.tree.node? place = files.tree.node? place ∨
      Change files (files.writeDeep p content).1 p content place := by
  obtain ⟨grown, hgrows, hend⟩ := writeDeep_cases files p content
  have hgrown := hgrows.node? place
  rcases hend with hend | ⟨target, htarget, hend⟩ <;> rw [hend]
  · refine hgrown.imp_right ?_
    rintro ⟨hbefore, hdir, above, front, habove, hfront, hfollow⟩
    exact .created hbefore habove hfront hfollow hdir
  · have hkeeps := keeps_putAt htarget content
    by_cases heq : place = target
    · subst heq
      have hfree := isDirAt_filePlace htarget
      have hbefore : files.tree.isDirAt place = false :=
        Bool.eq_false_iff.2 fun hdir => absurd (hgrows.keeps.isDirAt hdir) (by simp [hfree])
      have hsame : grown.tree.node? place = files.tree.node? place := by
        refine hgrown.resolve_right ?_
        rintro ⟨-, hdir, -⟩
        exact absurd (isDirAt_iff.2 ⟨_, hdir⟩) (by simp [hfree])
      refine Or.inr (.written hbefore (place?_putAt htarget content) ?_)
      rw [node?_putAt htarget, if_pos rfl, accessAt_eq_of_node? hsame]
    · rw [node?_putAt htarget, if_neg heq]
      refine hgrown.imp_right ?_
      rintro ⟨hbefore, hdir, above, front, habove, hfront, hfollow⟩
      refine .created hbefore habove hfront (hkeeps.follow hfollow) ?_
      rw [node?_putAt htarget, if_neg heq, hdir]

theorem workingDir_writeDeep (files : FileSystem) (p : Path) (content : ByteArray) :
    (files.writeDeep p content).1.workingDir = files.workingDir := by
  obtain ⟨grown, hgrows, hend | ⟨place, -, hend⟩⟩ := writeDeep_cases files p content <;> rw [hend]
  · exact hgrows.workingDir
  · exact hgrows.workingDir

/-- What was written is found under the path. -/
theorem stored?_writeDeep (h : (files.writeDeep p content).2 = true) :
    (files.writeDeep p content).1.stored? p = some content := by
  obtain ⟨grown, -, hend | ⟨place, hplace, hend⟩⟩ := writeDeep_cases files p content
  · rw [hend] at h
    cases h
  · rw [hend]
    have hnode := node?_putAt hplace content place
    rw [if_pos rfl] at hnode
    rw [stored?, find?, place?_putAt hplace, Option.bind_some, at?_of_node?_file hnode]

/-- Where the file cannot be written, the files are as before. -/
theorem file_writeDeep_of_failed (h : (files.writeDeep p content).2 = false) (place : Place)
    (access : Access) (bytes : ByteArray) :
    (files.writeDeep p content).1.tree.node? place = some (.file access bytes) ↔
      files.tree.node? place = some (.file access bytes) := by
  obtain ⟨grown, hgrows, hend | ⟨target, htarget, hend⟩⟩ := writeDeep_cases files p content
  · rw [hend]
    rcases hgrows.node? place with hsame | ⟨hnone, hdir, -⟩
    · rw [hsame]
    · simp [hnone, hdir]
  · rw [hend] at h
    cases h

end FileSystem

end DependencyLint
