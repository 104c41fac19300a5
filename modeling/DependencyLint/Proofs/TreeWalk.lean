import DependencyLint.Proofs.RelativePaths
import DependencyLint.Proofs.TreeChanges
import Mathlib.Data.List.Lex

/-!
# Walking a file tree

The files of a tree are found directory by directory, the entries of each in the order of their
names. On the whole this is one order of paths: the first component that differs decides, by its
bytes. It is not the order of the paths as texts, where a slash counts as a character among others.

**Lemma (`of_mem_foundUnder`, `exists_mem_foundUnder`).** A walk finds only what is at and below a
path. If it can list every directory, it finds all files there.

**Lemma (`pairwise_foundUnder`).** They are found in the strict order of their paths, so none of them
twice.

All are inductions on the tree for the places in it (`IsProper.of_mem_walk`,
`IsProper.exists_mem_walk`, `IsProper.pairwise_walk`). The components of a path that goes on along the
names of a place go on with these names, which carries the order over to paths.
-/

namespace DependencyLint

theorem RawText.precedes_iff {a b : RawText} : a.precedes b = true ↔ a.bytes < b.bytes := by
  rw [precedes, List.lex_eq_true_iff_lex]
  simp only [decide_eq_true_eq]
  exact Iff.rfl

/-- Sorting by different names puts them in strictly ascending order. -/
theorem RawText.pairwise_mergeSort {α : Type} {name : α → RawText} {items : List α}
    (h : (items.map name).Nodup) :
    (items.mergeSort fun a b => !(name b).precedes (name a)).Pairwise
      fun a b => (name a).bytes < (name b).bytes := by
  have hle : ∀ a b : α, (!(name b).precedes (name a)) = true ↔ (name a).bytes ≤ (name b).bytes := by
    intro a b
    rw [Bool.not_eq_true', ← Bool.not_eq_true, precedes_iff, List.not_lt]
  have htrans : ∀ a b c : α, (!(name b).precedes (name a)) = true →
      (!(name c).precedes (name b)) = true → (!(name c).precedes (name a)) = true := by
    simp only [hle]
    exact fun a b c => List.le_trans
  have htotal : ∀ a b : α, (!(name b).precedes (name a) || !(name a).precedes (name b)) = true := by
    simp only [Bool.or_eq_true, hle]
    exact fun a b => List.le_total (name a).bytes (name b).bytes
  have hsorted := List.pairwise_mergeSort htrans htotal items
  have hperm := List.mergeSort_perm items fun a b => !(name b).precedes (name a)
  have hnodup := (hperm.map name).nodup_iff.2 h
  refine (hsorted.and (List.pairwise_map.1 hnodup)).imp ?_
  rintro a b ⟨hab, hne⟩
  by_contra hnot
  exact hne (bytes_inj.1 (List.le_antisymm ((hle a b).1 hab) (List.not_lt.1 hnot)))

namespace FileTree

open DependencyLint.Path (IsEntryName)

/-! ## A walk through a tree -/

/-- A tree as it can be on a disk: the entries of each directory have names, each a different one. -/
inductive IsProper : FileTree → Prop where
  | file (access : Access) (content : ByteArray) : IsProper (.fileWith access content)
  | dir (access : Access) {entries : List (RawText × FileTree)}
      (distinct : (entries.map (·.1)).Nodup) (names : ∀ entry ∈ entries, IsEntryName entry.1)
      (below : ∀ entry ∈ entries, IsProper entry.2) : IsProper (.dirWith access entries)

theorem child?_eq_some_iff {access : Access} {entries : List (RawText × FileTree)}
    (hdistinct : (entries.map (·.1)).Nodup) {name : RawText} {tree : FileTree} :
    child? name (.dirWith access entries) = some tree ↔ (name, tree) ∈ entries := by
  simp only [child?, Option.map_eq_some_iff, find?_name_eq_some_iff hdistinct]
  constructor
  · rintro ⟨entry, ⟨hentry, rfl⟩, rfl⟩
    exact hentry
  · exact fun hentry => ⟨_, ⟨hentry, rfl⟩, rfl⟩

theorem walkEntries_eq (isReached : Bool) (entries : List (RawText × FileTree)) :
    walkEntries isReached entries = entries.map fun entry => (entry.1, walk isReached entry.2) := by
  induction entries with
  | nil => rw [walkEntries, List.map_nil]
  | cons entry entries ih => rw [walkEntries, List.map_cons, ih]

/-- In a directory that can be listed, a walk goes through its entries. -/
theorem mem_walk_dir {isReached : Bool} {access : Access} {entries : List (RawText × FileTree)}
    (hlisted : (isReached && access.read) = true) {place : Place} {found : Found} :
    (place, found) ∈ walk isReached (.dirWith access entries) ↔
      ∃ entry ∈ entries, ∃ rest, place = entry.1 :: rest ∧
        (rest, found) ∈ walk access.search entry.2 := by
  rw [walk, if_pos hlisted, walkEntries_eq, List.mem_flatMap]
  constructor
  · rintro ⟨below, hbelow, hfound⟩
    obtain ⟨entry, hentry, rfl⟩ := List.mem_map.1 ((List.mergeSort_perm _ _).mem_iff.1 hbelow)
    obtain ⟨⟨rest, what⟩, hrest, heq⟩ := List.mem_map.1 hfound
    cases heq
    exact ⟨entry, hentry, rest, rfl, hrest⟩
  · rintro ⟨entry, hentry, rest, rfl, hrest⟩
    refine ⟨(entry.1, walk access.search entry.2), ?_, List.mem_map.2 ⟨_, hrest, rfl⟩⟩
    exact (List.mergeSort_perm _ _).mem_iff.2 (List.mem_map.2 ⟨entry, hentry, rfl⟩)

/-- A file as a walk finds it: with its bytes, where they can be read. -/
def Found.IsOf (found : Found) (content : ByteArray) : Prop :=
  ∃ bytes?, found = .file bytes? ∧ ∀ bytes ∈ bytes?, bytes = content

/-- **Nothing else is found:** each place is that of a file, or of a directory that cannot be listed. -/
theorem IsProper.of_mem_walk {tree : FileTree} (h : tree.IsProper) {isReached : Bool} {place : Place}
    {found : Found} (hfound : (place, found) ∈ tree.walk isReached) :
    (∀ name ∈ place, IsEntryName name) ∧
      (found = .closed ∨
        ∃ access content, tree.at? place = some (.fileWith access content) ∧ found.IsOf content) := by
  induction h generalizing isReached place with
  | file access content =>
    rw [walk, List.mem_singleton] at hfound
    cases hfound
    refine ⟨List.forall_mem_nil _, Or.inr ⟨access, content, rfl, _, rfl, fun bytes hbytes => ?_⟩⟩
    split_ifs at hbytes
    · exact (Option.some.inj hbytes).symm
    · cases hbytes
  | @dir access entries distinct names below ih =>
    cases hlisted : isReached && access.read with
    | false =>
      rw [walk, hlisted, if_neg Bool.false_ne_true, List.mem_singleton] at hfound
      cases hfound
      exact ⟨List.forall_mem_nil _, Or.inl rfl⟩
    | true =>
      obtain ⟨entry, hentry, rest, rfl, hrest⟩ := (mem_walk_dir hlisted).1 hfound
      obtain ⟨hnames, hfound'⟩ := ih entry hentry hrest
      refine ⟨List.forall_mem_cons.2 ⟨names entry hentry, hnames⟩, hfound'.imp_right ?_⟩
      rintro ⟨access', content, hat, hof⟩
      refine ⟨access', content, ?_, hof⟩
      rw [at?, (child?_eq_some_iff distinct).2 hentry, Option.bind_some, hat]

/-- **All files are found,** with their places, if every directory can be listed. -/
theorem IsProper.exists_mem_walk {tree : FileTree} (h : tree.IsProper) {isReached : Bool}
    (hlisted : ∀ place, (place, .closed) ∉ tree.walk isReached) {place : Place} {access : Access}
    {content : ByteArray} (hat : tree.at? place = some (.fileWith access content)) :
    ∃ found : Found, (place, found) ∈ tree.walk isReached ∧ found.IsOf content := by
  induction h generalizing isReached place with
  | file access' bytes =>
    cases place with
    | nil =>
      cases hat
      refine ⟨_, by rw [walk, List.mem_singleton], _, rfl, fun bytes hbytes => ?_⟩
      split_ifs at hbytes
      · exact (Option.some.inj hbytes).symm
      · cases hbytes
    | cons name rest => cases hat
  | @dir access' entries distinct names below ih =>
    cases hread : isReached && access'.read with
    | false =>
      refine absurd ?_ (hlisted [])
      rw [walk, hread, if_neg Bool.false_ne_true]
      exact List.mem_singleton_self _
    | true =>
      cases place with
      | nil => cases hat
      | cons name rest =>
        obtain ⟨sub, hchild, hrest⟩ := Option.bind_eq_some_iff.1 hat
        have hentry := (child?_eq_some_iff distinct).1 hchild
        obtain ⟨found, hfound, hof⟩ := ih _ hentry
          (fun place hclosed => hlisted (name :: place)
            ((mem_walk_dir hread).2 ⟨_, hentry, place, rfl, hclosed⟩)) hrest
        exact ⟨found, (mem_walk_dir hread).2 ⟨_, hentry, rest, rfl, hfound⟩, hof⟩

/-- **A walk goes in the order of places,** compared name by name. -/
theorem IsProper.pairwise_walk {tree : FileTree} (h : tree.IsProper) (isReached : Bool) :
    (tree.walk isReached).Pairwise fun a b => List.Lex (fun x y => x.bytes < y.bytes) a.1 b.1 := by
  induction h generalizing isReached with
  | file access content =>
    rw [walk]
    exact List.pairwise_singleton _ _
  | @dir access entries distinct names below ih =>
    rw [walk]
    split_ifs
    · rw [walkEntries_eq, List.pairwise_flatMap]
      constructor
      · rintro found hfound
        obtain ⟨entry, hentry, rfl⟩ := List.mem_map.1 ((List.mergeSort_perm _ _).mem_iff.1 hfound)
        rw [List.pairwise_map]
        exact (ih entry hentry access.search).imp .cons
      · have hnames :
            ((entries.map fun entry => (entry.1, walk access.search entry.2)).map (·.1)).Nodup := by
          rw [List.map_map]
          exact distinct
        refine (RawText.pairwise_mergeSort hnames).imp fun hlt x hx y hy => ?_
        obtain ⟨_, -, rfl⟩ := List.mem_map.1 hx
        obtain ⟨_, -, rfl⟩ := List.mem_map.1 hy
        exact .rel hlt
    · exact List.pairwise_singleton _ _

/-- A tree all of which can be read. -/
inductive IsReadable : FileTree → Prop where
  | file {access : Access} (read : access.read = true) (content : ByteArray) :
      IsReadable (.fileWith access content)
  | dir {access : Access} (read : access.read = true) (search : access.search = true)
      {entries : List (RawText × FileTree)} (below : ∀ entry ∈ entries, IsReadable entry.2) :
      IsReadable (.dirWith access entries)

/-- Where all can be read, a walk comes upon files with their bytes. -/
theorem IsReadable.of_mem_walk {tree : FileTree} (h : tree.IsReadable) {place : Place}
    {found : Found} (hfound : (place, found) ∈ tree.walk true) :
    ∃ content, found = .file (some content) := by
  induction h generalizing place with
  | file read content =>
    rw [walk, read, List.mem_singleton] at hfound
    cases hfound
    exact ⟨content, rfl⟩
  | @dir access read search entries below ih =>
    obtain ⟨entry, hentry, rest, -, hrest⟩ := (mem_walk_dir (by rw [read]; rfl)).1 hfound
    rw [search] at hrest
    exact ih entry hentry hrest

theorem IsReadable.of_at? {tree : FileTree} (h : tree.IsReadable) {place : Place} {found : FileTree}
    (hat : tree.at? place = some found) : found.IsReadable := by
  induction place generalizing tree with
  | nil =>
    cases hat
    exact h
  | cons name place ih =>
    obtain ⟨below, hchild, hbelow⟩ := Option.bind_eq_some_iff.1 hat
    cases h with
    | file => cases hchild
    | dir read search readable =>
      obtain ⟨entry, hentry, rfl⟩ := Option.map_eq_some_iff.1 hchild
      exact ih (readable entry (List.mem_of_find?_eq_some hentry)) hbelow

theorem IsProper.of_at? {tree : FileTree} (h : tree.IsProper) {place : Place} {found : FileTree}
    (hat : tree.at? place = some found) : found.IsProper := by
  induction place generalizing tree with
  | nil =>
    cases hat
    exact h
  | cons name place ih =>
    obtain ⟨below, hchild, hbelow⟩ := Option.bind_eq_some_iff.1 hat
    cases h with
    | file access content => cases hchild
    | dir access distinct names proper =>
      exact ih (proper _ ((child?_eq_some_iff distinct).1 hchild)) hbelow

end FileTree

/-! ## The order of paths -/

namespace Path

/-- Names are in the order of their bytes. -/
inductive Component.IsBefore : Component → Component → Prop where
  | name {a b : RawText} (h : a.bytes < b.bytes) : IsBefore (.name a) (.name b)

/-- The order of paths, component by component. -/
def IsBefore (p q : Path) : Prop := List.Lex Component.IsBefore p.components q.components

theorem IsBefore.irrefl (p : Path) : ¬p.IsBefore p := by
  refine List.lex_irrefl ?_ p.components
  rintro step ⟨h⟩
  exact List.lt_irrefl _ h

theorem lex_map_name {a b : List RawText} (h : List.Lex (fun x y => x.bytes < y.bytes) a b) :
    List.Lex Component.IsBefore (a.map .name) (b.map .name) := by
  induction h with
  | nil => exact .nil
  | cons _ ih => exact .cons ih
  | rel h => exact .rel (.name h)

theorem isBefore_extend (p : Path) {a b : List RawText} (ha : ∀ name ∈ a, IsEntryName name)
    (hb : ∀ name ∈ b, IsEntryName name) (h : List.Lex (fun x y => x.bytes < y.bytes) a b) :
    (p.extend a).IsBefore (p.extend b) := by
  rw [IsBefore, components_extend p ha, components_extend p hb]
  exact (lex_map_name h).append_left _ _

end Path

/-! ## What is found below a path -/

namespace FileSystem

open FileTree

open DependencyLint.Path (IsEntryName)

variable {files : FileSystem} {root : Path}

/-- The names lead to a regular file from what stands at the path `root`. -/
structure IsFileBelow (files : FileSystem) (root : Path) (names : List RawText)
    (content : ByteArray) : Prop where
  entry_names : ∀ name ∈ names, IsEntryName name
  node : ∃ access, (files.find? root).bind (at? names) = some (.fileWith access content)

theorem foundUnder_of_none (h : files.find? root = none) : files.foundUnder root = [] := by
  rw [foundUnder, h]

theorem foundUnder_of_some {tree : FileTree} (h : files.find? root = some tree) :
    files.foundUnder root = (tree.walk true).map fun found => (root.extend found.1, found.2) := by
  rw [foundUnder, h]
  rfl

section Proper

variable (hproper : files.tree.IsProper)
include hproper

theorem isProper_of_find? {found : FileTree} (h : files.find? root = some found) :
    found.IsProper := by
  obtain ⟨place, -, hat⟩ := Option.bind_eq_some_iff.1 h
  exact hproper.of_at? hat

theorem of_mem_foundUnder {path : Path} {found : Found}
    (h : (path, found) ∈ files.foundUnder root) :
    found = .closed ∨ ∃ names content, path = root.extend names ∧
      files.IsFileBelow root names content ∧ found.IsOf content := by
  rcases hroot : files.find? root with _ | tree
  · rw [foundUnder_of_none hroot] at h
    cases h
  · rw [foundUnder_of_some hroot] at h
    obtain ⟨⟨names, what⟩, hmem, heq⟩ := List.mem_map.1 h
    cases heq
    obtain ⟨hnames, hfound⟩ := (isProper_of_find? hproper hroot).of_mem_walk hmem
    refine hfound.imp_right ?_
    rintro ⟨access, content, hat, hof⟩
    exact ⟨names, content, rfl, ⟨hnames, access, by rw [hroot, Option.bind_some, hat]⟩, hof⟩

theorem exists_mem_foundUnder (hlisted : ∀ path, (path, .closed) ∉ files.foundUnder root)
    {names : List RawText} {content : ByteArray} (h : files.IsFileBelow root names content) :
    ∃ found, (root.extend names, found) ∈ files.foundUnder root ∧ found.IsOf content := by
  obtain ⟨access, hnode⟩ := h.node
  obtain ⟨tree, hroot, hat⟩ := Option.bind_eq_some_iff.1 hnode
  rw [foundUnder_of_some hroot] at hlisted ⊢
  obtain ⟨found, hfound, hof⟩ := (isProper_of_find? hproper hroot).exists_mem_walk
    (fun place hclosed => hlisted _ (List.mem_map.2 ⟨_, hclosed, rfl⟩)) hat
  exact ⟨found, List.mem_map.2 ⟨_, hfound, rfl⟩, hof⟩

theorem pairwise_foundUnder (root : Path) :
    (files.foundUnder root).Pairwise fun a b => a.1.IsBefore b.1 := by
  rcases hroot : files.find? root with _ | tree
  · rw [foundUnder_of_none hroot]
    exact .nil
  · have htree := isProper_of_find? hproper hroot
    rw [foundUnder_of_some hroot, List.pairwise_map]
    exact (htree.pairwise_walk true).imp_of_mem fun {a b} ha hb hlt =>
      Path.isBefore_extend root (htree.of_mem_walk ha).1 (htree.of_mem_walk hb).1 hlt

end Proper

theorem exists_of_mem_foundUnder (h : files.tree.IsReadable) {path : Path} {found : Found}
    (hfound : (path, found) ∈ files.foundUnder root) : ∃ content, found = .file (some content) := by
  rcases hroot : files.find? root with _ | tree
  · rw [foundUnder_of_none hroot] at hfound
    cases hfound
  · obtain ⟨place, -, hat⟩ := Option.bind_eq_some_iff.1 hroot
    rw [foundUnder_of_some hroot] at hfound
    obtain ⟨⟨names, what⟩, hmem, heq⟩ := List.mem_map.1 hfound
    cases heq
    exact (h.of_at? hat).of_mem_walk hmem

/-- The path of a file ends with a piece that counts: behind a slash there would be a directory. -/
theorem not_isIdle_of_find? {access : Access} {content : ByteArray} {p : Path}
    (h : files.find? p = some (.fileWith access content)) :
    ∀ piece ∈ p.pieces.getLast?, Path.isIdle piece = false := by
  intro piece hpiece
  obtain ⟨front, hfront⟩ := List.getLast?_eq_some_iff.1 hpiece
  obtain ⟨place, hplace, hat⟩ := Option.bind_eq_some_iff.1 h
  rw [place?] at hplace
  split_ifs at hplace
  rw [hfront, follow_append] at hplace
  obtain ⟨here, -, hlast⟩ := Option.bind_eq_some_iff.1 hplace
  obtain ⟨next, hstep, hnext⟩ := Option.bind_eq_some_iff.1 hlast
  cases hnext
  by_contra hidle
  rw [Bool.not_eq_false, Path.isIdle, Bool.or_eq_true, decide_eq_true_eq, decide_eq_true_eq] at hidle
  have hdir : files.tree.isDirAt place = true := by
    rcases step?_eq_some_iff.1 hstep with ⟨-, hdir, rfl⟩ | ⟨-, hopen, rfl⟩ | ⟨hup, -, -⟩ |
      ⟨hname, -, -, -⟩
    · exact hdir
    · exact isDirAt_of_isOpenAt hopen
    · simp [hup] at hidle
    · rcases hidle with rfl | rfl <;> cases hname
  rw [isDirAt, hat] at hdir
  cases hdir

theorem IsFileBelow.not_isIdle {names : List RawText} {content : ByteArray}
    (h : files.IsFileBelow root names content) :
    ∀ piece ∈ (root.extend names).pieces.getLast?, Path.isIdle piece = false := by
  obtain ⟨access, hnode⟩ := h.node
  rcases List.eq_nil_or_concat names with rfl | ⟨front, name, rfl⟩
  · cases hroot : files.find? root with
    | none =>
      rw [hroot] at hnode
      cases hnode
    | some tree =>
      rw [hroot] at hnode
      cases hnode
      exact not_isIdle_of_find? hroot
  · have hname := h.entry_names name (by simp)
    intro piece hpiece
    have hlast : ((root.extend front).join ⟨name⟩).pieces.getLast? = some name := by
      exact Path.getLast?_pieces_join _ hname.noSlash
    rw [List.concat_eq_append, Path.extend, List.foldl_append] at hpiece
    cases hlast.symm.trans hpiece
    exact hname.notIdle

end FileSystem

end DependencyLint
