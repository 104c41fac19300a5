import DependencyLint.Proofs.EncodedText
import DependencyLint.Proofs.UnusedLibraries

/-!
# Archives inside archives

A library file is an archive. It may hold another archive as its file `classes.jar`, and that one
again, so that there is a chain of archives, one on each level (`Level`).

**Theorem (`classes_of_all_levels`).** The classes of a library file can be listed exactly if all
archives of the chain down to level four can be read, and the file `classes.jar` of each archive
above level four can be unpacked. The classes are then those of all five archives, each once and in
the order of their names. What lies on level five is never looked at.

One archive is looked at together with what its inner archive gives (`classNamesIn_eq_ok_iff`,
`mem_classNamesIn`). The chain follows by induction on the number of levels that are left.

An archive of any content can be put inside another one (`Shells.encloses_around`), so there are
chains of every length.
-/

namespace DependencyLint.Archive

/-! ## The chain of archives -/

/-- The archive can be opened and lists the entry. -/
def HasEntry (bytes : ByteArray) (entry : Entry) : Prop :=
  ∃ entries, entries? bytes = some entries ∧ entry ∈ entries

/-- An entry for an inner archive: a file called `classes.jar`. -/
def Entry.IsInner (entry : Entry) : Prop := entry.isDirectory = false ∧ entry.name = "classes.jar"

instance (entry : Entry) : Decidable entry.IsInner :=
  inferInstanceAs (Decidable (entry.isDirectory = false ∧ entry.name = "classes.jar"))

/-- The archive `inner` is the unpacked file `classes.jar` of the archive `outer`. -/
def Encloses (outer inner : ByteArray) : Prop :=
  ∃ entry, HasEntry outer entry ∧ entry.IsInner ∧ entry.data? outer = some inner

/-- The archive on a level of the chain that starts with `outer`. -/
inductive Level (outer : ByteArray) : Nat → ByteArray → Prop where
  | outermost : Level outer 0 outer
  | inside {k : Nat} {bytes inner : ByteArray} (h : Level outer k bytes)
      (hinner : Encloses bytes inner) : Level outer (k + 1) inner

/-- The archive can be opened, and all of its entries can be located. -/
def IsReadable (bytes : ByteArray) : Prop :=
  ∃ entries, entries? bytes = some entries ∧ ∀ entry ∈ entries, entry.isLocated bytes = true

/-- The inner archive, if there is one, can be unpacked. -/
def Unpacks (bytes : ByteArray) : Prop :=
  ∀ entry, HasEntry bytes entry → entry.IsInner → ∃ inner, entry.data? bytes = some inner

/-- The name of the class that is kept under the name of an entry. -/
def IsClassName (entryName name : String) : Prop :=
  ∃ stem, entryName.toList = stem ++ ".class".toList ∧
    name.toList = stem.map fun c => if c = '/' then '.' else c

/-- A file of the archive holds the class. -/
def HoldsClass (bytes : ByteArray) (name : String) : Prop :=
  ∃ entry, HasEntry bytes entry ∧ entry.isDirectory = false ∧ IsClassName entry.name name

section Chain

variable {outer bytes inner : ByteArray} {entry : Entry} {k depth : Nat}

theorem level_zero_iff : Level outer 0 bytes ↔ bytes = outer := by
  constructor
  · intro h
    cases h
    rfl
  · rintro rfl
    exact .outermost

/-- The chain behind the outermost archive is the chain that starts with the next one. -/
theorem level_succ_iff :
    Level outer (k + 1) inner ↔ ∃ next, Encloses outer next ∧ Level next k inner := by
  constructor
  · intro h
    induction k generalizing inner with
    | zero =>
      obtain _ | ⟨h, hinner⟩ := h
      rw [level_zero_iff] at h
      exact ⟨inner, h ▸ hinner, .outermost⟩
    | succ k ih =>
      obtain _ | ⟨h, hinner⟩ := h
      obtain ⟨next, hnext, hlevel⟩ := ih h
      exact ⟨next, hnext, hlevel.inside hinner⟩
  · rintro ⟨next, hnext, hlevel⟩
    induction hlevel with
    | outermost => exact Level.outermost.inside hnext
    | inside _ hinner ih => exact ih.inside hinner

/-! ## One archive on each level -/

theorem nodup_mergeNames (entries : List Entry) : ((mergeNames entries).map (·.name)).Nodup := by
  have hsub : ∀ names : List String, List.Sublist
      ((names.filterMap fun name => entries.reverse.find? (·.name = name)).map (·.name)) names := by
    intro names
    induction names with
    | nil => exact List.Sublist.slnil
    | cons name names ih =>
      rw [List.filterMap_cons]
      cases h : entries.reverse.find? (·.name = name) with
      | none => exact ih.cons name
      | some entry =>
        have hname : entry.name = name := by simpa using List.find?_some h
        simpa [hname] using ih
  have hdistinct : (entries.map (·.name)).eraseDups.Nodup :=
    (pairwise_eraseDups _).imp fun {a b} hlt (heq : a = b) => absurd hlt (by simp [heq])
  exact (hsub _).nodup hdistinct

theorem exists_of_lastPlace {α : Type} {attempt : Nat → Option α} {stop : Nat} {found : α}
    (h : lastPlace attempt stop = some found) : ∃ place, attempt place = some found := by
  induction stop with
  | zero => cases h
  | succ place ih =>
    rw [lastPlace] at h
    cases hplace : attempt place with
    | none =>
      rw [hplace] at h
      exact ih h
    | some other =>
      rw [hplace] at h
      cases h
      exact ⟨place, hplace⟩

/-- No archive lists two entries of one name. -/
theorem nodup_entries {entries : List Entry} (h : entries? bytes = some entries) :
    (entries.map (·.name)).Nodup := by
  obtain ⟨place, h⟩ := exists_of_lastPlace h
  obtain ⟨directory, -, h⟩ := Option.bind_eq_some_iff.1 h
  obtain ⟨all, -, h⟩ := Option.bind_eq_some_iff.1 h
  cases h
  exact nodup_mergeNames all

theorem Encloses.unique {a b : ByteArray} (ha : Encloses outer a) (hb : Encloses outer b) : a = b := by
  obtain ⟨entry, ⟨entries, hentries, hentry⟩, hinner, hdata⟩ := ha
  obtain ⟨entry', ⟨entries', hentries', hentry'⟩, hinner', hdata'⟩ := hb
  cases hentries.symm.trans hentries'
  obtain rfl : entry = entry' :=
    List.inj_on_of_nodup_map (nodup_entries hentries) hentry hentry' (hinner.2.trans hinner'.2.symm)
  exact Option.some.inj (hdata.symm.trans hdata')

/-- There is at most one archive on a level. -/
theorem Level.unique {a b : ByteArray} (ha : Level outer k a) (hb : Level outer k b) : a = b := by
  induction ha generalizing b with
  | outermost => exact (level_zero_iff.1 hb).symm
  | inside _ hinner ih =>
    obtain _ | ⟨hb, hinner'⟩ := hb
    rw [← ih hb] at hinner'
    exact hinner.unique hinner'

end Chain

/-! ## Names of classes -/

theorem classSymbol?_eq_some_iff {entryName name : String} :
    classSymbol? entryName = some name ↔ IsClassName entryName name := by
  have hlength : ∀ stem : List Char, (stem ++ ".class".toList).length - 6 = stem.length := by simp
  unfold classSymbol? IsClassName
  constructor
  · intro h
    split_ifs at h with hsuffix
    obtain ⟨stem, hstem⟩ := List.isSuffixOf_iff_suffix.1 hsuffix
    cases h
    refine ⟨stem, hstem.symm, ?_⟩
    rw [String.toList_ofList, ← hstem, hlength, List.take_left]
  · rintro ⟨stem, hstem, hname⟩
    rw [if_pos (List.isSuffixOf_iff_suffix.2 ⟨stem, hstem.symm⟩), hstem, hlength, List.take_left,
      ← hname, String.ofList_toList]

/-! ## One archive -/

/-- What an archive gets from its inner one, with so many levels left. -/
def innerClassNames : Nat → ByteArray → Entry → Except Fault (List String)
  | 0, _, _ => .ok []
  | depth + 1, bytes, entry =>
    match entry.data? bytes with
    | none => .error .unreadable
    | some data => classNamesIn depth data

section OneArchive

variable {bytes : ByteArray} {nested : Entry → Except Fault (List String)} {entry : Entry}

theorem classNamesIn_of_none {depth : Nat} (h : entries? bytes = none) :
    classNamesIn depth bytes = .error .malformed := by
  rw [classNamesIn, h]

theorem classNamesIn_of_some {depth : Nat} {entries : List Entry} (h : entries? bytes = some entries) :
    classNamesIn depth bytes =
      List.flatten <$> entries.mapM (entryClassNames bytes (innerClassNames depth bytes)) := by
  rw [classNamesIn, h]
  cases depth <;> rfl

theorem classNamesIn_eq_ok_iff {depth : Nat} {names : List String} :
    classNamesIn depth bytes = .ok names ↔ ∃ entries lists, entries? bytes = some entries ∧
      entries.mapM (entryClassNames bytes (innerClassNames depth bytes)) = .ok lists ∧
      lists.flatten = names := by
  cases h : entries? bytes with
  | none => simp [classNamesIn_of_none h]
  | some entries =>
    rw [classNamesIn_of_some h]
    constructor
    · intro hnames
      obtain ⟨lists, hlists, rfl⟩ := map_eq_ok hnames
      exact ⟨entries, lists, rfl, hlists, rfl⟩
    · rintro ⟨_, lists, heq, hlists, rfl⟩
      cases heq
      rw [hlists]
      rfl

theorem isLocated_of_entryClassNames {found : List String}
    (h : entryClassNames bytes nested entry = .ok found) : entry.isLocated bytes = true := by
  unfold entryClassNames at h
  cases hlocated : entry.isLocated bytes with
  | true => rfl
  | false =>
    rw [hlocated] at h
    cases h

/-- The inner archive is no class itself. -/
theorem Entry.IsInner.classSymbol?_eq_none (h : entry.IsInner) : classSymbol? entry.name = none := by
  rw [h.2]
  decide

theorem entryClassNames_of_isInner (hlocated : entry.isLocated bytes = true) (h : entry.IsInner) :
    entryClassNames bytes nested entry = nested entry := by
  have hname : entry.name = nestedName := h.2
  have hnone := h.classSymbol?_eq_none
  rw [hname] at hnone
  simp [entryClassNames, hlocated, h.1, hname, hnone]

/-- An entry other than the inner archive gives at most its own class. -/
theorem exists_entryClassNames (hlocated : entry.isLocated bytes = true) (h : ¬entry.IsInner) :
    ∃ found, entryClassNames bytes nested entry = .ok found ∧
      ∀ name, name ∈ found ↔ entry.isDirectory = false ∧ IsClassName entry.name name := by
  simp only [← classSymbol?_eq_some_iff]
  cases hdirectory : entry.isDirectory with
  | true => exact ⟨[], by simp [entryClassNames, hlocated, hdirectory], by simp⟩
  | false =>
    cases hsymbol : classSymbol? entry.name with
    | some symbol =>
      refine ⟨[symbol], by simp [entryClassNames, hlocated, hdirectory, hsymbol], fun name => ?_⟩
      simp [eq_comm]
    | none =>
      have hname : entry.name ≠ nestedName := fun heq => h ⟨hdirectory, heq⟩
      exact ⟨[], by simp [entryClassNames, hlocated, hdirectory, hsymbol, hname], by simp⟩

/-- **One archive can be read with its inner one.** -/
theorem exists_classNamesIn_iff {depth : Nat} :
    (∃ names, classNamesIn depth bytes = .ok names) ↔
      IsReadable bytes ∧ ∀ entry, HasEntry bytes entry → entry.IsInner →
        ∃ found, innerClassNames depth bytes entry = .ok found := by
  constructor
  · rintro ⟨names, h⟩
    obtain ⟨entries, lists, hentries, hlists, -⟩ := classNamesIn_eq_ok_iff.1 h
    have hok := forall_of_mapM_ok hlists
    have hlocated : ∀ entry ∈ entries, entry.isLocated bytes = true := by
      intro entry hentry
      obtain ⟨found, hfound⟩ := hok entry hentry
      exact isLocated_of_entryClassNames hfound
    refine ⟨⟨entries, hentries, hlocated⟩, ?_⟩
    rintro entry ⟨_, heq, hentry⟩ hinner
    cases hentries.symm.trans heq
    have hown := hok entry hentry
    rwa [entryClassNames_of_isInner (hlocated entry hentry) hinner] at hown
  · rintro ⟨⟨entries, hentries, hlocated⟩, hnext⟩
    obtain ⟨lists, hlists⟩ : ∃ lists,
        entries.mapM (entryClassNames bytes (innerClassNames depth bytes)) = .ok lists := by
      refine exists_mapM_ok fun entry hentry => ?_
      by_cases hinner : entry.IsInner
      · rw [entryClassNames_of_isInner (hlocated entry hentry) hinner]
        exact hnext entry ⟨entries, hentries, hentry⟩ hinner
      · obtain ⟨found, hfound, -⟩ := exists_entryClassNames (hlocated entry hentry) hinner
        exact ⟨found, hfound⟩
    exact ⟨lists.flatten, classNamesIn_eq_ok_iff.2 ⟨entries, lists, hentries, hlists, rfl⟩⟩

/-- **The classes of one archive and of its inner one.** -/
theorem mem_classNamesIn {depth : Nat} {names : List String}
    (h : classNamesIn depth bytes = .ok names) {name : String} :
    name ∈ names ↔ HoldsClass bytes name ∨
      ∃ entry, HasEntry bytes entry ∧ entry.IsInner ∧
        ∃ found, innerClassNames depth bytes entry = .ok found ∧ name ∈ found := by
  obtain ⟨entries, lists, hentries, hlists, rfl⟩ := classNamesIn_eq_ok_iff.1 h
  rw [List.mem_flatten]
  constructor
  · rintro ⟨found, hfound, hname⟩
    obtain ⟨entry, hentry, heq⟩ := mem_of_mapM_ok hlists hfound
    have hlocated := isLocated_of_entryClassNames heq
    by_cases hinner : entry.IsInner
    · rw [entryClassNames_of_isInner hlocated hinner] at heq
      exact Or.inr ⟨entry, ⟨entries, hentries, hentry⟩, hinner, found, heq, hname⟩
    · obtain ⟨own, hown, hmem⟩ := exists_entryClassNames hlocated hinner
      cases heq.symm.trans hown
      exact Or.inl ⟨entry, ⟨entries, hentries, hentry⟩, (hmem name).1 hname⟩
  · rintro (⟨entry, ⟨_, heq, hentry⟩, hfile, hname⟩ |
      ⟨entry, ⟨_, heq, hentry⟩, hinner, found, hfound, hname⟩)
    all_goals
      cases hentries.symm.trans heq
      obtain ⟨own, hown⟩ := forall_of_mapM_ok hlists entry hentry
      have hlocated := isLocated_of_entryClassNames hown
    · have hinner : ¬entry.IsInner := by
        intro hinner
        rw [← classSymbol?_eq_some_iff, hinner.classSymbol?_eq_none] at hname
        cases hname
      obtain ⟨found, hfound, hmem⟩ := exists_entryClassNames hlocated hinner
      exact ⟨found, mem_mapM_ok hlists hentry hfound, (hmem name).2 ⟨hfile, hname⟩⟩
    · have heq : entryClassNames bytes (innerClassNames depth bytes) entry = _ :=
        entryClassNames_of_isInner hlocated hinner
      exact ⟨found, mem_mapM_ok hlists hentry (heq.trans hfound), hname⟩

end OneArchive

/-! ## All levels -/

section AllLevels

variable {bytes : ByteArray} {entry : Entry} {depth : Nat}

theorem innerClassNames_succ_eq_ok_iff {found : List String} :
    innerClassNames (depth + 1) bytes entry = .ok found ↔
      ∃ inner, entry.data? bytes = some inner ∧ classNamesIn depth inner = .ok found := by
  rw [innerClassNames]
  cases entry.data? bytes with
  | none => simp
  | some inner => simp

/-- The chain can be read down to a depth. On the last level nothing has to be unpacked. -/
def ReadableTo (depth : Nat) (bytes : ByteArray) : Prop :=
  ∀ k ≤ depth, ∀ archive, Level bytes k archive →
    IsReadable archive ∧ (k < depth → Unpacks archive)

theorem readableTo_zero_iff : ReadableTo 0 bytes ↔ IsReadable bytes := by
  constructor
  · intro h
    exact (h 0 le_rfl bytes .outermost).1
  · intro h k hk archive hlevel
    obtain rfl := Nat.le_zero.1 hk
    rw [level_zero_iff.1 hlevel]
    exact ⟨h, fun hlt => absurd hlt (Nat.lt_irrefl 0)⟩

theorem readableTo_succ_iff : ReadableTo (depth + 1) bytes ↔
    IsReadable bytes ∧ Unpacks bytes ∧ ∀ inner, Encloses bytes inner → ReadableTo depth inner := by
  constructor
  · intro h
    obtain ⟨hreadable, hunpacks⟩ := h 0 (Nat.zero_le _) bytes .outermost
    refine ⟨hreadable, hunpacks (Nat.succ_pos depth), fun inner hinner k hk archive hlevel => ?_⟩
    obtain ⟨hreadable, hunpacks⟩ :=
      h (k + 1) (Nat.succ_le_succ hk) archive (level_succ_iff.2 ⟨inner, hinner, hlevel⟩)
    exact ⟨hreadable, fun hlt => hunpacks (Nat.succ_lt_succ hlt)⟩
  · rintro ⟨hreadable, hunpacks, hinner⟩ k hk archive hlevel
    cases k with
    | zero =>
      rw [level_zero_iff.1 hlevel]
      exact ⟨hreadable, fun _ => hunpacks⟩
    | succ k =>
      obtain ⟨inner, hencloses, hlevel⟩ := level_succ_iff.1 hlevel
      obtain ⟨hreadable, hunpacks⟩ :=
        hinner inner hencloses k (Nat.le_of_succ_le_succ hk) archive hlevel
      exact ⟨hreadable, fun hlt => hunpacks (Nat.lt_of_succ_lt_succ hlt)⟩

/-- **A chain of archives gives its classes exactly if it can be read.** -/
theorem exists_classNamesIn_iff_readableTo :
    (∃ names, classNamesIn depth bytes = .ok names) ↔ ReadableTo depth bytes := by
  induction depth generalizing bytes with
  | zero =>
    rw [exists_classNamesIn_iff, readableTo_zero_iff]
    exact and_iff_left fun _ _ _ => ⟨[], rfl⟩
  | succ depth ih =>
    rw [exists_classNamesIn_iff, readableTo_succ_iff]
    refine and_congr_right fun _ => ?_
    constructor
    · intro h
      refine ⟨fun entry hentry hinner => ?_, ?_⟩
      · obtain ⟨found, hfound⟩ := h entry hentry hinner
        obtain ⟨inner, hdata, -⟩ := innerClassNames_succ_eq_ok_iff.1 hfound
        exact ⟨inner, hdata⟩
      · rintro inner ⟨entry, hentry, hinner, hdata⟩
        obtain ⟨found, hfound⟩ := h entry hentry hinner
        obtain ⟨other, hother, hfound⟩ := innerClassNames_succ_eq_ok_iff.1 hfound
        cases hdata.symm.trans hother
        exact ih.1 ⟨found, hfound⟩
    · rintro ⟨hunpacks, hnext⟩ entry hentry hinner
      obtain ⟨inner, hdata⟩ := hunpacks entry hentry hinner
      obtain ⟨found, hfound⟩ := ih.2 (hnext inner ⟨entry, hentry, hinner, hdata⟩)
      exact ⟨found, innerClassNames_succ_eq_ok_iff.2 ⟨inner, hdata, hfound⟩⟩

/-- **The classes of a chain of archives are those of its levels.** -/
theorem mem_classNamesIn_iff_level {names : List String} (h : classNamesIn depth bytes = .ok names)
    {name : String} :
    name ∈ names ↔ ∃ k ≤ depth, ∃ archive, Level bytes k archive ∧ HoldsClass archive name := by
  induction depth generalizing bytes names with
  | zero =>
    rw [mem_classNamesIn h]
    constructor
    · rintro (hclass | ⟨entry, -, -, found, hfound, hname⟩)
      · exact ⟨0, le_rfl, bytes, .outermost, hclass⟩
      · cases hfound
        cases hname
    · rintro ⟨k, hk, archive, hlevel, hclass⟩
      obtain rfl := Nat.le_zero.1 hk
      rw [level_zero_iff.1 hlevel] at hclass
      exact Or.inl hclass
  | succ depth ih =>
    rw [mem_classNamesIn h]
    constructor
    · rintro (hclass | ⟨entry, hentry, hinner, found, hfound, hname⟩)
      · exact ⟨0, Nat.zero_le _, bytes, .outermost, hclass⟩
      · obtain ⟨inner, hdata, hfound⟩ := innerClassNames_succ_eq_ok_iff.1 hfound
        obtain ⟨k, hk, archive, hlevel, hclass⟩ := (ih hfound).1 hname
        exact ⟨k + 1, Nat.succ_le_succ hk, archive,
          level_succ_iff.2 ⟨inner, ⟨entry, hentry, hinner, hdata⟩, hlevel⟩, hclass⟩
    · rintro ⟨k, hk, archive, hlevel, hclass⟩
      cases k with
      | zero =>
        rw [level_zero_iff.1 hlevel] at hclass
        exact Or.inl hclass
      | succ k =>
        obtain ⟨inner, ⟨entry, hentry, hinner, hdata⟩, hlevel⟩ := level_succ_iff.1 hlevel
        obtain ⟨found, hfound⟩ := (exists_classNamesIn_iff.1 ⟨names, h⟩).2 entry hentry hinner
        obtain ⟨other, hother, hnext⟩ := innerClassNames_succ_eq_ok_iff.1 hfound
        cases hdata.symm.trans hother
        exact Or.inr ⟨entry, hentry, hinner, found, hfound,
          (ih hnext).2 ⟨k, Nat.le_of_succ_le_succ hk, archive, hlevel, hclass⟩⟩

/-- Two archives show the same: whether they can be read, whether what is inside can be unpacked, and
their classes. In the last archives of two chains, what is inside does not count. -/
def ShowSame (isLast : Prop) (a b : ByteArray) : Prop :=
  (IsReadable a ↔ IsReadable b) ∧ (isLast ∨ (Unpacks a ↔ Unpacks b)) ∧
    ∀ name, HoldsClass a name ↔ HoldsClass b name

/-- Every archive of one chain, down to a depth, has one on the same level of the other that shows the
same. Further down the chains may differ in any way. -/
def MatchedTo (depth : Nat) (a b : ByteArray) : Prop :=
  ∀ k ≤ depth, ∀ x, Level a k x → ∃ y, Level b k y ∧ ShowSame (k = depth) x y

theorem MatchedTo.readableTo {a b : ByteArray} (h : MatchedTo depth a b) (hb : ReadableTo depth b) :
    ReadableTo depth a := by
  intro k hk x hx
  obtain ⟨y, hy, hreadable, hunpacks, -⟩ := h k hk x hx
  obtain ⟨hready, hinner⟩ := hb k hk y hy
  refine ⟨hreadable.2 hready, fun hlt => ?_⟩
  exact (hunpacks.resolve_left hlt.ne).2 (hinner hlt)

theorem MatchedTo.holdsClass {a b : ByteArray} (h : MatchedTo depth a b) {name : String}
    (ha : ∃ k ≤ depth, ∃ x, Level a k x ∧ HoldsClass x name) :
    ∃ k ≤ depth, ∃ y, Level b k y ∧ HoldsClass y name := by
  obtain ⟨k, hk, x, hx, hclass⟩ := ha
  obtain ⟨y, hy, -, -, hsame⟩ := h k hk x hx
  exact ⟨k, hk, y, hy, (hsame name).1 hclass⟩

end AllLevels

/-! ## Library files -/

section LibraryFile

variable {files : FileSystem} {p : Path} {content : ByteArray}

theorem classNames_of_file (harchive : isArchive p = true)
    (hfile : files.content? p = some content) :
    classNames files p = (classNamesIn maxNesting content).map Text.sortedNames := by
  rw [FileSystem.content?] at hfile
  split at hfile
  case h_2 => cases hfile
  case h_1 access bytes hfound =>
    obtain ⟨hread, hbytes⟩ := Option.ite_none_right_eq_some.1 hfile
    rw [classNames, harchive, hfound]
    simp [hread, Option.some.inj hbytes]

theorem exists_classNames_iff (harchive : isArchive p = true)
    (hfile : files.content? p = some content) :
    (∃ names, classNames files p = .ok names) ↔ ReadableTo maxNesting content := by
  rw [← exists_classNamesIn_iff_readableTo, classNames_of_file harchive hfile]
  cases classNamesIn maxNesting content with
  | error fault => simp [Except.map]
  | ok names => simp [Except.map]

theorem mem_classNames_iff (harchive : isArchive p = true)
    (hfile : files.content? p = some content) {names : List String}
    (h : classNames files p = .ok names) :
    names.Pairwise (· < ·) ∧ ∀ name, name ∈ names ↔
      ∃ k ≤ maxNesting, ∃ archive, Level content k archive ∧ HoldsClass archive name := by
  rw [classNames_of_file harchive hfile] at h
  obtain ⟨found, hfound, rfl⟩ := map_eq_ok h
  refine ⟨Text.pairwise_sortedNames found, fun name => ?_⟩
  rw [Text.mem_sortedNames, mem_classNamesIn_iff_level hfound]

/-- Lists in ascending order with the same members are the same. -/
theorem eq_of_pairwise_lt {a b : List String} (ha : a.Pairwise (· < ·)) (hb : b.Pairwise (· < ·))
    (h : ∀ name, name ∈ a ↔ name ∈ b) : a = b := by
  have hnodup : ∀ {l : List String}, l.Pairwise (· < ·) → l.Nodup := by
    intro l hl
    refine hl.imp ?_
    rintro x _ hlt rfl
    exact String.lt_irrefl x hlt
  have hperm := (List.perm_ext_iff_of_nodup (hnodup ha) (hnodup hb)).2 h
  exact hperm.eq_of_pairwise (fun x y _ _ hxy hyx => absurd hyx (String.lt_asymm hxy)) ha hb

/-- **Classes are listed from all levels down to the fourth, or not at all.** A library file has one
archive at most on each level. Its classes can be listed exactly if each archive down to level four can
be opened and has all its entries located, and each of those above level four has its inner archive
unpacked. They are then the classes in the files of these archives, in ascending order. A library file
whose chain shows the same down to level four has the same outcome, whatever lies further down. -/
theorem classes_of_all_levels (harchive : isArchive p = true)
    (hfile : files.content? p = some content) :
    (∀ k a b, Level content k a → Level content k b → a = b) ∧
    ((∃ names, classNames files p = .ok names) ↔
      ∀ k ≤ 4, ∀ archive, Level content k archive →
        IsReadable archive ∧ (k < 4 → Unpacks archive)) ∧
    (∀ names, classNames files p = .ok names → names.Pairwise (· < ·) ∧
      ∀ name, name ∈ names ↔ ∃ k ≤ 4, ∃ archive, Level content k archive ∧ HoldsClass archive name) ∧
    ∀ files' p' content', isArchive p' = true → files'.content? p' = some content' →
      MatchedTo 4 content content' → MatchedTo 4 content' content →
      (classNames files' p').toOption = (classNames files p).toOption := by
  refine ⟨fun k a b => Level.unique, exists_classNames_iff harchive hfile,
    fun names => mem_classNames_iff harchive hfile, ?_⟩
  intro files' p' content' harchive' hfile' hto hfrom
  have hok := exists_classNames_iff harchive hfile
  have hok' := exists_classNames_iff harchive' hfile'
  cases h : classNames files p with
  | error fault =>
    cases h' : classNames files' p' with
    | error fault' => rfl
    | ok names' =>
      obtain ⟨names, hnames⟩ := hok.2 (hto.readableTo (hok'.1 ⟨names', h'⟩))
      cases h.symm.trans hnames
  | ok names =>
    obtain ⟨names', h'⟩ := hok'.2 (hfrom.readableTo (hok.1 ⟨names, h⟩))
    obtain ⟨hsorted, hmem⟩ := mem_classNames_iff harchive hfile h
    obtain ⟨hsorted', hmem'⟩ := mem_classNames_iff harchive' hfile' h'
    rw [h', eq_of_pairwise_lt hsorted' hsorted fun name => ?_]
    rw [hmem, hmem']
    exact ⟨hfrom.holdsClass, hto.holdsClass⟩

end LibraryFile

/-! ## An archive stored in another one -/

/-- The four bytes of a number, the low byte first. -/
def fourBytes (n : Nat) : List UInt8 :=
  [n.toUInt8, (n / 256).toUInt8, (n / 65536).toUInt8, (n / 16777216).toUInt8]

theorem littleEndian_fourBytes {n : Nat} (h : n < 4294967296) : littleEndian (fourBytes n) = n := by
  simp [littleEndian, fourBytes]
  omega

theorem extract_mk (bytes : List UInt8) (start size : Nat) :
    (ByteArray.mk bytes.toArray).extract start (start + size) =
      ⟨((bytes.drop start).take size).toArray⟩ := by
  apply ByteArray.ext
  apply Array.ext'
  simp

theorem slice?_mk {bytes : List UInt8} {start size : Nat} (h : start + size ≤ bytes.length) :
    slice? ⟨bytes.toArray⟩ start size = some ⟨((bytes.drop start).take size).toArray⟩ := by
  have hsize : (ByteArray.mk bytes.toArray).size = bytes.length := rfl
  rw [slice?, hsize, if_pos h, extract_mk]

theorem number?_mk {bytes : List UInt8} {start size : Nat} (h : start + size ≤ bytes.length) :
    number? ⟨bytes.toArray⟩ start size = some (littleEndian ((bytes.drop start).take size)) := by
  rw [number?, slice?_mk h, Option.map_some, Text.Utf8.toList_eq_data]

theorem number?_eq_none {bytes : ByteArray} {start size : Nat} (h : bytes.size < start + size) :
    number? bytes start size = none := by
  rw [number?, slice?, if_neg (by omega), Option.map_none]

theorem lastPlace_of_none {α : Type} {attempt : Nat → Option α} {place : Nat} (k : Nat)
    (h : ∀ other, place ≤ other → attempt other = none) :
    lastPlace attempt (place + k) = lastPlace attempt place := by
  induction k with
  | zero => rfl
  | succ k ih => rw [← Nat.add_assoc, lastPlace, h _ (by omega), ih]

namespace Shells

def innerName : List UInt8 := "classes.jar".toList.map (·.toNat.toUInt8)

/-- What both headers of the inner archive say about it. -/
def measures (inner : ByteArray) : List UInt8 :=
  fourBytes (crc32 inner).toNat ++ fourBytes inner.size ++ fourBytes inner.size ++ [11, 0, 0, 0]

def innerHeader (inner : ByteArray) : List UInt8 :=
  [80, 75, 3, 4] ++ List.replicate 10 0 ++ measures inner ++ innerName

/-- What stands in front of the directory. -/
def front (inner : ByteArray) : List UInt8 := innerHeader inner ++ inner.data.toList

/-- The directory, with one entry, and the end record. -/
def back (inner : ByteArray) : List UInt8 :=
  [80, 75, 1, 2] ++ List.replicate 12 0 ++ measures inner ++ List.replicate 14 0 ++ innerName ++
    [80, 75, 5, 6, 0, 0, 0, 0, 1, 0, 1, 0, 57, 0, 0, 0] ++ fourBytes (front inner).length ++ [0, 0]

/-- An archive with another one stored in it. -/
def around (inner : ByteArray) : ByteArray := ⟨(front inner ++ back inner).toArray⟩

def innerEntry (inner : ByteArray) : Entry :=
  ⟨"classes.jar", false, 0, (crc32 inner).toNat, inner.size, 0⟩

variable {inner : ByteArray} {start size n : Nat}

theorem length_front : (front inner).length = inner.size + 41 := by
  rw [front, List.length_append]
  exact Nat.add_comm _ _

theorem length_around : (front inner ++ back inner).length = (front inner).length + 79 :=
  List.length_append

theorem drop_around :
    (front inner ++ back inner).drop ((front inner).length + start) = (back inner).drop start := by
  rw [← List.drop_drop, List.drop_left]

theorem number?_around (found : List UInt8) (h : start + size ≤ 79)
    (hfound : ((back inner).drop start).take size = found) (hn : littleEndian found = n) :
    number? (around inner) ((front inner).length + start) size = some n := by
  rw [around, number?_mk (by rw [length_around]; omega), drop_around, hfound, hn]

theorem hasSignature_around {signature : Nat} (found : List UInt8) (h : start + 4 ≤ 79)
    (hfound : ((back inner).drop start).take 4 = found) (hn : littleEndian found = signature) :
    hasSignature signature (around inner) ((front inner).length + start) = true := by
  rw [hasSignature, number?_around found h hfound hn, decide_eq_true rfl]

theorem slice?_around {found : List UInt8} (h : start + size ≤ 79)
    (hfound : ((back inner).drop start).take size = found) :
    slice? (around inner) ((front inner).length + start) size = some ⟨found.toArray⟩ := by
  rw [around, slice?_mk (by rw [length_around]; omega), drop_around, hfound]

theorem directoryAt_around (h : inner.size + 41 < wideMark) :
    directoryAt (around inner) ((front inner).length + 57) = some ⟨(front inner).length, 0, 1⟩ := by
  have hwide : (front inner).length < wideMark := length_front ▸ h
  have hend : hasSignature endSignature (around inner) ((front inner).length + 57) = true :=
    hasSignature_around [80, 75, 5, 6] (by decide) rfl (by decide)
  have hdisk : number? (around inner) ((front inner).length + 61) 2 = some 0 :=
    number?_around [0, 0] (by decide) rfl (by decide)
  have hfirst : number? (around inner) ((front inner).length + 63) 2 = some 0 :=
    number?_around [0, 0] (by decide) rfl (by decide)
  have hhere : number? (around inner) ((front inner).length + 65) 2 = some 1 :=
    number?_around [1, 0] (by decide) rfl (by decide)
  have hcount : number? (around inner) ((front inner).length + 67) 2 = some 1 :=
    number?_around [1, 0] (by decide) rfl (by decide)
  have hoffset : number? (around inner) ((front inner).length + 73) 4 = some (front inner).length :=
    number?_around _ (by decide) rfl (littleEndian_fourBytes (hwide.trans (by decide)))
  have hcomment : number? (around inner) ((front inner).length + 77) 2 = some 0 :=
    number?_around [0, 0] (by decide) rfl (by decide)
  have hstart : hasSignature directorySignature (around inner) ((front inner).length + 0) = true :=
    hasSignature_around [80, 75, 1, 2] (by decide) rfl (by decide)
  have hsize : (around inner).size = (front inner).length + 79 := length_around
  rw [Nat.add_zero] at hstart
  simp only [directoryAt, guard, Nat.add_assoc, Nat.reduceAdd, hend, hdisk, hfirst, hhere, hcount,
    hoffset, hcomment, hsize]
  simp [hstart, hwide.ne]

theorem entryAt_around (h : inner.size + 41 < wideMark) :
    ∃ after, entryAt (around inner) ⟨(front inner).length, 0, 1⟩ (front inner).length =
      some (innerEntry inner, after) := by
  have hsmall : inner.size < 4294967296 := by
    rw [wideMark] at h
    omega
  have hpos : 0 < (front inner).length := by
    rw [length_front]
    omega
  have hstart : hasSignature directorySignature (around inner) ((front inner).length + 0) = true :=
    hasSignature_around [80, 75, 1, 2] (by decide) rfl (by decide)
  have hflags : number? (around inner) ((front inner).length + 8) 2 = some 0 :=
    number?_around [0, 0] (by decide) rfl (by decide)
  have hmethod : number? (around inner) ((front inner).length + 10) 2 = some 0 :=
    number?_around [0, 0] (by decide) rfl (by decide)
  have hchecksum : number? (around inner) ((front inner).length + 16) 4 = some (crc32 inner).toNat :=
    number?_around _ (by decide) rfl (littleEndian_fourBytes (UInt32.toNat_lt _))
  have hpacked : number? (around inner) ((front inner).length + 20) 4 = some inner.size :=
    number?_around _ (by decide) rfl (littleEndian_fourBytes hsmall)
  have hfull : number? (around inner) ((front inner).length + 24) 4 = some inner.size :=
    number?_around _ (by decide) rfl (littleEndian_fourBytes hsmall)
  have hnameSize : number? (around inner) ((front inner).length + 28) 2 = some 11 :=
    number?_around [11, 0] (by decide) rfl (by decide)
  have hextraSize : number? (around inner) ((front inner).length + 30) 2 = some 0 :=
    number?_around [0, 0] (by decide) rfl (by decide)
  have hcommentSize : number? (around inner) ((front inner).length + 32) 2 = some 0 :=
    number?_around [0, 0] (by decide) rfl (by decide)
  have hheader : number? (around inner) ((front inner).length + 42) 4 = some 0 :=
    number?_around [0, 0, 0, 0] (by decide) rfl (by decide)
  have hname : slice? (around inner) ((front inner).length + 46) 11 = some ⟨innerName.toArray⟩ :=
    slice?_around (by decide) rfl
  have hrest : slice? (around inner) ((front inner).length + 57) 0 = some ⟨#[]⟩ :=
    slice?_around (by decide) rfl
  have htext : codePageText ⟨innerName.toArray⟩ = "classes.jar" := by decide +kernel
  have hempty : ByteArray.toList ⟨#[]⟩ = [] := by decide +kernel
  rw [Nat.add_zero] at hstart
  simp [entryAt, Nat.add_assoc, guard, hstart, hflags, hmethod, hchecksum, hpacked, hfull, hnameSize,
    hextraSize, hcommentSize, hheader, hname, hrest, htext, hempty, applyExtra, encryptedMethod, hpos,
    innerEntry]

theorem entries?_around (h : inner.size + 41 < wideMark) :
    entries? (around inner) = some [innerEntry inner] := by
  have hsize : (around inner).size = (front inner).length + 58 + 21 := length_around
  have hbehind : ∀ place, (front inner).length + 58 ≤ place →
      entriesAt (around inner) place = none := by
    intro place hplace
    have hcomment : number? (around inner) (place + 20) 2 = none := number?_eq_none (by omega)
    simp [entriesAt, directoryAt, guard, hcomment]
  obtain ⟨after, hentry⟩ := entryAt_around h
  have hat : entriesAt (around inner) ((front inner).length + 57) = some [innerEntry inner] := by
    simp [entriesAt, directoryAt_around h, entriesFrom, hentry, mergeNames, innerEntry,
      List.eraseDups_cons]
  rw [entries?, hsize, lastPlace_of_none 21 hbehind, lastPlace, hat]

theorem dataStart?_innerEntry : (innerEntry inner).dataStart? (around inner) = some 41 := by
  have hnumber : ∀ {start size : Nat}, start + size ≤ 41 →
      number? (around inner) start size =
        some (littleEndian (((front inner ++ back inner).drop start).take size)) := by
    intro start size h
    exact number?_mk (by rw [length_around, length_front]; omega)
  have hsignature : hasSignature localSignature (around inner) 0 = true := by
    rw [hasSignature, hnumber (by decide)]
    exact decide_eq_true (congrArg some (by decide : littleEndian [80, 75, 3, 4] = localSignature))
  have hname : number? (around inner) 26 2 = some 11 := by
    rw [hnumber (by decide)]
    exact congrArg some (by decide : littleEndian [11, 0] = 11)
  have hextra : number? (around inner) 28 2 = some 0 := by
    rw [hnumber (by decide)]
    exact congrArg some (by decide : littleEndian [0, 0] = 0)
  simp [Entry.dataStart?, guard, innerEntry, hsignature, hname, hextra]

theorem data?_innerEntry : (innerEntry inner).data? (around inner) = some inner := by
  have hsize : (around inner).size = (front inner).length + 79 := length_around
  have hend : min (41 + inner.size) (around inner).size = 41 + inner.size := by
    rw [hsize, length_front]
    omega
  have hdata : (around inner).extract 41 (41 + inner.size) = inner := by
    have hdrop : (front inner ++ back inner).drop 41 = inner.data.toList ++ back inner := by
      rw [front, List.append_assoc]
      exact List.drop_left' rfl
    rw [around, extract_mk, hdrop]
    exact ByteArray.ext (Array.ext' List.take_left)
  have hentry : (innerEntry inner).size = inner.size := rfl
  have hmethod : (innerEntry inner).method = 0 := rfl
  have hchecksum : (innerEntry inner).checksum = (crc32 inner).toNat := rfl
  simp [Entry.data?, guard, dataStart?_innerEntry, hentry, hend, hdata, hmethod, hchecksum]

theorem isInner_innerEntry : (innerEntry inner).IsInner := by
  have hname : (innerEntry inner).name = "classes.jar" := rfl
  rw [Entry.IsInner, Entry.isDirectory, hname]
  decide +kernel

theorem hasEntry_around (h : inner.size + 41 < wideMark) {entry : Entry} :
    HasEntry (around inner) entry ↔ entry = innerEntry inner := by
  simp [HasEntry, entries?_around h]

theorem encloses_around (h : inner.size + 41 < wideMark) : Encloses (around inner) inner :=
  ⟨innerEntry inner, (hasEntry_around h).2 rfl, isInner_innerEntry, data?_innerEntry⟩

theorem isReadable_around (h : inner.size + 41 < wideMark) : IsReadable (around inner) := by
  refine ⟨_, entries?_around h, fun entry hentry => ?_⟩
  rw [List.mem_singleton.1 hentry, Entry.isLocated, dataStart?_innerEntry]
  rfl

theorem unpacks_around (h : inner.size + 41 < wideMark) : Unpacks (around inner) := by
  rintro entry hentry -
  rw [(hasEntry_around h).1 hentry]
  exact ⟨inner, data?_innerEntry⟩

theorem not_holdsClass_around (h : inner.size + 41 < wideMark) {name : String} :
    ¬HoldsClass (around inner) name := by
  rintro ⟨entry, hentry, -, stem, hstem, -⟩
  rw [(hasEntry_around h).1 hentry] at hstem
  have hlast : "classes.jar".toList.getLast? = (stem ++ ".class".toList).getLast? :=
    congrArg List.getLast? hstem
  simp at hlast

/-! ## The classes of nested archives -/

def plain : ByteArray := ofEntry "lib/Lib.class"

/-- The file `classes.jar` in it is empty, and so no archive. -/
def hollow : ByteArray := ofEntry "classes.jar"

/-- The plain archive inside so many others. -/
def nested : Nat → ByteArray
  | 0 => plain
  | k + 1 => around (nested k)

def sample : FileSystem :=
  .ofEntries [("lib.jar", .file plain), ("lib.aar", .file hollow),
    ("four.aar", .file (nested 4)), ("five.aar", .file (nested 5))]

theorem size_nested (k : Nat) : (nested k).size = 124 + 120 * k := by
  induction k with
  | zero => decide +kernel
  | succ k ih =>
    have hsize : (nested (k + 1)).size = (front (nested k)).length + 79 := length_around
    rw [hsize, length_front, ih]
    omega

theorem nested_fits {k : Nat} (h : k < 5) : (nested k).size + 41 < wideMark := by
  rw [size_nested, wideMark]
  omega

theorem level_nested {depth : Nat} (h : depth ≤ 5) (k : Nat) (hk : k ≤ depth) :
    Level (nested depth) k (nested (depth - k)) := by
  induction k with
  | zero => exact .outermost
  | succ k ih =>
    have hnext : Encloses (nested (depth - k)) (nested (depth - (k + 1))) := by
      obtain ⟨rest, hrest⟩ : ∃ rest, depth - k = rest + 1 := ⟨depth - k - 1, by omega⟩
      rw [hrest, Nat.sub_succ', hrest]
      exact encloses_around (nested_fits (by omega))
    exact (ih (by omega)).inside hnext

theorem isReadable_nested {k : Nat} (h : k ≤ 5) : IsReadable (nested k) := by
  cases k with
  | zero =>
    have hany : (entries? plain).any (fun entries => entries.all (·.isLocated plain)) = true := by
      decide +kernel
    obtain ⟨entries, hentries, hall⟩ := (Option.any_eq_true _ _).1 hany
    exact ⟨entries, hentries, List.all_eq_true.1 hall⟩
  | succ k => exact isReadable_around (nested_fits (by omega))

/-- All that is looked at can be read. -/
theorem readableTo_nested {depth : Nat} (hfour : 4 ≤ depth) (hfive : depth ≤ 5) :
    ReadableTo 4 (nested depth) := by
  intro k hk archive hlevel
  obtain rfl := hlevel.unique (level_nested hfive k (by omega))
  refine ⟨isReadable_nested (by omega), fun hlt => ?_⟩
  obtain ⟨rest, hrest⟩ : ∃ rest, depth - k = rest + 1 := ⟨depth - k - 1, by omega⟩
  rw [hrest]
  exact unpacks_around (nested_fits (by omega))

theorem holdsClass_plain : HoldsClass plain "lib.Lib" := by
  have hany : (entries? plain).any (fun entries => entries.any fun entry =>
      !entry.isDirectory && decide (entry.name = "lib/Lib.class")) = true := by
    decide +kernel
  obtain ⟨entries, hentries, hany⟩ := (Option.any_eq_true _ _).1 hany
  obtain ⟨entry, hentry, hany⟩ := List.any_eq_true.1 hany
  obtain ⟨hfile, hname⟩ := Bool.and_eq_true_iff.1 hany
  refine ⟨entry, ⟨entries, hentries, hentry⟩, by simpa using hfile, "lib/Lib".toList, ?_⟩
  rw [of_decide_eq_true hname]
  decide +kernel

theorem classNames_plain : classNames sample ⟨"lib.jar"⟩ = .ok ["lib.Lib"] :=
  eq_ok_of_toOption (by decide +kernel)

theorem exists_level_hollow : ∃ inner, Level hollow 1 inner ∧ ¬IsReadable inner := by
  have hany : (entries? hollow).any (fun entries => entries.any fun entry =>
      decide entry.IsInner && (entry.data? hollow).any (·.size = 0)) = true := by
    decide +kernel
  obtain ⟨entries, hentries, hany⟩ := (Option.any_eq_true _ _).1 hany
  obtain ⟨entry, hentry, hany⟩ := List.any_eq_true.1 hany
  obtain ⟨hinner, hany⟩ := Bool.and_eq_true_iff.1 hany
  obtain ⟨inner, hdata, hsize⟩ := (Option.any_eq_true _ _).1 hany
  have hencloses : Encloses hollow inner :=
    ⟨entry, ⟨entries, hentries, hentry⟩, of_decide_eq_true hinner, hdata⟩
  refine ⟨inner, Level.outermost.inside hencloses, ?_⟩
  rintro ⟨found, hfound, -⟩
  rw [entries?, of_decide_eq_true hsize] at hfound
  cases hfound

end Shells

open Shells in
/-- A class on level four is listed and one on level five is not, while an archive around something
that is no archive has no list. -/
theorem nested_classes_to_level_four :
    (classNames sample ⟨"lib.jar"⟩ = .ok ["lib.Lib"] ∧
      ∃ k ≤ 4, ∃ archive, Level plain k archive ∧ HoldsClass archive "lib.Lib") ∧
    (¬∃ names, classNames sample ⟨"lib.aar"⟩ = .ok names) ∧
    (Level (nested 4) 4 plain ∧
      ∃ names, classNames sample ⟨"four.aar"⟩ = .ok names ∧ "lib.Lib" ∈ names) ∧
    Level (nested 5) 5 plain ∧ HoldsClass plain "lib.Lib" ∧
      ∃ names, classNames sample ⟨"five.aar"⟩ = .ok names ∧ "lib.Lib" ∉ names := by
  have hplain : sample.content? ⟨"lib.jar"⟩ = some plain := by decide +kernel
  have hhollow : sample.content? ⟨"lib.aar"⟩ = some hollow := by decide +kernel
  have hfour : sample.content? ⟨"four.aar"⟩ = some (nested 4) := by rfl
  have hfive : sample.content? ⟨"five.aar"⟩ = some (nested 5) := by rfl
  obtain ⟨-, -, hclasses, -⟩ := classes_of_all_levels (by decide +kernel) hplain
  obtain ⟨-, hok, -⟩ := classes_of_all_levels (by decide +kernel) hhollow
  obtain ⟨-, hokFour, hmemFour, -⟩ := classes_of_all_levels (by decide +kernel) hfour
  obtain ⟨-, hokFive, hmemFive, -⟩ := classes_of_all_levels (by decide +kernel) hfive
  have hlevelFour : Level (nested 4) 4 plain := level_nested (by decide) 4 (by decide)
  have hlevelFive : Level (nested 5) 5 plain := level_nested (by decide) 5 (by decide)
  refine ⟨⟨classNames_plain, ((hclasses _ classNames_plain).2 _).1 (by decide)⟩, fun h => ?_,
    ⟨hlevelFour, ?_⟩, hlevelFive, holdsClass_plain, ?_⟩
  · obtain ⟨inner, hlevel, hbad⟩ := exists_level_hollow
    exact hbad (hok.1 h 1 (by decide) inner hlevel).1
  · obtain ⟨names, hnames⟩ := hokFour.2 (readableTo_nested (by decide) (by decide))
    exact ⟨names, hnames,
      ((hmemFour names hnames).2 _).2 ⟨4, le_rfl, plain, hlevelFour, holdsClass_plain⟩⟩
  · obtain ⟨names, hnames⟩ := hokFive.2 (readableTo_nested (by decide) (by decide))
    refine ⟨names, hnames, fun hmem => ?_⟩
    obtain ⟨k, hk, archive, hlevel, hclass⟩ := ((hmemFive names hnames).2 _).1 hmem
    obtain rfl := hlevel.unique (level_nested (by decide) k (by omega))
    obtain ⟨rest, hrest⟩ : ∃ rest, 5 - k = rest + 1 := ⟨4 - k, by omega⟩
    rw [hrest] at hclass
    exact not_holdsClass_around (nested_fits (by omega)) hclass

end DependencyLint.Archive
