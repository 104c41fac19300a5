import DependencyLint.Proofs.Memory

/-!
# Contents of libraries

The classes of a library are kept by the text of its coordinate, not by the module that declares it.
What a session gives for a library is therefore not what its own files hold, but what the files of
the library hold that was indexed first under the same text.

**The table of classes** (`Indexes`). Its state is described by the list `known` of all libraries
that were indexed, in their order: under each text stand the classes of the first library of
that text.

**Main result** (`answers_libraryContents`). A module whose contents have not been asked for before
gets, for each of its libraries, the classes of the first library of that text among `known`
followed by its own libraries (`Project.contentsAfter`).

In a session of which less is known, the answers have what all entries of the tables have
(`ensures_libraryClasses`, `ensures_libraryContents_of`).
-/

namespace DependencyLint

open Query Session

/-- The first of the libraries whose coordinate has the given text. -/
def firstNamed (libraries : List ResolvedLibrary) (text : String) : Option ResolvedLibrary :=
  libraries.find? (·.coordinate.render = text)

theorem firstNamed_append (known more : List ResolvedLibrary) (text : String) :
    firstNamed (known ++ more) text = (firstNamed known text).or (firstNamed more text) :=
  List.find?_append

theorem firstNamed_cons_self (library : ResolvedLibrary) (more : List ResolvedLibrary) :
    firstNamed (library :: more) library.coordinate.render = some library := by
  simp [firstNamed]

theorem firstNamed_singleton_of_ne {library : ResolvedLibrary} {text : String}
    (h : text ≠ library.coordinate.render) : firstNamed [library] text = none := by
  simp [firstNamed, h.symm]

namespace Project

/-- The classes of a library where the libraries `known` are indexed: those of the first one with
the same text. -/
def classesAmong (project : Project) (known : List ResolvedLibrary) (library : ResolvedLibrary) :
    Except Failure (List String) :=
  ((firstNamed known library.coordinate.render).getD library).classes project.files

/-- Libraries with the classes that they have where the libraries `known` are indexed. -/
def contentsAmong (project : Project) (known : List ResolvedLibrary)
    (libraries : List DeclaredLibrary) : Except Failure (List LibraryContent) :=
  libraries.mapM fun library => do
    let classes ← project.classesAmong known library.resolved
    pure ⟨library.fullName, library.declared, classes⟩

/-- The contents of the libraries of a module that is looked at after the libraries `known`. -/
def contentsAfter (project : Project) (known : List ResolvedLibrary) (m : BuildModule) :
    Except Failure (List LibraryContent) := do
  let libraries ← project.librariesOf m
  project.contentsAmong (known ++ libraries.map (·.resolved)) libraries

/-- The libraries that a module has indexed, as long as they can be told. -/
def resolvedFor (project : Project) (m : BuildModule) : List ResolvedLibrary :=
  ((project.librariesOf m).toOption.getD []).map (·.resolved)

theorem contentsAfter_eq_ok {project : Project} {known : List ResolvedLibrary} {m : BuildModule}
    {found : List LibraryContent} (h : project.contentsAfter known m = .ok found) :
    ∃ libraries, project.librariesOf m = .ok libraries ∧
      project.resolvedFor m = libraries.map (·.resolved) ∧
      project.contentsAmong (known ++ libraries.map (·.resolved)) libraries = .ok found := by
  obtain ⟨libraries, hl, hc⟩ := bind_eq_ok h
  exact ⟨libraries, hl, by rw [resolvedFor, hl]; rfl, hc⟩

/-- Later libraries do not change the classes of one that is indexed already. -/
theorem classesAmong_append (project : Project) (known more : List ResolvedLibrary)
    (library : ResolvedLibrary) :
    project.classesAmong (known ++ library :: more) library = project.classesAmong known library := by
  rw [classesAmong, classesAmong, firstNamed_append, firstNamed_cons_self]
  cases firstNamed known library.coordinate.render <;> rfl

/-- The first library is indexed before the others are looked at. -/
theorem contentsAmong_cons (project : Project) (known : List ResolvedLibrary)
    (library : DeclaredLibrary) (rest : List DeclaredLibrary) :
    project.contentsAmong (known ++ (library :: rest).map (·.resolved)) (library :: rest) =
      (project.classesAmong known library.resolved >>= fun classes =>
        project.contentsAmong (known ++ [library.resolved] ++ rest.map (·.resolved)) rest >>=
          fun others => pure (⟨library.fullName, library.declared, classes⟩ :: others)) := by
  rw [contentsAmong, List.mapM_cons, List.map_cons, classesAmong_append, List.append_cons]
  cases project.classesAmong known library.resolved <;> rfl

end Project

/-! ## The table of classes -/

/-- The table holds, under each text, the classes of the first known library of that text. -/
def Indexes (project : Project) (known : List ResolvedLibrary) (table : List (String × List String)) :
    Prop :=
  ∀ text, (table.lookup text).map Except.ok = (firstNamed known text).map (·.classes project.files)

section Indexes

variable {project : Project} {known : List ResolvedLibrary} {table : List (String × List String)}
  {library : ResolvedLibrary}

theorem Indexes.nil : Indexes project [] [] := fun _ => rfl

/-- A text that stands in the table is that of a known library, and the classes are ready. -/
theorem Indexes.classesAmong_of_some (h : Indexes project known table) {found : List String}
    (hl : table.lookup library.coordinate.render = some found) :
    project.classesAmong known library = .ok found := by
  have htext := h library.coordinate.render
  rw [hl, Option.map_some] at htext
  obtain ⟨first, hfirst, hclasses⟩ := Option.map_eq_some_iff.1 htext.symm
  rw [Project.classesAmong, hfirst]
  exact hclasses

theorem Indexes.classesAmong_of_none (h : Indexes project known table)
    (hl : table.lookup library.coordinate.render = none) :
    project.classesAmong known library = library.classes project.files := by
  have htext := h library.coordinate.render
  rw [hl, Option.map_none, eq_comm, Option.map_eq_none_iff] at htext
  rw [Project.classesAmong, htext, Option.getD_none]

/-- A library of a text that is known already changes nothing. -/
theorem Indexes.append_of_some (h : Indexes project known table) {found : List String}
    (hl : table.lookup library.coordinate.render = some found) :
    Indexes project (known ++ [library]) table := by
  intro text
  rw [h text, firstNamed_append]
  by_cases htext : text = library.coordinate.render
  · have hknown := h text
    rw [htext, hl, Option.map_some] at hknown
    obtain ⟨first, hfirst, -⟩ := Option.map_eq_some_iff.1 hknown.symm
    rw [htext, hfirst, Option.some_or]
  · rw [firstNamed_singleton_of_ne htext, Option.or_none]

/-- A library of a new text is put into the table with its own classes. -/
theorem Indexes.append_of_none (h : Indexes project known table) {found : List String}
    (hl : table.lookup library.coordinate.render = none)
    (hfound : library.classes project.files = .ok found) :
    Indexes project (known ++ [library]) ((library.coordinate.render, found) :: table) := by
  intro text
  rw [firstNamed_append]
  by_cases htext : text = library.coordinate.render
  · have hknown := h text
    rw [htext, hl, Option.map_none, eq_comm, Option.map_eq_none_iff] at hknown
    rw [htext, hknown, List.lookup_cons_self, Option.none_or, firstNamed_cons_self, Option.map_some,
      Option.map_some, hfound]
  · rw [List.lookup_cons, beq_false_of_ne htext, firstNamed_singleton_of_ne htext, Option.or_none]
    exact h text

end Indexes

/-! ## Asking for classes -/

/-- What is known about the two tables of library contents: `C` about the contents by module, and
the libraries that were indexed. -/
def Tables (project : Project) (C : List (String × List LibraryContent) → Prop)
    (known : List ResolvedLibrary) (contents : List (String × List LibraryContent))
    (classes : List (String × List String)) : Prop :=
  C contents ∧ Indexes project known classes

section Queries

variable {project : Project} {C : List (String × List LibraryContent) → Prop}
  {known : List ResolvedLibrary}

theorem answers_libraryClasses {library : ResolvedLibrary} {found : List String}
    (h : project.classesAmong known library = .ok found) :
    Answers project (Ready project (Tables project C known)) (libraryClasses library) (.ok found)
      (Ready project (Tables project C (known ++ [library]))) := by
  intro s hs
  obtain ⟨hC, hI⟩ := hs.kept
  simp only [libraryClasses, answer_bind, answer_get]
  cases hl : s.classes.lookup library.coordinate.render with
  | some classes =>
    rw [hI.classesAmong_of_some hl] at h
    exact ⟨h, { hs with kept := ⟨hC, hI.append_of_some hl⟩ }⟩
  | none =>
    rw [hI.classesAmong_of_none hl] at h
    simp only [answer_bind, answer_read, answer_ofExcept, answer_modify, answer_pure, h]
    exact ⟨trivial, { hs with kept := ⟨hC, hI.append_of_none hl h⟩ }⟩

theorem answers_libraryClasses_error {library : ResolvedLibrary} {e : Failure}
    (h : project.classesAmong known library = .error e) :
    Answers project (Ready project (Tables project C known)) (libraryClasses library) (.error e)
      (Ready project fun _ _ => True) := by
  intro s hs
  simp only [libraryClasses, answer_bind, answer_get]
  cases hl : s.classes.lookup library.coordinate.render with
  | some classes =>
    rw [hs.kept.2.classesAmong_of_some hl] at h
    cases h
  | none =>
    rw [hs.kept.2.classesAmong_of_none hl] at h
    simp only [answer_bind, answer_read, answer_ofExcept, h]
    exact ⟨trivial, { hs with kept := trivial }⟩

/-- A library with its classes, as a session finds it. -/
def contentOf (library : DeclaredLibrary) : Query LibraryContent := do
  let classes ← libraryClasses library.resolved
  pure ⟨library.fullName, library.declared, classes⟩

theorem answers_contentOf {library : DeclaredLibrary} {classes : List String}
    (h : project.classesAmong known library.resolved = .ok classes) :
    Answers project (Ready project (Tables project C known)) (contentOf library)
      (.ok ⟨library.fullName, library.declared, classes⟩)
      (Ready project (Tables project C (known ++ [library.resolved]))) :=
  (answers_libraryClasses h).bind (Answers.pure _)

/-- The libraries of a module, one after the other. Each one is indexed before the next. -/
theorem answers_mapM_contentOf {libraries : List DeclaredLibrary} {found : List LibraryContent}
    (h : project.contentsAmong (known ++ libraries.map (·.resolved)) libraries = .ok found) :
    Answers project (Ready project (Tables project C known)) (libraries.mapM contentOf) (.ok found)
      (Ready project (Tables project C (known ++ libraries.map (·.resolved)))) := by
  induction libraries generalizing known found with
  | nil =>
    cases h
    rw [List.map_nil, List.append_nil]
    exact Answers.pure []
  | cons library rest ih =>
    rw [Project.contentsAmong_cons] at h
    obtain ⟨classes, hc, h⟩ := bind_eq_ok h
    obtain ⟨others, hothers, h⟩ := bind_eq_ok h
    cases h
    rw [List.mapM_cons, List.map_cons, List.append_cons]
    exact (answers_contentOf hc).bind ((ih hothers).bind (Answers.pure _))

theorem answers_mapM_contentOf_error {libraries : List DeclaredLibrary} {e : Failure}
    (h : project.contentsAmong (known ++ libraries.map (·.resolved)) libraries = .error e) :
    Answers project (Ready project (Tables project C known)) (libraries.mapM contentOf) (.error e)
      (Ready project fun _ _ => True) := by
  induction libraries generalizing known with
  | nil => cases h
  | cons library rest ih =>
    rw [Project.contentsAmong_cons] at h
    rw [List.mapM_cons]
    cases hc : project.classesAmong known library.resolved with
    | error e' =>
      rw [hc] at h
      cases h
      exact (answers_libraryClasses_error hc).bind_error.bind_error
    | ok classes =>
      rw [hc] at h
      refine (answers_contentOf hc).bind (Answers.bind_error (ih ?_))
      cases hr : project.contentsAmong (known ++ [library.resolved] ++ rest.map (·.resolved)) rest with
      | error e' =>
        simp only [hr, bind, Except.bind] at h
        exact h
      | ok others =>
        simp only [hr, bind, Except.bind] at h
        cases h

/-! ## Asking for contents -/

/-- Nothing is kept for the given modules. -/
def Unasked (modules : List BuildModule) (contents : List (String × List LibraryContent)) : Prop :=
  ∀ n ∈ modules, contents.lookup n.id = none

/-- The contents of a module are kept, and nothing for the given modules. -/
def AskedFor (m : BuildModule) (found : List LibraryContent) (modules : List BuildModule)
    (contents : List (String × List LibraryContent)) : Prop :=
  contents.lookup m.id = some found ∧ Unasked modules contents

variable {m : BuildModule} {rest : List BuildModule}

/-- The libraries of a module whose contents have not been asked for are indexed behind the known
ones. -/
theorem answers_libraryContents (hid : project.DistinctIds) (hm : m ∈ project.modules)
    (hrest : ∀ n ∈ rest, n.id ≠ m.id) {found : List LibraryContent}
    (h : project.contentsAfter known m = .ok found) :
    Answers project (Ready project (Tables project (Unasked (m :: rest)) known)) (libraryContents m)
      (.ok found)
      (Ready project (Tables project (AskedFor m found rest) (known ++ project.resolvedFor m))) := by
  obtain ⟨libraries, hl, hresolved, hc⟩ := Project.contentsAfter_eq_ok h
  rw [hresolved]
  intro s hs
  simp only [libraryContents, answer_bind, answer_get]
  rw [hs.kept.1 m List.mem_cons_self]
  have hlibs := answers_libraries (K := Tables project (Unasked (m :: rest)) known) hid hm
  rw [hl] at hlibs
  refine (hlibs.bind ((answers_mapM_contentOf hc).bind fun s' hs' => ?_)) s hs
  simp only [answer_bind, answer_modify, answer_pure]
  refine ⟨trivial, { hs' with kept := ⟨⟨List.lookup_cons_self, fun n hn => ?_⟩, hs'.kept.2⟩ }⟩
  rw [List.lookup_cons, beq_false_of_ne (hrest n hn)]
  exact hs'.kept.1 n (List.mem_cons_of_mem m hn)

theorem answers_libraryContents_error (hid : project.DistinctIds) (hm : m ∈ project.modules)
    {e : Failure} (h : project.contentsAfter known m = .error e) :
    Answers project (Ready project (Tables project (Unasked (m :: rest)) known)) (libraryContents m)
      (.error e) (Ready project fun _ _ => True) := by
  intro s hs
  simp only [libraryContents, answer_bind, answer_get]
  rw [hs.kept.1 m List.mem_cons_self]
  have hlibs := answers_libraries (K := Tables project (Unasked (m :: rest)) known) hid hm
  rw [Project.contentsAfter] at h
  cases hl : project.librariesOf m with
  | error e' =>
    rw [hl] at h hlibs
    cases h
    exact (hlibs.mono (fun _ hs => hs) fun _ hs => { hs with kept := trivial }).bind_error s hs
  | ok libraries =>
    rw [hl] at h hlibs
    exact (hlibs.bind (answers_mapM_contentOf_error h).bind_error) s hs

/-- Contents that are kept are given again. -/
theorem answers_libraryContents_again {found : List LibraryContent} :
    Answers project (Ready project (Tables project (AskedFor m found rest) known))
      (libraryContents m) (.ok found)
      (Ready project (Tables project (AskedFor m found rest) known)) := by
  intro s hs
  simp only [libraryContents, answer_bind, answer_get, hs.kept.1.1, answer_pure]
  exact ⟨trivial, hs⟩

end Queries

/-! ## Whatever was asked before -/

section Invariants

variable {project : Project}

/-- The classes of a library are those that are kept under its text, or else those in its files. -/
theorem ensures_libraryClasses {I : Session → Prop} {library : ResolvedLibrary}
    {P : List String → Prop}
    (hkept : ∀ s, I s → ∀ found,
      s.classes.lookup library.coordinate.render = some found → P found)
    (hnew : ∀ s, I s → ∀ found, library.classes project.files = .ok found →
      I { s with classes := (library.coordinate.render, found) :: s.classes } ∧ P found) :
    Ensures project I (libraryClasses library) P := by
  intro s hs
  simp only [libraryClasses, answer_bind, answer_get]
  cases hl : s.classes.lookup library.coordinate.render with
  | some found =>
    refine ⟨hs, fun other hother => ?_⟩
    cases hother
    exact hkept s hs found hl
  | none =>
    simp only [answer_bind, answer_read, answer_ofExcept]
    cases hc : library.classes project.files with
    | error e => exact ⟨hs, fun other hother => by cases hother⟩
    | ok found =>
      refine ⟨(hnew s hs found hc).1, fun other hother => ?_⟩
      cases hother
      exact (hnew s hs found hc).2

theorem ensures_contentOf {I : Session → Prop} {library : DeclaredLibrary} {P : List String → Prop}
    (h : Ensures project I (libraryClasses library.resolved) P) :
    Ensures project I (contentOf library) fun content =>
      ∃ classes, P classes ∧ content = ⟨library.fullName, library.declared, classes⟩ :=
  h.bind fun classes hclasses => Ensures.pure ⟨classes, hclasses, rfl⟩

/-- The contents of a module are those that are kept for it, or else those of its libraries. -/
theorem ensures_libraryContents_of
    {K : List (String × List LibraryContent) → List (String × List String) → Prop}
    {P : List LibraryContent → Prop} (hid : project.DistinctIds) {m : BuildModule}
    (hm : m ∈ project.modules)
    (hkept : ∀ contents classes, K contents classes →
      ∀ found, contents.lookup m.id = some found → P found)
    (hput : ∀ contents classes found, K contents classes → P found →
      K ((m.id, found) :: contents) classes)
    (hnew : ∀ libraries, project.librariesOf m = .ok libraries →
      Ensures project (Ready project K) (libraries.mapM contentOf) P) :
    Ensures project (Ready project K) (libraryContents m) P := by
  intro s hs
  simp only [libraryContents, answer_bind, answer_get]
  cases hl : s.contents.lookup m.id with
  | some kept =>
    refine ⟨hs, fun found hfound => ?_⟩
    cases hfound
    exact hkept _ _ hs.kept kept hl
  | none =>
    refine Ensures.bind (answers_libraries hid hm).ensures (fun libraries hlibraries => ?_) s hs
    refine (hnew libraries hlibraries).bind fun found hfound s' hs' => ?_
    refine ⟨{ hs' with kept := hput _ _ found hs'.kept hfound }, fun other hother => ?_⟩
    cases hother
    exact hfound

end Invariants

end DependencyLint
