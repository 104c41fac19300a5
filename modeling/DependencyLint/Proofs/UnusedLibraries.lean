import DependencyLint.Proofs.Declarations
import DependencyLint.Proofs.History
import DependencyLint.Proofs.Libraries
import Mathlib.Data.List.TakeWhile

/-!
# What is reported about libraries

**Theorem (`unusedLibraries_reports_exactly`).** Right after the index was built, the rule about
libraries reports a library of a module of the project exactly if no class in the files of its namesake
is in the package of a name that the module, or a module it declares, imports. The libraries are
reported in their order, each one once. The namesake of a library is the library itself, unless the
module has another one with the same text.

The package of a name is the part up to its last dot (`IsPackagePrefix`). A name that is
imported and is a class of the library is a case of two names in one package, so the comparison of
whole names that comes first never decides (`usesLibrary_eq_sharesPackage`).
-/

namespace DependencyLint

open Query Session

/-! ## Packages of names -/

/-- The text `p` is what stands in the name up to its last dot, the dot included, or the whole name
where it has no dot. -/
def IsPackagePrefix (name p : String) : Prop :=
  ('.' ∉ name.toList ∧ p = name) ∨
    ∃ front rest, '.' ∉ rest ∧ name.toList = front ++ '.' :: rest ∧ p.toList = front ++ ['.']

theorem packagePrefix_of_no_dot {name : String} (h : '.' ∉ name.toList) :
    packagePrefix name = name := by
  have hnil : name.toList.reverse.dropWhile (· ≠ '.') = [] := by
    rw [List.dropWhile_eq_nil_iff]
    intro c hc
    rw [decide_eq_true_eq]
    rintro rfl
    exact h (List.mem_reverse.1 hc)
  rw [packagePrefix, hnil]

theorem toList_packagePrefix {name : String} {front rest : List Char} (hrest : '.' ∉ rest)
    (h : name.toList = front ++ '.' :: rest) : (packagePrefix name).toList = front ++ ['.'] := by
  have hdrop : name.toList.reverse.dropWhile (· ≠ '.') = '.' :: front.reverse := by
    have hskip : ∀ c ∈ rest.reverse, decide (c ≠ '.') = true := by
      intro c hc
      rw [decide_eq_true_eq]
      rintro rfl
      exact hrest (List.mem_reverse.1 hc)
    rw [h, List.reverse_append, List.reverse_cons, List.append_assoc, List.singleton_append,
      List.dropWhile_append_of_pos hskip]
    rfl
  rw [packagePrefix, hdrop, String.toList_ofList, List.reverse_cons, List.reverse_reverse]

/-- A name with a dot in it has a last one. -/
theorem exists_last_dot {name : List Char} (h : '.' ∈ name) :
    ∃ front rest, '.' ∉ rest ∧ name = front ++ '.' :: rest := by
  obtain ⟨rest, front, heq, hrest⟩ := List.eq_append_cons_of_mem (List.mem_reverse.2 h)
  refine ⟨front.reverse, rest.reverse, fun hd => hrest (List.mem_reverse.1 hd), ?_⟩
  rw [← List.reverse_reverse name, heq]
  simp

theorem isPackagePrefix_iff {name p : String} : IsPackagePrefix name p ↔ packagePrefix name = p := by
  constructor
  · rintro (⟨hdot, rfl⟩ | ⟨front, rest, hrest, hname, hp⟩)
    · exact packagePrefix_of_no_dot hdot
    · rw [← String.toList_inj, toList_packagePrefix hrest hname, hp]
  · rintro rfl
    by_cases hdot : '.' ∈ name.toList
    · obtain ⟨front, rest, hrest, hname⟩ := exists_last_dot hdot
      exact Or.inr ⟨front, rest, hrest, hname, toList_packagePrefix hrest hname⟩
    · exact Or.inl ⟨hdot, packagePrefix_of_no_dot hdot⟩

/-- Two names have the same package prefix. -/
def SamePackage (a b : String) : Prop := ∃ p, IsPackagePrefix a p ∧ IsPackagePrefix b p

theorem samePackage_iff {a b : String} : SamePackage a b ↔ packagePrefix a = packagePrefix b := by
  simp only [SamePackage, isPackagePrefix_iff]
  exact ⟨fun ⟨_, ha, hb⟩ => ha.trans hb.symm, fun h => ⟨_, h, rfl⟩⟩

/-! ## Signs of use -/

/-- Whether some class is in the package of an import. -/
def sharesPackage (imports classes : List String) : Bool :=
  classes.any fun name => (imports.map packagePrefix).contains (packagePrefix name)

theorem sharesPackage_iff {imports classes : List String} :
    sharesPackage imports classes = true ↔ ∃ i ∈ imports, ∃ s ∈ classes, SamePackage i s := by
  simp only [sharesPackage, List.any_eq_true, List.contains_iff_mem, List.mem_map, samePackage_iff]
  constructor
  · rintro ⟨s, hs, i, hi, heq⟩
    exact ⟨i, hi, s, hs, heq⟩
  · rintro ⟨i, hi, s, hs, heq⟩
    exact ⟨s, hs, i, hi, heq⟩

/-- The test for whole names never decides: a class that is imported is in the package of an
import. -/
theorem usesLibrary_eq_sharesPackage (imports classes : List String) :
    usesLibrary imports classes = sharesPackage imports classes := by
  rw [usesLibrary, ← sharesPackage, Bool.or_eq_right_iff_imp]
  intro h
  obtain ⟨name, hname, hclass⟩ := List.any_eq_true.1 h
  exact sharesPackage_iff.2 ⟨name, hname, name, List.contains_iff_mem.1 hclass, samePackage_iff.2 rfl⟩

/-! ## Imports that count -/

namespace Project

variable {project : Project} {m : BuildModule}

/-- The imports of a module and of the modules that it depends on. -/
def visibleImports (project : Project) (m : BuildModule) : List String :=
  project.sourceImports m ++ ((project.dependencyModules m).map project.sourceImports).flatten

/-- A source file of the module, or of a module of the project that it declares for its product,
imports the name. -/
def Sees (project : Project) (m : BuildModule) (name : String) : Prop :=
  ∃ n ∈ project.modules, (n = m ∨ m.Declares n.id) ∧
    ∃ source ∈ project.sourceFiles n, name ∈ source.imports

theorem mem_dependencyModules (hid : project.DistinctIds) (hm : m ∈ project.modules)
    {n : BuildModule} :
    n ∈ project.dependencyModules m ↔ n ∈ project.modules ∧ n.id ≠ m.id ∧ m.Declares n.id := by
  have hids : ∀ id, (∃ edge ∈ project.moduleIndex.dependencies m.id, edge.id = id) ↔
      id ≠ m.id ∧ m.Declares id := by
    intro id
    rw [← List.mem_map, map_id_dependencies hid hm, BuildModule.mem_moduleDependencies]
  rw [dependencyModules, List.mem_filterMap]
  simp only [find?_eq_some_iff hid]
  constructor
  · rintro ⟨edge, hedge, hn, heq⟩
    exact ⟨hn, (hids n.id).1 ⟨edge, hedge, heq.symm⟩⟩
  · rintro ⟨hn, h⟩
    obtain ⟨edge, hedge, heq⟩ := (hids n.id).2 h
    exact ⟨edge, hedge, hn, heq.symm⟩

theorem mem_visibleImports (hid : project.DistinctIds) (hm : m ∈ project.modules) {name : String} :
    name ∈ project.visibleImports m ↔ project.Sees m name := by
  simp only [visibleImports, List.mem_append, List.mem_flatten, List.mem_map]
  constructor
  · rintro (h | ⟨_, ⟨n, hn, rfl⟩, h⟩)
    · exact ⟨m, hm, Or.inl rfl, mem_sourceImports.1 h⟩
    · obtain ⟨hmem, -, hd⟩ := (mem_dependencyModules hid hm).1 hn
      exact ⟨n, hmem, Or.inr hd, mem_sourceImports.1 h⟩
  · rintro ⟨n, hn, hd, h⟩
    -- A module that declares itself is no dependency of its own, but its imports count anyway.
    by_cases heq : n.id = m.id
    · rw [hid.eq_of_id hn hm heq] at h
      exact Or.inl (mem_sourceImports.2 h)
    · have hd : m.Declares n.id := hd.resolve_left fun h => heq (congrArg BuildModule.id h)
      exact Or.inr ⟨_, ⟨n, (mem_dependencyModules hid hm).2 ⟨hn, heq, hd⟩, rfl⟩,
        mem_sourceImports.2 h⟩

/-! ## The findings without a session -/

/-- The findings about the libraries of a module, from their contents. -/
def libraryFindings (project : Project) (m : BuildModule) (contents : List LibraryContent) :
    List Finding :=
  (contents.filter fun library => !usesLibrary (project.visibleImports m) library.classes).map
    fun library => Rule.unusedLibraries.finding m library.fullName .unusedLibrary

/-- Where the contents are answered, the rule about libraries goes by them. -/
theorem answers_checkLibraries {B : Session → Prop}
    {K : List (String × List LibraryContent) → List (String × List String) → Prop}
    (hid : project.DistinctIds) (hm : m ∈ project.modules) {contents : List LibraryContent}
    (h : Answers project B (libraryContents m) (.ok contents) (Ready project K)) :
    Answers project B (Rule.checkLibraries m) (.ok (project.libraryFindings m contents))
      (Ready project K) := by
  refine h.bind ?_
  cases contents with
  | nil => exact Answers.pure []
  | cons library rest =>
    have hothers : Answers project (Ready project K)
        ((project.dependencyModules m).mapM Query.sourceImports)
        (.ok ((project.dependencyModules m).map project.sourceImports)) (Ready project K) :=
      Answers.mapM fun n hn => answers_sourceImports hid ((mem_dependencyModules hid hm).1 hn).1
    exact (answers_sourceImports hid hm).bind
      ((answers_dependencyModules m).bind (hothers.bind (Answers.pure _)))

/-! ## Classes in files -/

/-- The classes of every file of the library can be listed. -/
def CanIndex (project : Project) (library : ResolvedLibrary) : Prop :=
  ∀ path ∈ library.artifacts, ∃ names, Archive.classNames project.files path = .ok names

instance (project : Project) (library : ResolvedLibrary) : Decidable (project.CanIndex library) :=
  decidable_of_iff
    (∀ path ∈ library.artifacts, (Archive.classNames project.files path).toOption.isSome = true) <| by
    refine forall₂_congr fun path _ => ?_
    cases Archive.classNames project.files path <;> simp [Except.toOption]

/-- Some file of the library holds the class. -/
def HasClass (project : Project) (library : ResolvedLibrary) (name : String) : Prop :=
  ∃ path ∈ library.artifacts, ∃ names,
    Archive.classNames project.files path = .ok names ∧ name ∈ names

theorem exists_classes {library : ResolvedLibrary} (h : project.CanIndex library) :
    ∃ found, library.classes project.files = .ok found ∧
      ∀ name, name ∈ found ↔ project.HasClass library name := by
  choose! names hnames using h
  have hlists : (library.artifacts.mapM fun path =>
      (Archive.classNames project.files path).mapError (Failure.archive path)) =
        .ok (library.artifacts.map names) := by
    refine mapM_eq_ok fun path hpath => ?_
    rw [hnames path hpath]
    rfl
  refine ⟨Text.sortedNames (library.artifacts.map names).flatten, ?_, fun name => ?_⟩
  · rw [ResolvedLibrary.classes, hlists]
    rfl
  · simp only [Text.mem_sortedNames, List.mem_flatten, List.mem_map, HasClass]
    constructor
    · rintro ⟨_, ⟨path, hpath, rfl⟩, hname⟩
      exact ⟨path, hpath, names path, hnames path hpath, hname⟩
    · rintro ⟨path, hpath, list, hlist, hname⟩
      obtain rfl : names path = list := Except.ok.inj ((hnames path hpath).symm.trans hlist)
      exact ⟨_, ⟨path, hpath, rfl⟩, hname⟩

/-- A session that knows no library gives each library of a module the classes in the files of its
namesake. -/
theorem exists_contents {libraries : List DeclaredLibrary}
    (hl : project.librariesOf m = .ok libraries)
    (hindex : ∀ library ∈ libraries, project.CanIndex library.resolved) :
    ∃ classes : DeclaredLibrary → List String,
      project.contentsAfter [] m =
        .ok (libraries.map fun library => ⟨library.fullName, library.declared, classes library⟩) ∧
      ∀ library ∈ libraries, ∀ name, name ∈ classes library ↔
        project.HasClass (library.namesake libraries).resolved name := by
  have hclasses := fun library (hlib : library ∈ libraries) =>
    exists_classes (hindex _ (namesake_mem hlib))
  choose! classes hfound hmem using hclasses
  refine ⟨classes, ?_, hmem⟩
  rw [contentsAfter_nil hl]
  refine mapM_eq_ok fun library hlib => ?_
  rw [hfound library hlib]
  rfl

end Project

/-! ## A project with two libraries -/

/-- An archive that holds one empty file. -/
def Archive.ofEntry (name : String) : ByteArray :=
  let text : List UInt8 := name.toList.map (·.toNat.toUInt8)
  let size : List UInt8 := [text.length.toUInt8, 0]
  let own := [80, 75, 3, 4] ++ List.replicate 22 0 ++ size ++ [0, 0] ++ text
  let listed := [80, 75, 1, 2] ++ List.replicate 24 0 ++ size ++ List.replicate 16 0 ++ text
  ⟨(own ++ listed ++ [80, 75, 5, 6, 0, 0, 0, 0, 1, 0, 1, 0] ++
    [listed.length.toUInt8, 0, 0, 0, own.length.toUInt8, 0, 0, 0, 0, 0]).toArray⟩

namespace TwoLibraries

def resolved (artifact file : String) : ResolvedLibrary :=
  ⟨⟨"org", artifact, "1"⟩, [":app:"], [⟨file⟩]⟩

def both : List DeclaredLibrary :=
  [⟨⟨"org", "lib", "1"⟩, resolved "lib" "lib.jar"⟩, ⟨⟨"org", "old", "1"⟩, resolved "old" "old.jar"⟩]

def app : BuildModule where
  id := "app"
  name := "app"
  directory := ⟨"app"⟩
  configurations := [{
    name := "api"
    canBeResolved := true
    dependencies := .onModule "core" :: both.map (.onLibrary ·.declared)
    resolved := both.map (·.resolved) }]

/-- The module `core`, which `app` declares, imports something from the package of one library. -/
def sample : Project where
  files := .ofEntries [("lib.jar", .file (Archive.ofEntry "lib/Lib.class")),
    ("old.jar", .file (Archive.ofEntry "old/Old.class")),
    ("core", .ofSource "import lib.other")]
  manifest := ⟨[app, { id := "core", directory := ⟨"core"⟩ }]⟩
  settings := {}

end TwoLibraries

/-! ## The theorem -/

variable {project : Project} {m : BuildModule}

/-- **The rule about libraries reports exactly the libraries without a class in the package of an
import.** They are reported in the order in which the session lists them, and what counts are the
classes of the first library with the same text. A library without such classes is always reported,
and the comparison of whole names never decides. -/
theorem unusedLibraries_reports_exactly (hid : project.DistinctIds) (hm : m ∈ project.modules)
    (hok : (Query.buildIndex.answer project {}).1 = .ok ()) {libraries : List DeclaredLibrary}
    (hl : ((Query.libraries m).answer project project.freshSession).1 = .ok libraries)
    (hindex : ∀ library ∈ libraries, project.CanIndex library.resolved) :
    ∃ isUnused : DeclaredLibrary → Bool,
      ((Rule.unusedLibraries.check m).answer project project.freshSession).1 =
        .ok ((libraries.filter isUnused).map fun library =>
          ⟨"DS002", "unused-library-dependency", m.label, library.fullName, .unusedLibrary⟩) ∧
      (∀ library ∈ libraries, isUnused library = true ↔
        ¬∃ i s, project.Sees m i ∧ project.HasClass (library.namesake libraries).resolved s ∧
          SamePackage i s) ∧
      (∀ library ∈ libraries, (∀ s, ¬project.HasClass (library.namesake libraries).resolved s) →
        isUnused library = true) ∧
      (m.TellsLibrariesApart → ∀ library ∈ libraries, library.namesake libraries = library) ∧
      ∀ imports classes, usesLibrary imports classes = sharesPackage imports classes := by
  have hready := ready_freshSession (K := Tables project (Unasked [m]) []) hid
    ⟨fun _ _ => rfl, Indexes.nil⟩ hok
  rw [(answers_libraries hid hm _ hready).1] at hl
  obtain ⟨classes, hcontents, hmem⟩ := Project.exists_contents hl hindex
  have hunused : ∀ library ∈ libraries,
      (!sharesPackage (project.visibleImports m) (classes library)) = true ↔
        ¬∃ i s, project.Sees m i ∧ project.HasClass (library.namesake libraries).resolved s ∧
          SamePackage i s := by
    intro library hlib
    rw [Bool.not_eq_true', ← Bool.not_eq_true, sharesPackage_iff]
    simp only [Project.mem_visibleImports hid hm, hmem library hlib]
    grind
  refine ⟨fun library => !sharesPackage (project.visibleImports m) (classes library), ?_, hunused,
    fun library hlib hnone => (hunused library hlib).2 ?_, fun hapart library hlib => ?_,
    usesLibrary_eq_sharesPackage⟩
  · have hrest : ∀ n ∈ ([] : List BuildModule), n.id ≠ m.id := by simp
    have hanswer := Project.answers_checkLibraries hid hm
      (answers_libraryContents hid hm hrest hcontents)
    rw [Rule.check, (hanswer _ hready).1, Project.libraryFindings, List.filter_map, List.map_map]
    simp only [usesLibrary_eq_sharesPackage]
    rfl
  · rintro ⟨i, s, -, hs, -⟩
    exact hnone s hs
  · exact namesake_eq_self hlib (BuildModule.nodup_fullName hapart hl)

open TwoLibraries in
theorem twoLibraries_reports_by_package :
    sample.CanIndex (resolved "lib" "lib.jar") ∧ sample.CanIndex (resolved "old" "old.jar") ∧
    ∃ isUnused : DeclaredLibrary → Bool,
      ((Rule.unusedLibraries.check app).answer sample sample.freshSession).1 =
        .ok ((both.filter isUnused).map fun library =>
          ⟨"DS002", "unused-library-dependency", "app", library.fullName, .unusedLibrary⟩) ∧
      ∀ library ∈ both, isUnused library = true ↔
        ¬∃ i s, sample.Sees app i ∧ sample.HasClass library.resolved s ∧ SamePackage i s := by
  have hindex : ∀ library ∈ both, sample.CanIndex library.resolved := by decide +kernel
  obtain ⟨isUnused, hanswer, hunused, -, hself, -⟩ := unusedLibraries_reports_exactly (by decide)
    (by decide +kernel : app ∈ sample.modules) (eq_ok_of_toOption (by decide +kernel))
    (eq_ok_of_toOption (by decide +kernel)) hindex
  refine ⟨hindex _ List.mem_cons_self, hindex _ (List.mem_cons_of_mem _ List.mem_cons_self), isUnused,
    hanswer, fun library hlibrary => ?_⟩
  have hlibrary' := hunused library hlibrary
  rwa [hself (by decide +kernel) library hlibrary] at hlibrary'

/-! ## Two libraries with one text, and a module apart -/

namespace SharedText

def filled : DeclaredLibrary := ⟨⟨"a", "b:c", "1"⟩, ⟨⟨"a", "b:c", "1"⟩, [":app:"], [⟨"lib.jar"⟩]⟩⟩

def bare : DeclaredLibrary := ⟨⟨"a:b", "c", "1"⟩, ⟨⟨"a:b", "c", "1"⟩, [":app:"], []⟩⟩

def app : BuildModule where
  id := "app"
  name := "app"
  directory := ⟨"app"⟩
  configurations := [{
    name := "api"
    canBeResolved := true
    dependencies := [.onLibrary filled.declared, .onLibrary bare.declared]
    resolved := [filled.resolved, bare.resolved] }]

/-- The module imports something from the package of the library that has files. -/
def sample : Project where
  files := .ofEntries [("lib.jar", .file (Archive.ofEntry "lib/Lib.class")),
    ("app", .ofSource "import lib.other")]
  manifest := ⟨[app]⟩
  settings := {}

/-- A module that declares what `TwoLibraries.app` declares and is not part of the project. -/
def outside : BuildModule := { TwoLibraries.app with id := "outside" }

end SharedText

open SharedText in
/-- **A library without classes is passed over behind one with its text, and for a module that is not
part of the project the imports of the modules that it declares do not count.** -/
theorem reported_by_text_within_project :
    (((Query.libraries app).answer sample sample.freshSession).1 = .ok [filled, bare] ∧
      filled.resolved.coordinate ≠ bare.resolved.coordinate ∧
      (∀ s, ¬sample.HasClass bare.resolved s) ∧
      ((Rule.unusedLibraries.check app).answer sample sample.freshSession).1 = .ok []) ∧
    TwoLibraries.sample.Sees outside "lib.other" ∧
      TwoLibraries.sample.HasClass (TwoLibraries.resolved "lib" "lib.jar") "lib.Lib" ∧
      SamePackage "lib.other" "lib.Lib" ∧
      ((Rule.unusedLibraries.check outside).answer TwoLibraries.sample
          TwoLibraries.sample.freshSession).1 =
        .ok [⟨"DS002", "unused-library-dependency", "outside", "org:lib:1", .unusedLibrary⟩,
          ⟨"DS002", "unused-library-dependency", "outside", "org:old:1", .unusedLibrary⟩] := by
  have hbare : ∀ s, ¬sample.HasClass bare.resolved s := by
    rintro s ⟨path, hpath, -⟩
    cases hpath
  have hsees : TwoLibraries.sample.Sees outside "lib.other" := by
    have hdeclares : outside.Declares "core" := BuildModule.mem_declaredIds.1 (by decide +kernel)
    refine ⟨{ id := "core", directory := ⟨"core"⟩ }, by decide +kernel, Or.inr hdeclares, ?_⟩
    decide +kernel
  have hclass : TwoLibraries.sample.HasClass (TwoLibraries.resolved "lib" "lib.jar") "lib.Lib" :=
    ⟨⟨"lib.jar"⟩, List.mem_cons_self, ["lib.Lib"], eq_ok_of_toOption (by decide +kernel),
      List.mem_cons_self⟩
  exact ⟨⟨eq_ok_of_toOption (by decide +kernel), by decide, hbare,
    eq_ok_of_toOption (by decide +kernel)⟩, hsees, hclass, samePackage_iff.2 (by decide),
    eq_ok_of_toOption (by decide +kernel)⟩

end DependencyLint
