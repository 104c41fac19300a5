import DependencyLint.Proofs.Declarations
import DependencyLint.Proofs.History
import DependencyLint.Proofs.TreeWalk

/-!
# The source files of a module

**Theorem (`source_files_of_roots`).** In a session with an index, the source files of a module of the
project are listed root by root. Below one root these are the regular files with the name of a source
file that no pattern leaves out, each of them once, in the order of their paths. The imports and the
packages of the module are those of these files.

What is below a root is told by the places in the file tree (`FileSystem.IsFileBelow`), not by walking
it, and the path within a module by its components (`Path.IsRest`). A walk that could not list a
directory, or not read a source file, would have failed to build the index.

The name of a source file is a text: a name that is not UTF-8 is passed over, whatever it ends in, and
a module that is not part of the project has no packages (`passed_over_sources`).
-/

namespace DependencyLint

open FileTree FileSystem

/-! ## Names of source files -/

/-- No name ends with two extensions. -/
theorem Language.ofFileName?_eq_some_iff {name : String} {language : Language} :
    Language.ofFileName? name = some language ↔ language.extension.toList <:+ name.toList := by
  have hother : ".kt".toList <:+ name.toList → ¬".java".toList <:+ name.toList := by
    rintro ⟨front, hkotlin⟩ ⟨front', hjava⟩
    have hlast := congrArg List.getLast? (hkotlin.trans hjava.symm)
    simp at hlast
  by_cases hkotlin : ".kt".toList <:+ name.toList
  · have hfound : ofFileName? name = some kotlin :=
      List.find?_cons_of_pos (List.isSuffixOf_iff_suffix.2 hkotlin)
    rw [hfound]
    cases language with
    | kotlin => exact iff_of_true rfl hkotlin
    | java => exact iff_of_false (by simp) (hother hkotlin)
  · have hrest : ofFileName? name =
        [java].find? fun language => language.extension.toList.isSuffixOf name.toList :=
      List.find?_cons_of_neg (mt List.isSuffixOf_iff_suffix.1 hkotlin)
    rw [hrest, List.find?_singleton]
    cases language with
    | kotlin => exact iff_of_false (by split_ifs <;> simp) hkotlin
    | java => simp [List.isSuffixOf_iff_suffix]

namespace SourceFile

/-! ## Patterns -/

/-- A pattern matches the path of a file, or the rest of it behind the directory of the module. -/
def IsLeftOut (globs : List Glob) (directory path : Path) : Prop :=
  ∃ glob ∈ globs, glob.isMatchOf path = true ∨
    ∃ inner, Path.IsRest directory path inner ∧ glob.isMatchOf inner = true

theorem isExcluded_iff {globs : List Glob} {directory path : Path}
    (hlast : ∀ piece ∈ path.pieces.getLast?, Path.isIdle piece = false) :
    isExcluded globs directory path = true ↔ IsLeftOut globs directory path := by
  simp only [isExcluded, IsLeftOut, List.any_eq_true, Bool.or_eq_true,
    ← Path.stripDir?_eq_some_iff hlast]
  cases directory.stripDir? path with
  | none => simp
  | some inner => simp [or_comm]

/-! ## The files below one root -/

/-- A source file that is read from a regular file at `root` or below it. -/
def IsSourceBelow (files : FileSystem) (globs : List Glob) (directory root : Path)
    (file : SourceFile) : Prop :=
  ∃ names content name language, files.IsFileBelow root names content ∧
    (root.extend names).fileName? = some (.ofText name) ∧
    language.extension.toList <:+ name.toList ∧
    ¬IsLeftOut globs directory (root.extend names) ∧
    file = ofBytes (root.extend names) language content

/-- All source files at `root` and below it, each once and in the order of their paths. -/
structure IsListing (files : FileSystem) (globs : List Glob) (directory root : Path)
    (listing : List SourceFile) : Prop where
  mem_iff : ∀ file, file ∈ listing ↔ IsSourceBelow files globs directory root file
  sorted : listing.Pairwise fun a b => a.path.IsBefore b.path
  once : (listing.map (·.path)).Nodup
  missing : files.exists? root = false → listing = []

theorem languageOf?_eq_some_iff {path : Path} {language : Language} :
    languageOf? path = some language ↔ ∃ name, path.fileName? = some (.ofText name) ∧
      language.extension.toList <:+ name.toList := by
  simp only [languageOf?, Option.bind_eq_some_iff, Language.ofFileName?_eq_some_iff,
    RawText.text?_eq_some_iff]
  constructor
  · rintro ⟨name, ⟨raw, hraw, rfl⟩, hlanguage⟩
    exact ⟨name, hraw, hlanguage⟩
  · rintro ⟨name, hname, hlanguage⟩
    exact ⟨name, ⟨_, hname, rfl⟩, hlanguage⟩

/-- What was found is a source file that is not left out, and its bytes could be read. -/
theorem ofFound_eq_some_iff {exclude : List Glob} {directory path : Path} {found : Found}
    {file : SourceFile} :
    ofFound exclude directory path found = .ok (some file) ↔ ∃ bytes language,
      found = .file (some bytes) ∧ languageOf? path = some language ∧
      isExcluded exclude directory path = false ∧ file = ofBytes path language bytes := by
  cases found with
  | closed => simp [ofFound]
  | file content =>
    cases hlanguage : languageOf? path with
    | none => simp [ofFound, hlanguage]
    | some language =>
      cases hexcluded : isExcluded exclude directory path with
      | true => simp [ofFound, hlanguage, hexcluded]
      | false => cases content <;> simp [ofFound, hlanguage, hexcluded, eq_comm]

/-- The source files in what is found at and below a path. -/
def ofRoot (files : FileSystem) (exclude : List Glob) (directory root : Path) : List SourceFile :=
  (files.foundUnder root).filterMap fun (path, found) =>
    (ofFound exclude directory path found).toOption.join

/-- All that is looked at below a path can be read. -/
def IsRead (files : FileSystem) (exclude : List Glob) (directory root : Path) : Prop :=
  ∀ path found, (path, found) ∈ files.foundUnder root →
    ∃ file?, ofFound exclude directory path found = .ok file?

theorem filterMap_id_of_mapM_ok {α β ε : Type} {f : α → Except ε (Option β)} {l : List α}
    {found : List (Option β)} (h : l.mapM f = .ok found) :
    found.filterMap id = l.filterMap fun a => (f a).toOption.join := by
  induction l generalizing found with
  | nil =>
    cases h
    rfl
  | cons a l ih =>
    obtain ⟨b, bs, hb, hbs, rfl⟩ := mapM_cons_eq_ok h
    have hrest := ih hbs
    cases b with
    | none => simpa [hb, Except.toOption] using hrest
    | some b => simpa [hb, Except.toOption] using hrest

theorem of_ofModule_eq_ok {files : FileSystem} {exclude : List Glob} {m : BuildModule}
    {sources : List SourceFile} (h : ofModule files exclude m = .ok sources) :
    sources = m.sourceDirs.flatMap (ofRoot files exclude m.directory) ∧
      ∀ root ∈ m.sourceDirs, IsRead files exclude m.directory root := by
  obtain ⟨found, hfound, h⟩ := bind_eq_ok h
  cases h
  refine ⟨?_, fun root hroot path what hwhat => ?_⟩
  · rw [filterMap_id_of_mapM_ok hfound]
    exact List.filterMap_flatMap
  · exact forall_of_mapM_ok hfound (path, what) (List.mem_flatMap.2 ⟨root, hroot, hwhat⟩)

theorem mem_ofRoot {files : FileSystem} {exclude : List Glob} {directory root : Path}
    {file : SourceFile} :
    file ∈ ofRoot files exclude directory root ↔ ∃ path found, (path, found) ∈ files.foundUnder root ∧
      ofFound exclude directory path found = .ok (some file) := by
  have hjoin : ∀ r : Except Path (Option SourceFile),
      r.toOption.join = some file ↔ r = .ok (some file) := by
    rintro (e | file?) <;> simp [Except.toOption]
  simp only [ofRoot, List.mem_filterMap, hjoin, Prod.exists]

section Root

variable {files : FileSystem} {globs : List Glob} {directory root : Path} {file : SourceFile}
  (hproper : files.tree.IsProper)
include hproper

theorem isSourceBelow_of_mem (h : file ∈ ofRoot files globs directory root) :
    IsSourceBelow files globs directory root file := by
  obtain ⟨path, found, hfound, hfile⟩ := mem_ofRoot.1 h
  obtain ⟨bytes, language, rfl, hlanguage, hkept, rfl⟩ := ofFound_eq_some_iff.1 hfile
  obtain ⟨name, hname, hsuffix⟩ := languageOf?_eq_some_iff.1 hlanguage
  rcases of_mem_foundUnder hproper hfound with hclosed | ⟨names, content, rfl, hbelow, hof⟩
  · cases hclosed
  obtain ⟨bytes?, heq, hbytes⟩ := hof
  cases heq
  obtain rfl : bytes = content := hbytes bytes rfl
  refine ⟨names, bytes, name, language, hbelow, hname, hsuffix, ?_, rfl⟩
  rw [← isExcluded_iff hbelow.not_isIdle, hkept]
  exact Bool.false_ne_true

theorem mem_of_isSourceBelow (hread : IsRead files globs directory root)
    (h : IsSourceBelow files globs directory root file) :
    file ∈ ofRoot files globs directory root := by
  obtain ⟨names, content, name, language, hbelow, hname, hsuffix, hkept, rfl⟩ := h
  have hlisted : ∀ path, (path, .closed) ∉ files.foundUnder root := by
    intro path hclosed
    obtain ⟨file?, hfile⟩ := hread path .closed hclosed
    cases hfile
  obtain ⟨found, hfound, bytes?, rfl, hbytes⟩ := exists_mem_foundUnder hproper hlisted hbelow
  have hlanguage := languageOf?_eq_some_iff.2 ⟨name, hname, hsuffix⟩
  rw [← isExcluded_iff hbelow.not_isIdle, Bool.not_eq_true] at hkept
  obtain ⟨file?, hfile⟩ := hread _ _ hfound
  cases bytes? with
  | none => simp [ofFound, hlanguage, hkept] at hfile
  | some bytes =>
    obtain rfl : bytes = content := hbytes bytes rfl
    exact mem_ofRoot.2 ⟨_, _, hfound,
      ofFound_eq_some_iff.2 ⟨bytes, language, rfl, hlanguage, hkept, rfl⟩⟩

omit hproper in
theorem path_of_ofFound {path : Path} {found : Found}
    (h : (ofFound globs directory path found).toOption.join = some file) : file.path = path := by
  rcases hfound : ofFound globs directory path found with e | file? <;> rw [hfound] at h
  · cases h
  · cases h
    obtain ⟨bytes, language, -, -, -, rfl⟩ := ofFound_eq_some_iff.1 hfound
    rfl

theorem isListing_ofRoot (hread : IsRead files globs directory root) :
    IsListing files globs directory root (ofRoot files globs directory root) := by
  have hsorted : (ofRoot files globs directory root).Pairwise fun a b => a.path.IsBefore b.path := by
    rw [ofRoot, List.pairwise_filterMap]
    refine (pairwise_foundUnder hproper root).imp fun {a b} hab first hfirst second hsecond => ?_
    rw [path_of_ofFound hfirst, path_of_ofFound hsecond]
    exact hab
  refine ⟨fun file => ⟨isSourceBelow_of_mem hproper, mem_of_isSourceBelow hproper hread⟩, hsorted, ?_,
    ?_⟩
  · refine List.pairwise_map.2 (hsorted.imp fun {a b} hab heq => ?_)
    exact Path.IsBefore.irrefl b.path (heq ▸ hab)
  · intro hmissing
    rw [exists?, Option.isSome_eq_false_iff, Option.isNone_iff_eq_none] at hmissing
    rw [ofRoot, foundUnder_of_none hmissing, List.filterMap_nil]

end Root

/-- Where all can be read, so can the sources of a module. -/
theorem exists_ofModule_eq_ok {files : FileSystem} (h : files.tree.IsReadable) (exclude : List Glob)
    (m : BuildModule) : ∃ sources, ofModule files exclude m = .ok sources := by
  have hread : ∃ found, ((m.sourceDirs.flatMap files.foundUnder).mapM fun (path, found) =>
      ofFound exclude m.directory path found) = .ok found := by
    refine exists_mapM_ok fun ⟨path, found⟩ hmem => ?_
    obtain ⟨root, -, hfound⟩ := List.mem_flatMap.1 hmem
    obtain ⟨content, rfl⟩ := exists_of_mem_foundUnder h hfound
    simp only [ofFound]
    cases languageOf? path with
    | none => exact ⟨none, rfl⟩
    | some language =>
      dsimp only
      split_ifs
      · exact ⟨none, rfl⟩
      · exact ⟨_, rfl⟩
  obtain ⟨found, hfound⟩ := hread
  exact ⟨found.filterMap id, by rw [ofModule, hfound]; rfl⟩

end SourceFile

/-- **Where all can be read and all patterns are globs, the index can be built.** -/
theorem Project.isIndexable_of_isReadable {project : Project} (h : project.files.tree.IsReadable)
    {globs : List Glob} (hglobs : project.settings.excludeGlobs = .ok globs) :
    project.IsIndexable := by
  have heq : project.globs = globs := by
    rw [Project.globs, hglobs]
    rfl
  refine ⟨heq ▸ hglobs, fun m _ => ?_⟩
  obtain ⟨sources, hsources⟩ := SourceFile.exists_ofModule_eq_ok h project.globs m
  have hread : project.readSources m = .ok sources := by
    rw [readSources, hsources]
    rfl
  rw [sourceFiles, hread]
  rfl

/-! ## The theorem -/

variable {project : Project} {m : BuildModule}

/-- **The source files of a module are those below its roots, root by root.** Each root has a listing
of its own, which is empty where there is no such root. The imports are in the order of their first
occurrence, and the packages are those that some file has. -/
theorem source_files_of_roots (hid : project.DistinctIds) (hm : m ∈ project.modules)
    (hproper : project.files.tree.IsProper) {globs : List Glob}
    (hglobs : project.settings.excludeGlobs = .ok globs) {history : List (Sigma Request)}
    (hh : ∀ r ∈ history, r.2.IsWithin project) (hbuilt : IndexBuilt project history) :
    ∃ listing : Path → List SourceFile,
      (∀ root ∈ m.sourceDirs,
        SourceFile.IsListing project.files globs m.directory root (listing root)) ∧
      let session := Session.after project {} history
      let files := m.sourceDirs.flatMap listing
      ((Query.sourceFiles m).answer project session).1 = .ok files ∧
      ((Query.sourceImports m).answer project session).1 =
        .ok (files.flatMap (·.imports)).eraseDups ∧
      ∃ packages, ((Query.modulePackages m.id).answer project session).1 = .ok packages ∧
        packages.Pairwise (· < ·) ∧
        ∀ package, package ∈ packages ↔ package ≠ "" ∧ ∃ file ∈ files, file.package = package := by
  obtain ⟨-, hready⟩ := hbuilt.ready hid hh
  have hread : SourceFile.ofModule project.files globs m = .ok (project.sourceFiles m) := by
    have hsources := hready.indexable.sources m hm
    rw [Project.readSources, Project.globs, hglobs] at hsources
    exact mapError_eq_ok hsources
  obtain ⟨hfiles, hroots⟩ := SourceFile.of_ofModule_eq_ok hread
  have hpackages := Project.packagesFor_id hid hm
  refine ⟨_, fun root hroot => SourceFile.isListing_ofRoot hproper (hroots root hroot), ?_⟩
  refine ⟨?_, ?_, _, (Query.answers_modulePackages m.id _ hready).1, ?_, ?_⟩
  · rw [(Query.answers_sourceFiles hid hm _ hready).1, hfiles]
  · rw [(Query.answers_sourceImports hid hm _ hready).1, Project.sourceImports, hfiles]
  · rw [hpackages]
    exact Text.pairwise_sortedNames _
  · intro package
    rw [hpackages, Project.mem_packagesOf, hfiles]
    constructor
    · rintro ⟨file, hfile, hne, rfl⟩
      exact ⟨hne, file, hfile, rfl⟩
    · rintro ⟨hne, file, hfile, rfl⟩
      exact ⟨file, hfile, hne, rfl⟩

/-! ## A directory whose name starts another's -/

namespace KitSources

def app : BuildModule where
  id := "app"
  name := "app"
  directory := ⟨"/work/app"⟩
  sourceRoots := [⟨"gone"⟩, ⟨"src"⟩]

def screenText : String := "package ui\nimport lib.Two\nimport lib.One"

def kitText : String := "package ui.kit;\nimport lib.One;"

def kitDir : FileTree := .dir [("Kit.java", .file kitText.toUTF8)]

def uiDir : FileTree :=
  .dir [("Screen.kt", .file screenText.toUTF8), ("Old.kt", .file screenText.toUTF8),
    ("notes.txt", .file .empty)]

/-- As texts, paths below `ui-kit` come before those below `ui`. A pattern leaves out one of the
files, by its path within the module. -/
def sample : Project where
  files := .ofEntries
    [("work", .dir [("app", .dir [("src", .dir [("ui-kit", kitDir), ("ui", uiDir)])])])]
  manifest := ⟨[app]⟩
  settings := { exclude := ["src/ui/Old*"] }

def source (path : String) (language : Language) (text : String) : SourceFile :=
  .ofBytes (.ofText path) language text.toUTF8

def screen : SourceFile := source "/work/app/src/ui/Screen.kt" .kotlin screenText

def old : SourceFile := source "/work/app/src/ui/Old.kt" .kotlin screenText

def kit : SourceFile := source "/work/app/src/ui-kit/Kit.java" .java kitText

theorem isProper_sample : sample.files.tree.IsProper := by
  have hkit : kitDir.IsProper :=
    .dir {} (by decide +kernel) (by decide +kernel) (by simp [IsProper.file])
  have hui : uiDir.IsProper :=
    .dir {} (by decide +kernel) (by decide +kernel) (by simp [IsProper.file])
  have hsrc : ∀ entry ∈ [(("ui-kit" : RawText), kitDir), ("ui", uiDir)], entry.2.IsProper :=
    List.forall_mem_cons.2 ⟨hkit, List.forall_mem_singleton.2 hui⟩
  refine .dir {} (by decide +kernel) (by decide +kernel) (List.forall_mem_singleton.2 ?_)
  refine .dir {} (by decide +kernel) (by decide +kernel) (List.forall_mem_singleton.2 ?_)
  refine .dir {} (by decide +kernel) (by decide +kernel) (List.forall_mem_singleton.2 ?_)
  exact .dir {} (by decide +kernel) (by decide +kernel) hsrc

theorem isReadable_sample : sample.files.tree.IsReadable := by
  have hkit : kitDir.IsReadable := .dir rfl rfl (by simp [IsReadable.file])
  have hui : uiDir.IsReadable := .dir rfl rfl (by simp [IsReadable.file])
  have hsrc : ∀ entry ∈ [(("ui-kit" : RawText), kitDir), ("ui", uiDir)], entry.2.IsReadable :=
    List.forall_mem_cons.2 ⟨hkit, List.forall_mem_singleton.2 hui⟩
  refine .dir rfl rfl (List.forall_mem_singleton.2 ?_)
  refine .dir rfl rfl (List.forall_mem_singleton.2 ?_)
  exact .dir rfl rfl (List.forall_mem_singleton.2 (.dir rfl rfl hsrc))

theorem globs_sample : sample.settings.excludeGlobs = .ok sample.globs :=
  eq_ok_of_toOption (by decide +kernel)

theorem indexBuilt_sample : IndexBuilt sample [⟨Unit, .buildIndex⟩] := by
  have hindexable := Project.isIndexable_of_isReadable isReadable_sample globs_sample
  exact ⟨[], [], rfl, (buildIndex_ok_iff (by decide)).2 hindexable⟩

theorem isSourceBelow_screen :
    screen.IsSourceBelow sample.files sample.globs app.directory ⟨"/work/app/src"⟩ := by
  have hbelow : sample.files.IsFileBelow ⟨"/work/app/src"⟩ ["ui", "Screen.kt"] screenText.toUTF8 :=
    ⟨by decide +kernel, {}, rfl⟩
  have hpath : screen.path = (Path.mk "/work/app/src").extend ["ui", "Screen.kt"] := by
    decide +kernel
  have hkept : ¬SourceFile.IsLeftOut sample.globs app.directory screen.path :=
    mt (SourceFile.isExcluded_iff (hpath ▸ hbelow.not_isIdle)).2 (by decide +kernel)
  refine ⟨_, _, "Screen.kt", .kotlin, hbelow, by decide +kernel, by decide, hpath ▸ hkept, ?_⟩
  rw [← hpath]
  rfl

theorem isSourceBelow_kit :
    kit.IsSourceBelow sample.files sample.globs app.directory ⟨"/work/app/src"⟩ := by
  have hbelow : sample.files.IsFileBelow ⟨"/work/app/src"⟩ ["ui-kit", "Kit.java"] kitText.toUTF8 :=
    ⟨by decide +kernel, {}, rfl⟩
  have hpath : kit.path = (Path.mk "/work/app/src").extend ["ui-kit", "Kit.java"] := by
    decide +kernel
  have hkept : ¬SourceFile.IsLeftOut sample.globs app.directory kit.path :=
    mt (SourceFile.isExcluded_iff (hpath ▸ hbelow.not_isIdle)).2 (by decide +kernel)
  refine ⟨_, _, "Kit.java", .java, hbelow, by decide +kernel, by decide, hpath ▸ hkept, ?_⟩
  rw [← hpath]
  rfl

theorem isLeftOut_old : SourceFile.IsLeftOut sample.globs app.directory old.path :=
  (SourceFile.isExcluded_iff (by decide +kernel)).1 (by decide +kernel)

theorem isBefore_screen : screen.path.IsBefore kit.path := by
  have hscreen : screen.path.components =
      [.root, .name "work", .name "app", .name "src", .name "ui", .name "Screen.kt"] := by
    decide +kernel
  have hkit : kit.path.components =
      [.root, .name "work", .name "app", .name "src", .name "ui-kit", .name "Kit.java"] := by
    decide +kernel
  rw [Path.IsBefore, hscreen, hkit]
  exact .cons (.cons (.cons (.cons (.rel (.name (RawText.precedes_iff.1 (by decide +kernel)))))))

end KitSources

open KitSources in
theorem paths_listed_by_component :
    ∃ listing packages,
      let session := Session.after sample {} [⟨Unit, .buildIndex⟩]
      ((Query.sourceFiles app).answer sample session).1 = .ok listing ∧
      screen ∈ listing ∧ kit ∈ listing ∧ old ∉ listing ∧
      listing.Pairwise (fun a b => a.path.IsBefore b.path) ∧
      screen.path.IsBefore kit.path ∧ kit.path.raw.precedes screen.path.raw = true ∧
      ((Query.modulePackages app.id).answer sample session).1 = .ok packages ∧
      "ui" ∈ packages ∧ "ui.kit" ∈ packages := by
  have hgone : sample.files.exists? ⟨"/work/app/gone"⟩ = false := by decide +kernel
  have hh : ∀ r ∈ [(⟨Unit, .buildIndex⟩ : Sigma Request)], r.2.IsWithin sample := by decide
  obtain ⟨listing, hlisting, hfiles, -, packages, hpackages, -, hmem⟩ :=
    source_files_of_roots (by decide) (by decide : app ∈ sample.modules) isProper_sample globs_sample
      hh indexBuilt_sample
  have hdirs : app.sourceDirs = [⟨"/work/app/gone"⟩, ⟨"/work/app/src"⟩] := by decide +kernel
  have hroots : app.sourceDirs.flatMap listing = listing ⟨"/work/app/src"⟩ := by
    rw [hdirs, List.flatMap_cons, (hlisting _ (by simp [hdirs])).missing hgone,
      List.flatMap_singleton]
    rfl
  have hsrc := hlisting ⟨"/work/app/src"⟩ (by simp [hdirs])
  have hscreen := (hsrc.mem_iff screen).2 isSourceBelow_screen
  have hkit := (hsrc.mem_iff kit).2 isSourceBelow_kit
  have hold : old ∉ listing ⟨"/work/app/src"⟩ := by
    intro hold
    obtain ⟨names, content, name, language, -, -, -, hkept, heq⟩ := (hsrc.mem_iff old).1 hold
    have hpath : old.path = (Path.mk "/work/app/src").extend names := congrArg SourceFile.path heq
    exact hkept (hpath ▸ isLeftOut_old)
  refine ⟨_, packages, hfiles, ?_⟩
  rw [hroots]
  simp only [hroots] at hmem
  refine ⟨hscreen, hkit, hold, hsrc.sorted, isBefore_screen, by decide +kernel, hpackages, ?_, ?_⟩
  · exact (hmem "ui").2 ⟨by decide, screen, hscreen, by decide +kernel⟩
  · exact (hmem "ui.kit").2 ⟨by decide, kit, hkit, by decide +kernel⟩

/-! ## A name that is no text, and a module apart -/

namespace OddSources

def app : BuildModule where
  id := "app"
  directory := ⟨"app"⟩

/-- A name that ends in `.kt` and is not UTF-8. -/
def oddName : RawText := ⟨[0xFF]⟩ ++ ".kt"

def text : String := "package ui"

/-- A project with one source file. -/
def sample (modules : List BuildModule) (name : RawText) : Project where
  files := .ofEntries [("app", .dir [("src", .dir [(name, .file text.toUTF8)])])]
  manifest := ⟨modules⟩
  settings := {}

def source : SourceFile := .ofBytes ⟨"app/src/A.kt"⟩ .kotlin text.toUTF8

end OddSources

open OddSources in
/-- **Not every file that ends like a source file is one, and only modules of the project have
packages.** -/
theorem passed_over_sources :
    ((sample [app] oddName).files.IsFileBelow ⟨"app/src"⟩ [oddName] text.toUTF8 ∧
      (".kt" : RawText).bytes <:+ oddName.bytes ∧
      ((Query.sourceFiles app).answer (sample [app] oddName)
        (sample [app] oddName).freshSession).1 = .ok []) ∧
    ((Query.sourceFiles app).answer (sample [] "A.kt")
        (sample [] "A.kt").freshSession).1 = .ok [source] ∧
      source.package = "ui" ∧
      ((Query.modulePackages app.id).answer (sample [] "A.kt")
        (sample [] "A.kt").freshSession).1 = .ok [] := by
  have hbelow : (sample [app] oddName).files.IsFileBelow ⟨"app/src"⟩ [oddName] text.toUTF8 :=
    ⟨by decide +kernel, {}, rfl⟩
  refine ⟨⟨hbelow, ⟨[0xFF], rfl⟩, eq_ok_of_toOption (by decide +kernel)⟩, ?_⟩
  exact ⟨eq_ok_of_toOption (by decide +kernel), by decide +kernel,
    eq_ok_of_toOption (by decide +kernel)⟩

end DependencyLint
