import DependencyLint.Proofs.LineGrammar
import DependencyLint.Proofs.Run
import DependencyLint.Proofs.Spellings

/-!
# Static imports

A static import names a member of a class, and the whole name is what a source file imports. The
package of this name is the class itself, whereas the class is in the package around it.

**Theorem (`static_import_counts_iff`).** Importing a member of a class statically is no sign that the
library of the class is used. It counts only for classes that are named directly below the class, as
if the class were a package. The library is reported exactly if it has no such class and nothing
imported from elsewhere is in the package of one of its classes.
-/

namespace DependencyLint

open Query Session Source

/-! ## The name that is imported -/

/-- A line that imports a member of the class `owner` statically, or all its members. In the second
case the member has no name and a star follows. -/
def Source.StaticImportLine (line owner member : List Char) : Prop :=
  ∃ modifier rest, IsStatement "import" line (modifier ++ (owner ++ '.' :: member ++ rest)) ∧
    IsKeyword "static" modifier ∧ (∀ c ∈ owner, InName c) ∧ (∀ c ∈ member, InName c ∧ c ≠ '.') ∧
    StarFollows rest

theorem Source.StaticImportLine.importLine {line owner member : List Char}
    (h : StaticImportLine line owner member) :
    ImportLine .java line (owner ++ '.' :: member) := by
  obtain ⟨modifier, rest, hline, hmodifier, howner, hmember, hrest⟩ := h
  refine ⟨modifier, rest, hline, Or.inr hmodifier, ⟨by simp, ?_, not_inName_starFollows hrest⟩, hrest⟩
  intro c hc
  simp only [List.mem_append, List.mem_cons] at hc
  rcases hc with hc | rfl | hc
  · exact howner c hc
  · decide
  · exact (hmember c hc).1

/-- The lines of a text give its imports. -/
theorem Source.mem_imports {language : Language} {text name : String} :
    name ∈ Source.imports language text ↔
      ∃ line ∈ text.toList.splitOn '\n', ImportLine language line name.toList := by
  rw [imports, List.mem_eraseDups, List.mem_filterMap, lines_eq_splitOn]
  refine exists_congr fun line => and_congr_right fun _ => ?_
  rw [← import?_eq_some_iff, Option.map_eq_some_iff]
  constructor
  · rintro ⟨cs, hcs, rfl⟩
    rwa [String.toList_ofList]
  · intro h
    exact ⟨name.toList, h, String.ofList_toList⟩

theorem SourceFile.imports_of_ofFound {exclude : List Glob} {directory path : Path}
    {found : FileTree.Found} {source : SourceFile}
    (h : ofFound exclude directory path found = .ok (some source)) :
    source.imports = Source.imports source.language source.text := by
  unfold ofFound at h
  split at h
  · cases h
  · split at h
    · cases h
    · split_ifs at h
      · cases h
      · split at h
        · cases h
          rfl
        · cases h

theorem Project.imports_of_mem_sourceFiles {project : Project} {m : BuildModule} {source : SourceFile}
    (h : source ∈ project.sourceFiles m) :
    source.imports = Source.imports source.language source.text := by
  rw [sourceFiles] at h
  cases hread : project.readSources m with
  | error e =>
    rw [hread] at h
    cases h
  | ok sources =>
    rw [hread] at h
    obtain ⟨found, hfound, hsources⟩ := bind_eq_ok (mapError_eq_ok hread)
    cases hsources
    obtain ⟨file?, hfile, rfl⟩ := List.mem_filterMap.1 h
    obtain ⟨place, -, hplace⟩ := mem_of_mapM_ok hfound hfile
    exact SourceFile.imports_of_ofFound hplace

/-! ## Its package -/

/-- The name is that of the class with one more part. -/
def IsDirectlyBelow (owner name : String) : Prop :=
  ∃ rest, '.' ∉ rest ∧ name.toList = owner.toList ++ '.' :: rest

section Packages

variable {owner member name : String}

theorem packagePrefix_eq_iff :
    packagePrefix name = owner ++ "." ↔ IsDirectlyBelow owner name := by
  rw [← isPackagePrefix_iff]
  constructor
  · rintro (⟨hdot, rfl⟩ | ⟨front, rest, hrest, hname, hp⟩)
    · simp at hdot
    · have hfront : owner.toList = front := by simpa using hp
      exact ⟨rest, hrest, by rw [hname, hfront]⟩
  · rintro ⟨rest, hrest, hname⟩
    exact Or.inr ⟨owner.toList, rest, hrest, hname, by simp⟩

theorem packagePrefix_member (hmember : '.' ∉ member.toList) :
    packagePrefix (owner ++ "." ++ member) = owner ++ "." :=
  packagePrefix_eq_iff.2 ⟨member.toList, hmember, by simp⟩

/-- What is in the package of a member is named directly below the class. -/
theorem samePackage_member_iff (hmember : '.' ∉ member.toList) :
    SamePackage (owner ++ "." ++ member) name ↔ IsDirectlyBelow owner name := by
  rw [samePackage_iff, packagePrefix_member hmember, eq_comm, packagePrefix_eq_iff]

theorem not_isDirectlyBelow_self (owner : String) : ¬IsDirectlyBelow owner owner := by
  rintro ⟨rest, -, h⟩
  have hlength := congrArg List.length h
  simp at hlength

end Packages

/-! ## Libraries that are reported -/

section Reported

variable {project : Project} {m : BuildModule} {libraries : List DeclaredLibrary}

theorem canIndex_of_contentsAfter (hplain : m.HasPlainLibraries)
    (hl : project.librariesOf m = .ok libraries) {contents : List LibraryContent}
    (h : project.contentsAfter [] m = .ok contents) :
    ∀ library ∈ libraries, project.CanIndex library.resolved := by
  have hnodup := BuildModule.nodup_fullName hplain.tellsLibrariesApart hl
  rw [Project.contentsAfter_eq hl hnodup] at h
  intro library hlib
  obtain ⟨content, hcontent⟩ := forall_of_mapM_ok h library hlib
  obtain ⟨classes, hclasses, -⟩ := bind_eq_ok hcontent
  exact Project.canIndex_of_classes_ok hclasses

/-- The finding about a library is there if nothing imported is in the package of a class. -/
theorem exists_contents_reported (hid : project.DistinctIds) (hm : m ∈ project.modules)
    (hplain : m.HasPlainLibraries) (hl : project.librariesOf m = .ok libraries)
    (hindex : ∀ library ∈ libraries, project.CanIndex library.resolved) :
    ∃ contents, project.contentsAfter [] m = .ok contents ∧
      ∀ library ∈ libraries,
        library.fullName ∈ (project.libraryFindings m contents).map (·.dependency) ↔
          ¬∃ i s, project.Sees m i ∧ project.HasClass library.resolved s ∧ SamePackage i s := by
  have hnodup := BuildModule.nodup_fullName hplain.tellsLibrariesApart hl
  obtain ⟨classes, hcontents, hmem⟩ := Project.exists_contents hl hindex
  refine ⟨_, hcontents, fun library hlib => ?_⟩
  have hused : usesLibrary (project.visibleImports m) (classes library) = true ↔
      ∃ i s, project.Sees m i ∧ project.HasClass library.resolved s ∧ SamePackage i s := by
    rw [usesLibrary_eq_sharesPackage, sharesPackage_iff]
    simp only [Project.mem_visibleImports hid hm, hmem library hlib, namesake_eq_self hlib hnodup,
      exists_and_left]
  have hinj := List.inj_on_of_nodup_map hnodup
  rw [← hused, Project.libraryFindings, List.map_map, List.mem_map]
  constructor
  · rintro ⟨content, hcontent, hname⟩
    obtain ⟨hcontent, hunused⟩ := List.mem_filter.1 hcontent
    obtain ⟨other, hother, rfl⟩ := List.mem_map.1 hcontent
    rw [← hinj hother hlib hname]
    simpa using hunused
  · intro hunused
    refine ⟨_, List.mem_filter.2 ⟨List.mem_map_of_mem hlib, ?_⟩, rfl⟩
    simpa using hunused

/-- A library is reported exactly if all libraries can be indexed and nothing imported is in the
package of one of its classes. -/
theorem library_reported_iff (hid : project.DistinctIds) (hm : m ∈ project.modules)
    (hplain : m.HasPlainLibraries) (hok : (Query.buildIndex.answer project {}).1 = .ok ())
    (hl : project.librariesOf m = .ok libraries) {library : DeclaredLibrary}
    (hlib : library ∈ libraries) :
    (∃ found,
      ((Rule.unusedLibraries.check m).answer project project.freshSession).1 = .ok found ∧
      library.fullName ∈ found.map (·.dependency)) ↔
    (∀ other ∈ libraries, project.CanIndex other.resolved) ∧
      ¬∃ i s, project.Sees m i ∧ project.HasClass library.resolved s ∧ SamePackage i s := by
  have hcheck : ((Rule.unusedLibraries.check m).answer project project.freshSession).1 =
      (project.contentsAfter [] m).map fun contents => project.libraryFindings m contents := by
    simp only [← Rule.findings_unusedLibraries]
    exact Rule.check_fresh hid hm hok .unusedLibraries
  rw [hcheck]
  constructor
  · rintro ⟨found, hfound, hreported⟩
    obtain ⟨contents, hcontents, rfl⟩ := map_eq_ok hfound
    have hindex := canIndex_of_contentsAfter hplain hl hcontents
    obtain ⟨contents', hcontents', hiff⟩ := exists_contents_reported hid hm hplain hl hindex
    cases hcontents.symm.trans hcontents'
    exact ⟨hindex, (hiff library hlib).1 hreported⟩
  · rintro ⟨hindex, hunused⟩
    obtain ⟨contents, hcontents, hiff⟩ := exists_contents_reported hid hm hplain hl hindex
    exact ⟨_, by rw [hcontents]; rfl, (hiff library hlib).2 hunused⟩

end Reported

/-! ## A project with a static import -/

namespace StaticImport

def library : DeclaredLibrary :=
  ⟨⟨"org", "lib", "1"⟩, ⟨⟨"org", "lib", "1"⟩, [":app:"], [⟨"lib.jar"⟩]⟩⟩

def app : BuildModule where
  id := "app"
  name := "app"
  directory := ⟨"app"⟩
  configurations := [{
    name := "api"
    canBeResolved := true
    dependencies := [.onLibrary library.declared]
    resolved := [library.resolved] }]

def text : String := "package app;\nimport static lib.Lib.call;"

/-- The only class of the library is imported statically. -/
def sample : Project where
  files := .ofEntries [("lib.jar", .file (Archive.ofEntry "lib/Lib.class")),
    ("app", .dir [("src", .dir [("A.java", .file text.toUTF8)])])]
  manifest := ⟨[app]⟩
  settings := {}

theorem check_sample :
    ((Rule.unusedLibraries.check app).answer sample sample.freshSession).1 =
      .ok [⟨"DS002", "unused-library-dependency", "app", "org:lib:1", .unusedLibrary⟩] :=
  eq_ok_of_toOption (by decide +kernel)

theorem hasClass_sample : sample.HasClass library.resolved "lib.Lib" :=
  ⟨⟨"lib.jar"⟩, by decide, ["lib.Lib"], eq_ok_of_toOption (by decide +kernel), by decide⟩

theorem staticImportLine_sample :
    StaticImportLine "import static lib.Lib.call;".toList "lib.Lib".toList "call".toList := by
  have hnone : AreBlank [] := by simp [AreBlank]
  have hblank : AreBlank [' '] := by simp [AreBlank]
  have hdot : '.' ∉ "call".toList := by decide
  refine ⟨"static ".toList, [';'], ⟨[], "import ".toList, hnone, ?_, rfl⟩, ?_, ?_, ?_, ?_⟩
  · exact ⟨[' '], by decide, hblank, rfl⟩
  · exact ⟨[' '], by decide, hblank, rfl⟩
  · exact inName_of_all (by decide)
  · exact fun c hc => ⟨inName_of_all (by decide) c hc, ne_of_mem_of_not_mem hc hdot⟩
  · exact ⟨[], [';'], Or.inl rfl, ⟨[], [], hnone, rfl⟩, rfl⟩

end StaticImport

/-! ## The theorem -/

variable {project : Project} {m : BuildModule} {libraries : List DeclaredLibrary}

/-- **What a static import counts for.** A source file of the module has a line that imports a member
of the class `owner` statically. The name of the member is then imported, and it is not in the
package of the class. A library is reported right after the index was built exactly if all libraries
can be indexed, it has no class directly below `owner`, and no import from elsewhere is in the package
of one of its classes. Whether it has the class `owner` itself does not matter. -/
theorem static_import_counts_iff (hid : project.DistinctIds) (hm : m ∈ project.modules)
    (hplain : m.HasPlainLibraries) (hok : (Query.buildIndex.answer project {}).1 = .ok ())
    (hl : ((Query.libraries m).answer project project.freshSession).1 = .ok libraries)
    {source : SourceFile} (hsource : source ∈ project.sourceFiles m) (hjava : source.language = .java)
    {line : List Char} (hline : line ∈ source.text.toList.splitOn '\n') {owner member : String}
    (hstatic : StaticImportLine line owner.toList member.toList) {library : DeclaredLibrary}
    (hlib : library ∈ libraries) :
    project.Sees m (owner ++ "." ++ member) ∧
    ¬SamePackage (owner ++ "." ++ member) owner ∧
    ((∃ found,
      ((Rule.unusedLibraries.check m).answer project project.freshSession).1 = .ok found ∧
      library.fullName ∈ found.map (·.dependency)) ↔
    (∀ other ∈ libraries, project.CanIndex other.resolved) ∧
      (¬∃ s, project.HasClass library.resolved s ∧ IsDirectlyBelow owner s) ∧
      ¬∃ i s, ¬SamePackage i (owner ++ "." ++ member) ∧ project.Sees m i ∧
        project.HasClass library.resolved s ∧ SamePackage i s) := by
  have hmember : '.' ∉ member.toList := by
    obtain ⟨_, _, _, _, _, hmember, _⟩ := hstatic
    exact fun h => (hmember _ h).2 rfl
  have hsees : project.Sees m (owner ++ "." ++ member) := by
    refine ⟨m, hm, Or.inl rfl, source, hsource, ?_⟩
    rw [Project.imports_of_mem_sourceFiles hsource, hjava, mem_imports]
    refine ⟨line, hline, ?_⟩
    simpa using hstatic.importLine
  have hready := ready_freshSession (K := fun _ _ => True) hid trivial hok
  rw [(answers_libraries hid hm _ hready).1] at hl
  refine ⟨hsees, ?_, ?_⟩
  · rw [samePackage_member_iff hmember]
    exact not_isDirectlyBelow_self owner
  · rw [library_reported_iff hid hm hplain hok hl hlib]
    refine and_congr_right fun _ => ?_
    constructor
    · intro hnone
      refine ⟨?_, ?_⟩
      · rintro ⟨s, hs, hbelow⟩
        exact hnone ⟨_, s, hsees, hs, (samePackage_member_iff hmember).2 hbelow⟩
      · rintro ⟨i, s, -, hi, hs, hsame⟩
        exact hnone ⟨i, s, hi, hs, hsame⟩
    · rintro ⟨hbelow, helse⟩ ⟨i, s, hi, hs, hsame⟩
      -- Everything imported from the class counts for the same classes.
      by_cases hown : SamePackage i (owner ++ "." ++ member)
      · apply hbelow
        refine ⟨s, hs, ?_⟩
        rw [← samePackage_member_iff hmember, samePackage_iff, ← samePackage_iff.1 hown]
        exact samePackage_iff.1 hsame
      · exact helse ⟨i, s, hown, hi, hs, hsame⟩

open StaticImport in
theorem statically_imported_class_reported :
    sample.HasClass library.resolved "lib.Lib" ∧ sample.Sees app "lib.Lib.call" ∧
    ¬SamePackage "lib.Lib.call" "lib.Lib" ∧
    ((Rule.unusedLibraries.check app).answer sample sample.freshSession).1 =
      .ok [⟨"DS002", "unused-library-dependency", "app", library.fullName, .unusedLibrary⟩] ∧
    ¬∃ s, sample.HasClass library.resolved s ∧ IsDirectlyBelow "lib.Lib" s := by
  have hsource : SourceFile.ofBytes ⟨"app/src/A.java"⟩ .java text.toUTF8 ∈ sample.sourceFiles app := by
    decide +kernel
  have hline : "import static lib.Lib.call;".toList ∈
      (SourceFile.ofBytes ⟨"app/src/A.java"⟩ .java text.toUTF8).text.toList.splitOn '\n' := by
    decide +kernel
  have hl : ((Query.libraries app).answer sample sample.freshSession).1 = .ok [library] :=
    eq_ok_of_toOption (by decide +kernel)
  obtain ⟨hsees, hother, hreported⟩ := static_import_counts_iff (by decide)
    (by decide : app ∈ sample.modules) (by decide) (eq_ok_of_toOption (by decide +kernel)) hl hsource
    rfl hline staticImportLine_sample List.mem_cons_self
  refine ⟨hasClass_sample, hsees, hother, check_sample, ?_⟩
  exact (hreported.1 ⟨_, check_sample, by decide⟩).2.1

end DependencyLint
