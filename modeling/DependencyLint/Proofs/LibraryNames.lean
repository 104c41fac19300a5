import DependencyLint.Proofs.CoordinateTexts
import DependencyLint.Proofs.Ignoring

/-!
# One text, one library

The text of a coordinate stands for a library in three places: the classes of a library are kept under
it, ignored libraries are listed by it, and findings name their library by it.

**Theorem (`coordinate_text_names_one_library`).** Coordinates and their texts correspond to each
other, and no two coordinates in manifests have the same text. So asking for the classes of one
library makes no difference to another one, what is kept under a text are classes of a library of that
coordinate, an ignored text takes away the library of that coordinate alone, and a finding is named
after one library of its module.

Libraries are meant by their coordinates here. Two libraries of one coordinate with different files
share their text, and then the classes of the first one are kept for both.

What is kept is followed through all requests by an invariant of the two tables of library contents
(`KeptApart`). It holds in every session of a history and of a run.
-/

namespace DependencyLint

open Query Session

/-! ## Asking for classes -/

section Classes

variable {project : Project} {library : ResolvedLibrary}

theorem answer_libraryClasses_fst (s : Session) :
    ((libraryClasses library).answer project s).1 =
      (s.classes.lookup library.coordinate.render).elim (library.classes project.files) .ok := by
  simp only [libraryClasses, answer_bind, answer_get]
  cases s.classes.lookup library.coordinate.render with
  | some found => rfl
  | none =>
    simp only [answer_bind, answer_read, answer_ofExcept]
    cases library.classes project.files <;> rfl

/-- Asking for the classes of a library leaves what is kept under other texts. -/
theorem lookup_classes_of_ne (s : Session) {text : String} (h : text ≠ library.coordinate.render) :
    ((libraryClasses library).answer project s).2.classes.lookup text = s.classes.lookup text := by
  simp only [libraryClasses, answer_bind, answer_get]
  cases s.classes.lookup library.coordinate.render with
  | some found => rfl
  | none =>
    simp only [answer_bind, answer_read, answer_ofExcept]
    cases library.classes project.files with
    | error e => rfl
    | ok found =>
      simp only [answer_modify, answer_pure]
      rw [List.lookup_cons, beq_false_of_ne h]

/-- The session after the classes of some libraries were asked for, one after the other. -/
def Session.afterClasses (project : Project) (s : Session) (libraries : List ResolvedLibrary) :
    Session :=
  libraries.foldl (fun s library => ((libraryClasses library).answer project s).2) s

/-- Libraries of other texts do not change the classes of a library. -/
theorem answer_afterClasses (s : Session) {others : List ResolvedLibrary}
    (h : ∀ other ∈ others, library.coordinate.render ≠ other.coordinate.render) :
    ((libraryClasses library).answer project (s.afterClasses project others)).1 =
      ((libraryClasses library).answer project s).1 := by
  induction others generalizing s with
  | nil => rfl
  | cons other others ih =>
    obtain ⟨hother, hothers⟩ := List.forall_mem_cons.1 h
    have hrest := ih ((libraryClasses other).answer project s).2 hothers
    rw [Session.afterClasses, List.foldl_cons, ← Session.afterClasses, hrest,
      answer_libraryClasses_fst, answer_libraryClasses_fst, lookup_classes_of_ne s hother]

end Classes

/-! ## What is kept about libraries -/

namespace Project

/-- The classes are those in the files of a library of the project that has the coordinate. -/
def GivesClasses (project : Project) (c : Coordinate) (classes : List String) : Prop :=
  ∃ m ∈ project.modules, ∃ libraries, project.librariesOf m = .ok libraries ∧
    ∃ library ∈ libraries, library.resolved.coordinate = c ∧
      library.resolved.classes project.files = .ok classes

/-- The contents are those of the libraries of the module, each with classes of its coordinate. -/
def Describes (project : Project) (m : BuildModule) (contents : List LibraryContent) : Prop :=
  ∃ libraries, project.librariesOf m = .ok libraries ∧
    List.Forall₂ (fun library content => ∃ classes,
      project.GivesClasses library.resolved.coordinate classes ∧ content = library.content classes)
      libraries contents

end Project

/-- What is kept under the text of a coordinate belongs to this coordinate, and what is kept for a
module to the coordinates of its libraries. -/
structure KeptApart (project : Project) (contents : List (String × List LibraryContent))
    (classes : List (String × List String)) : Prop where
  classes : ∀ c : Coordinate, c.IsPlain → ∀ found, classes.lookup c.render = some found →
    project.GivesClasses c found
  contents : ∀ m ∈ project.modules, ∀ found, contents.lookup m.id = some found →
    project.Describes m found

theorem KeptApart.nil {project : Project} : KeptApart project [] [] where
  classes := by intro c _ found hfound; cases hfound
  contents := by intro m _ found hfound; cases hfound

section Kept

variable {project : Project} {m : BuildModule} {libraries : List DeclaredLibrary}
  {library : DeclaredLibrary}

theorem mem_coordinates_of_librariesOf (hl : project.librariesOf m = .ok libraries)
    (hmem : library ∈ libraries) : library.resolved.coordinate ∈ m.coordinates := by
  obtain ⟨all, hall, rfl⟩ := map_eq_ok hl
  obtain ⟨c, hc, r, hr, heq⟩ :=
    (BuildModule.resolvedLibraries_coordinates hall).2 library (List.mem_of_mem_filter hmem)
  refine List.mem_flatMap.2 ⟨c, hc, List.mem_append_right _ ?_⟩
  exact heq ▸ List.mem_map_of_mem hr

/-- The entry for a library is right about its own text, and another coordinate has another text. -/
theorem KeptApart.cons {contents : List (String × List LibraryContent)}
    {classes : List (String × List String)} (h : KeptApart project contents classes)
    {c : Coordinate} (hc : c.IsPlain) {found : List String} (hfound : project.GivesClasses c found) :
    KeptApart project contents ((c.render, found) :: classes) where
  classes := by
    intro d hd other hother
    -- Without colons in their parts, two coordinates of one text are the same.
    by_cases htext : d.render = c.render
    · obtain rfl := Coordinate.eq_of_render hd hc htext
      rw [List.lookup_cons_self, Option.some.injEq] at hother
      rwa [← hother]
    · rw [List.lookup_cons, beq_false_of_ne htext] at hother
      exact h.classes d hd other hother
  contents := h.contents

variable (hid : project.DistinctIds)
  (hwritable : ∀ m ∈ project.modules, ∀ c ∈ m.coordinates, c.IsWritable)

include hwritable in
theorem ensures_contentOf_apart (hm : m ∈ project.modules)
    (hl : project.librariesOf m = .ok libraries) (hmem : library ∈ libraries) :
    Ensures project (Ready project (KeptApart project)) (contentOf library) fun content =>
      ∃ classes, project.GivesClasses library.resolved.coordinate classes ∧
        content = library.content classes := by
  have hplain : library.resolved.coordinate.IsPlain :=
    (hwritable m hm _ (mem_coordinates_of_librariesOf hl hmem)).isPlain
  have hclasses : Ensures project (Ready project (KeptApart project))
      (libraryClasses library.resolved)
      (project.GivesClasses library.resolved.coordinate) := by
    refine ensures_libraryClasses (fun s hs => hs.kept.classes _ hplain) fun s hs found hfound => ?_
    have hgives : project.GivesClasses library.resolved.coordinate found :=
      ⟨m, hm, libraries, hl, library, hmem, rfl, hfound⟩
    exact ⟨{ hs with kept := hs.kept.cons hplain hgives }, hgives⟩
  exact ensures_contentOf hclasses

include hid hwritable

theorem ensures_libraryContents_apart (hm : m ∈ project.modules) :
    Ensures project (Ready project (KeptApart project)) (libraryContents m)
      (project.Describes m) := by
  refine ensures_libraryContents_of hid hm (fun _ _ hK => hK.contents m hm)
    (fun _ _ _ hK hfound => ⟨hK.classes, forall_lookup_cons hid hK.contents hm hfound⟩) ?_
  intro libraries hl
  refine (Ensures.mapM fun library hmem => ensures_contentOf_apart hwritable hm hl hmem).mono ?_
  exact fun contents hcontents => ⟨libraries, hl, hcontents⟩

/-- **Along every history, what is kept about libraries is kept apart.** -/
theorem keptApart_after (history : List (Sigma Request))
    (hh : ∀ r ∈ history, r.2.IsWithin project) :
    KeptApart project (Session.after project {} history).contents
      (Session.after project {} history).classes :=
  kept_after hid KeptApart.nil
    (fun _ hm => (ensures_libraryContents_apart hid hwritable hm).keeps) history hh

end Kept

/-! ## Ignored texts -/

/-- A list of ignored texts takes away the libraries of their coordinates, and no others. -/
theorem librariesOf_eq_filter {project : Project} {m : BuildModule}
    (hwritable : ∀ c ∈ m.coordinates, c.IsWritable) :
    project.librariesOf m = m.resolvedLibraries.map (·.filter fun library =>
      library.resolved.coordinate ∉ coordinatesIn (project.settingsFor m).ignored) := by
  rw [Project.librariesOf, BuildModule.checkedLibraries]
  cases hall : m.resolvedLibraries with
  | error e => rfl
  | ok all =>
    refine congrArg Except.ok (List.filter_congr fun library hmem => ?_)
    obtain ⟨c, hc, r, hr, heq⟩ := (BuildModule.resolvedLibraries_coordinates hall).2 library hmem
    have hlibrary : library.resolved.coordinate.IsWritable :=
      heq ▸ (BuildModule.forall_coordinates_iff.1 hwritable c hc).2 r hr
    rw [Bool.eq_iff_iff, Bool.not_eq_true', decide_eq_true_eq, mem_coordinatesIn_iff hlibrary,
      ModuleSettings.isIgnored, ← Bool.not_eq_true, List.contains_iff_mem]
    rfl

/-! ## Names in findings -/

/-- The finding is about a library. -/
def FindingKind.concernsLibrary : FindingKind → Bool
  | customCheck _ | unusedLibrary => true
  | unusedModule | replaceableModule _ => false

/-- The finding is what the rule says about one library of the module. Its name is the text of the
coordinate of this library and of no other one, and the library was judged by classes of this
coordinate. -/
def Project.SpeaksOfOne (project : Project) (m : BuildModule) (rule : Rule) (finding : Finding) :
    Prop :=
  ∃ libraries, project.librariesOf m = .ok libraries ∧ ∃ library ∈ libraries,
    Coordinate.parse finding.dependency = .ok library.resolved.coordinate ∧
    (∀ other ∈ libraries,
      Coordinate.parse finding.dependency = .ok other.resolved.coordinate → other = library) ∧
    ∃ classes, project.GivesClasses library.resolved.coordinate classes ∧
      rule.verdict project m (library.content classes) = some finding

section Findings

variable {project : Project} {m : BuildModule} {rule : Rule} {contents : List LibraryContent}
  {finding : Finding}

theorem Rule.concernsLibrary_of_not_reads (hr : rule.readsContents = false)
    (hf : finding ∈ rule.findings project m contents) : finding.kind.concernsLibrary = false := by
  cases rule with
  | unusedModules =>
    rw [Project.eq_finding_of_mem_moduleFindings hf, Rule.finding, Project.unusedKind]
    cases project.moduleIndex.findSupplier (project.sourceImports m) finding.dependency <;> rfl
  | unusedLibraries => cases hr
  | custom check => cases hr

theorem Rule.speaksOfOne_of_describes (hwritable : ∀ c ∈ m.coordinates, c.IsWritable)
    (hcontents : project.Describes m contents) (hr : rule.readsContents = true)
    (hf : finding ∈ rule.findings project m contents) : project.SpeaksOfOne m rule finding := by
  rw [findings_of_reads hr] at hf
  obtain ⟨content, hcontent, hverdict⟩ := List.mem_filterMap.1 hf
  obtain ⟨libraries, hl, hrelated⟩ := hcontents
  obtain ⟨library, hmem, classes, hgives, rfl⟩ := exists_of_forall₂ hrelated.flip hcontent
  have hname : finding.dependency = library.fullName := dependency_of_verdict hverdict
  have hparse : Coordinate.parse finding.dependency = .ok library.resolved.coordinate := by
    rw [hname]
    exact Coordinate.parse_render (hwritable _ (mem_coordinates_of_librariesOf hl hmem))
  refine ⟨libraries, hl, library, hmem, hparse, fun other hother heq => ?_, classes, hgives,
    hverdict⟩
  -- Libraries of one coordinate are merged, so that the list has the coordinate once.
  have hcoordinate : other.resolved.coordinate = library.resolved.coordinate :=
    Except.ok.inj (heq.symm.trans hparse)
  obtain ⟨all, hall, rfl⟩ := map_eq_ok hl
  exact List.inj_on_of_nodup_map (BuildModule.resolvedLibraries_coordinates hall).1
    (List.mem_of_mem_filter hother) (List.mem_of_mem_filter hmem) hcoordinate

variable (hid : project.DistinctIds)
  (hwritable : ∀ m ∈ project.modules, ∀ c ∈ m.coordinates, c.IsWritable)

include hid hwritable

theorem Rule.ensures_check_speaksOfOne (hm : m ∈ project.modules) (rule : Rule) :
    Ensures project (Ready project (KeptApart project)) (rule.check m) fun found =>
      ∀ finding ∈ found, finding.kind.concernsLibrary = true → project.SpeaksOfOne m rule finding := by
  refine (ensures_check hid hm (ensures_libraryContents_apart hid hwritable hm) rule).mono ?_
  rintro found ⟨contents, hcontents, rfl⟩ finding hf hkind
  cases hr : rule.readsContents with
  | false =>
    rw [concernsLibrary_of_not_reads hr hf] at hkind
    cases hkind
  | true => exact speaksOfOne_of_describes (hwritable m hm) (hcontents hr) hr hf

theorem speaksOfOne_of_analyze {rules : List Rule} {result : LintResult}
    (hrun : project.analyze rules = .ok result) (hf : finding ∈ result.findings)
    (hkind : finding.kind.concernsLibrary = true) :
    ∃ m ∈ project.enabledModules, ∃ rule ∈ rules, project.SpeaksOfOne m rule finding := by
  obtain ⟨m, hm, rule, hrule, hspeaks⟩ := forall_of_analyze hid KeptApart.nil
    (fun m hm rule => Rule.ensures_check_speaksOfOne hid hwritable hm rule) hrun finding hf
  exact ⟨m, hm, rule, hrule, hspeaks hkind⟩

end Findings

/-! ## A project with two versions of a library -/

namespace NearTexts

def resolved (version file : String) : ResolvedLibrary :=
  ⟨⟨"org", "lib", version⟩, [":app:"], [⟨file⟩]⟩

def one : DeclaredLibrary := ⟨⟨"org", "lib", "1"⟩, resolved "1" "one.jar"⟩

def twelve : DeclaredLibrary := ⟨⟨"org", "lib", "12"⟩, resolved "12" "twelve.jar"⟩

def app : BuildModule where
  id := "app"
  name := "app"
  directory := ⟨"app"⟩
  configurations := [{
    name := "api"
    canBeResolved := true
    dependencies := [.onLibrary one.declared, .onLibrary twelve.declared]
    resolved := [one.resolved, twelve.resolved] }]

/-- One of the libraries is ignored. The other ignored texts look like the other library and are no
coordinates. -/
def sample : Project where
  files := .ofEntries [("one.jar", .file (Archive.ofEntry "one/One.class")),
    ("twelve.jar", .file (Archive.ofEntry "twelve/Twelve.class"))]
  manifest := ⟨[app]⟩
  settings := { ignored := ["org:lib:1", "org:lib", "org::12", "org:lib:12:"] }

def finding : Finding :=
  ⟨"DS002", "unused-library-dependency", "app", "org:lib:12", .unusedLibrary⟩

/-- The classes of all libraries that are not ignored are asked for. -/
def history : List (Sigma Request) := [⟨_, .buildIndex⟩, ⟨_, .libraryContents app⟩]

theorem parse_sample : Manifest.parse sample.manifest.encode.render ⟨""⟩ = .ok sample.manifest :=
  Manifest.parse_of_tokens (by decide) (by decide +kernel) rfl

theorem analyze_sample : sample.analyze [.unusedLibraries] = .ok ⟨[finding], 1⟩ :=
  eq_ok_of_toOption (by decide +kernel)

theorem lookup_sample :
    (Session.after sample {} history).classes.lookup twelve.fullName = some ["twelve.Twelve"] := by
  decide +kernel

end NearTexts

/-! ## The theorem -/

/-- **A text stands for one library.** The texts that can be read are those with two colons and three
parts that are not empty, and reading and writing are inverse to each other. Different coordinates in
manifests have different texts, and those that differ in more than the version have different keys.

So, in every session, asking for the classes of other libraries makes no difference to a library. For
a manifest that was read, and whatever a session was asked before, classes are kept under the text of a
coordinate for this coordinate alone, and the findings of a check are each about one library. Ignored
texts take away the libraries of their coordinates alone. The findings of a run are each about one
library, too. -/
theorem coordinate_text_names_one_library :
    (∀ text, (∃ c, Coordinate.parse text = .ok c) ↔ Coordinate.IsText text) ∧
    (∀ text c, Coordinate.parse text = .ok c → c.render = text) ∧
    (∀ c : Coordinate, c.IsWritable → Coordinate.parse c.render = .ok c) ∧
    (∀ c : Coordinate, c.IsListed ↔ c.IsWritable) ∧
    (∀ c d : Coordinate, c.IsListed → d.IsListed → c.render = d.render → c = d) ∧
    (∀ c d : Coordinate, c.IsListed → d.IsListed →
      (c.sameModule d = true ↔ c.moduleKey = d.moduleKey)) ∧
    (∀ (project : Project) (s : Session) (library : ResolvedLibrary) (others : List ResolvedLibrary),
      library.coordinate.IsListed →
      (∀ other ∈ others, other.coordinate.IsListed ∧ library.coordinate ≠ other.coordinate) →
      ((Query.libraryClasses library).answer project (s.afterClasses project others)).1 =
        ((Query.libraryClasses library).answer project s).1) ∧
    ∀ (project : Project) text base, Manifest.parse text base = .ok project.manifest →
      (∀ history, (∀ r ∈ history, r.2.IsWithin project) →
        (∀ c : Coordinate, c.IsListed → ∀ classes,
          (Session.after project {} history).classes.lookup c.render = some classes →
            project.GivesClasses c classes) ∧
        ∀ m ∈ project.modules, ∀ (rule : Rule) found,
          ((rule.check m).answer project (Session.after project {} history)).1 = .ok found →
          ∀ finding ∈ found, finding.kind.concernsLibrary = true →
            project.SpeaksOfOne m rule finding) ∧
      (∀ m ∈ project.modules, project.librariesOf m = m.resolvedLibraries.map (·.filter fun library =>
        library.resolved.coordinate ∉ coordinatesIn (project.settingsFor m).ignored)) ∧
      ∀ rules result, project.analyze rules = .ok result →
        ∀ finding ∈ result.findings, finding.kind.concernsLibrary = true →
          ∃ m ∈ project.enabledModules, ∃ rule ∈ rules, project.SpeaksOfOne m rule finding := by
  have hinj : ∀ c d : Coordinate, c.IsListed → d.IsListed → c.render = d.render → c = d :=
    fun c d hc hd => Coordinate.eq_of_render hc.isPlain hd.isPlain
  refine ⟨fun text => Coordinate.exists_parse_iff,
    fun text c h => (Coordinate.parse_eq_ok_iff.1 h).2, fun c => Coordinate.parse_render,
    fun c => Coordinate.isListed_iff, hinj,
    fun c d hc hd => Coordinate.sameModule_iff_moduleKey hc.isPlain hd.isPlain, ?_, ?_⟩
  · intro project s library others hlibrary hothers
    refine answer_afterClasses s fun other hother htext => ?_
    obtain ⟨hlisted, hne⟩ := hothers other hother
    exact hne (hinj _ _ hlibrary hlisted htext)
  · intro project text base hparse
    have hid : project.DistinctIds := (Manifest.promises_of_parse hparse).1 project.files
      project.settings
    have hwritable : ∀ m ∈ project.modules, ∀ c ∈ m.coordinates, c.IsWritable :=
      Manifest.isWritable_of_parse hparse
    refine ⟨fun history hh => ⟨?_, ?_⟩, fun m hm => librariesOf_eq_filter (hwritable m hm),
      fun rules result hrun finding hf => speaksOfOne_of_analyze hid hwritable hrun hf⟩
    · exact fun c hc => (keptApart_after hid hwritable history hh).classes c hc.isPlain
    · intro m hm rule found h
      rcases after_unbuilt_or_ready hid history hh with ⟨-, hunbuilt⟩ | ⟨-, hready⟩
      · rw [rule.check_unbuilt hunbuilt] at h
        cases h
      · exact (Rule.ensures_check_speaksOfOne hid hwritable hm rule _
          { hready with kept := keptApart_after hid hwritable history hh }).2 found h

open NearTexts in
theorem nearTexts_told_apart :
    (∃ c, Coordinate.parse "org:lib:12" = .ok c) ∧ (¬∃ c, Coordinate.parse "org::12" = .ok c) ∧
    Coordinate.parse one.fullName = .ok one.declared ∧
    one.declared.moduleKey = twelve.declared.moduleKey ∧
    ((Query.libraryClasses twelve.resolved).answer sample
        (({} : Session).afterClasses sample [one.resolved])).1 =
      ((Query.libraryClasses twelve.resolved).answer sample {}).1 ∧
    sample.GivesClasses twelve.declared ["twelve.Twelve"] ∧
    sample.librariesOf app = .ok [twelve] ∧
    sample.analyze [.unusedLibraries] = .ok ⟨[finding], 1⟩ ∧
    ∃ m ∈ sample.enabledModules, ∃ rule ∈ [Rule.unusedLibraries],
      sample.SpeaksOfOne m rule finding := by
  obtain ⟨hread, -, hwritten, hlisted, -, hkey, hclasses, hproject⟩ :=
    coordinate_text_names_one_library
  have hone : one.declared.IsListed := (hlisted _).2 (by decide)
  have htwelve : twelve.declared.IsListed := (hlisted _).2 (by decide)
  obtain ⟨hhistory, hignored, hrun⟩ := hproject sample _ _ parse_sample
  refine ⟨(hread _).2 (by decide), fun h => absurd ((hread _).1 h) (by decide),
    hwritten _ (by decide), (hkey _ _ hone htwelve).1 (by decide), ?_, ?_, ?_, analyze_sample,
    hrun _ _ analyze_sample finding List.mem_cons_self rfl⟩
  · exact hclasses sample {} twelve.resolved [one.resolved] htwelve
      (List.forall_mem_singleton.2 ⟨hone, by decide⟩)
  · exact (hhistory history (by decide)).1 _ htwelve _ lookup_sample
  · rw [hignored app List.mem_cons_self]
    exact eq_ok_of_toOption (by decide +kernel)

end DependencyLint
