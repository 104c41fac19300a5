import DependencyLint.Proofs.Twins

/-!
# Findings and the order of declarations

**Theorem (`reordered_reports_alike`).** In projects where no module reads two libraries with one
text: if two projects with reordered declarations can both be analyzed, the findings about each module
are the same, but for their order and for the replacements. If no library has a path in two spellings
of which only one can be read, the one project can be analyzed exactly if the other one can.

The two runs are followed module by module. After the same number of modules, the first known
libraries of each text are twins (`Project.KnownAlike`). A module that is checked behind such libraries
has the same findings in both runs, and the libraries that it adds are twins again. Without the
condition on spellings, one run can fail where the other does not, and without the condition on texts
both can succeed and report different libraries (`order_decides`).
-/

namespace DependencyLint

open Query Session

/-! ## Contents -/

/-- Each library of the first list is in the second one with the same classes. -/
def CoveredBy (contents contents' : List LibraryContent) : Prop :=
  ∀ content ∈ contents, ∃ content' ∈ contents', content'.fullName = content.fullName ∧
    ∀ name, name ∈ content'.classes ↔ name ∈ content.classes

namespace Project

variable {p q : Project} {m n : BuildModule} {known known' : List ResolvedLibrary}
  {libraries others : List DeclaredLibrary} {contents contents' : List LibraryContent}

/-- The contents can be told if the classes of each library can. -/
theorem exists_contentsAmong
    (h : ∀ library ∈ libraries, ∃ found, p.classesAmong known library.resolved = .ok found) :
    ∃ contents, p.contentsAmong known libraries = .ok contents := by
  refine exists_mapM_ok fun library hmem => ?_
  obtain ⟨found, hfound⟩ := h library hmem
  exact ⟨⟨library.fullName, library.declared, found⟩, by rw [hfound]; rfl⟩

/-- What is read for twins behind libraries that are twins. -/
theorem KnownAlike.twin (hk : p.KnownAlike known known') {library other : DeclaredLibrary}
    (hname : other.fullName = library.fullName) (ht : p.Twin library.resolved other.resolved) :
    p.Twin ((firstNamed known library.resolved.coordinate.render).getD library.resolved)
      ((firstNamed known' other.resolved.coordinate.render).getD other.resolved) := by
  have hrender : other.resolved.coordinate.render = library.resolved.coordinate.render := hname
  rw [hrender]
  exact rel_getD (hk _) ht

namespace DeclaredAlike

section Contents

variable (h : p.DeclaredAlike q) (hmn : m.Alike n) (hk : p.KnownAlike known known')

include h hmn hk

theorem coveredBy_contentsAmong (hm : m ∈ p.enabledModules)
    (hl : p.librariesOf m = .ok libraries) (ho : q.librariesOf n = .ok others)
    (hc : p.contentsAmong known libraries = .ok contents)
    (hc' : q.contentsAmong known' others = .ok contents') : CoveredBy contents contents' := by
  intro content hcontent
  obtain ⟨library, hlibrary, hfound⟩ := mem_of_mapM_ok hc hcontent
  obtain ⟨found, hclasses, hfound⟩ := bind_eq_ok hfound
  cases hfound
  obtain ⟨other, hother, hname, ht⟩ := h.exists_twin hmn hm hl ho hlibrary
  obtain ⟨content', hcontent'⟩ := forall_of_mapM_ok hc' other hother
  refine ⟨content', mem_mapM_ok hc' hother hcontent', ?_⟩
  obtain ⟨found', hclasses', hfound'⟩ := bind_eq_ok hcontent'
  cases hfound'
  rw [classesAmong, h.files] at hclasses'
  exact ⟨hname, (hk.twin hname ht).mem_classes hclasses hclasses'⟩

variable (hm : m ∈ p.enabledModules) (hn : n ∈ q.enabledModules) (hapart : p.TellsApart)

include hm hn hapart

theorem coveredBy_contentsAfter
    (hc : p.contentsAfter known m = .ok contents) (hc' : q.contentsAfter known' n = .ok contents') :
    CoveredBy contents contents' ∧ CoveredBy contents' contents := by
  obtain ⟨libraries, hl, -⟩ := contentsAfter_eq_ok hc
  obtain ⟨others, ho, -⟩ := contentsAfter_eq_ok hc'
  rw [contentsAfter_eq hl (hapart.nodup_fullName hm hl)] at hc
  rw [contentsAfter_eq ho ((h.tellsApart hapart).nodup_fullName hn ho)] at hc'
  exact ⟨h.coveredBy_contentsAmong hmn hk hm hl ho hc hc',
    h.symm.coveredBy_contentsAmong hmn.symm (h.knownAlike_symm hk) hn ho hl hc' hc⟩

/-- Where the spelling does not matter, the contents can be read in both projects. -/
theorem exists_contentsAfter (hs : p.SpellsAlike) (hc : p.contentsAfter known m = .ok contents) :
    ∃ contents', q.contentsAfter known' n = .ok contents' := by
  obtain ⟨libraries, hl, -⟩ := contentsAfter_eq_ok hc
  obtain ⟨others, ho⟩ := exists_librariesOf (q := q) hmn hl
  rw [contentsAfter_eq hl (hapart.nodup_fullName hm hl)] at hc
  rw [contentsAfter_eq ho ((h.tellsApart hapart).nodup_fullName hn ho)]
  -- Each library of `n` has to be read, so the twins are looked up from there.
  refine exists_contentsAmong fun other hother => ?_
  obtain ⟨library, hlibrary, hname, ht⟩ := h.symm.exists_twin hmn.symm hn ho hl hother
  obtain ⟨content, hcontent⟩ := forall_of_mapM_ok hc library hlibrary
  obtain ⟨found, hfound, -⟩ := bind_eq_ok hcontent
  have htwin := hk.twin hname.symm (h.symm.twin_symm ht)
  rw [classesAmong, h.files]
  exact classes_ok_iff.2 ((htwin.canIndex hs).1 (canIndex_of_classes_ok hfound))

end Contents

/-! ## Findings -/

section Findings

variable (h : p.DeclaredAlike q) (hid : p.DistinctIds) (hmn : m.Alike n) (hm : m ∈ p.modules)
  (hn : n ∈ q.modules)

include h hid hmn hm hn

/-- A library is reported by its classes and by the imports that are seen. -/
theorem verdict_eq {content content' : LibraryContent} (hname : content'.fullName = content.fullName)
    (hclasses : ∀ name, name ∈ content'.classes ↔ name ∈ content.classes) :
    Rule.unusedLibraries.verdict q n content' = Rule.unusedLibraries.verdict p m content := by
  have huses : usesLibrary (q.visibleImports n) content'.classes =
      usesLibrary (p.visibleImports m) content.classes := by
    rw [usesLibrary_eq_sharesPackage, usesLibrary_eq_sharesPackage, Bool.eq_iff_iff,
      sharesPackage_iff, sharesPackage_iff]
    simp only [h.mem_visibleImports_iff hid hmn hm hn, hclasses]
  rw [Rule.verdict, Rule.verdict, huses, hname, Rule.finding, Rule.finding, hmn.label_eq]

theorem mem_libraryFindings (hc : CoveredBy contents contents') {finding : Finding}
    (hf : finding ∈ Rule.unusedLibraries.findings p m contents) :
    finding ∈ Rule.unusedLibraries.findings q n contents' := by
  obtain ⟨content, hcontent, hverdict⟩ := List.mem_filterMap.1 hf
  obtain ⟨content', hcontent', hname, hclasses⟩ := hc content hcontent
  refine List.mem_filterMap.2 ⟨content', hcontent', ?_⟩
  rwa [h.verdict_eq hid hmn hm hn hname hclasses]

/-- **Both rules report alike.** -/
theorem sameOutlines_findings (hc : CoveredBy contents contents')
    (hc' : CoveredBy contents' contents) {rule : Rule}
    (hrule : rule ∈ [Rule.unusedModules, Rule.unusedLibraries]) :
    SameOutlines (rule.findings p m contents) (rule.findings q n contents') := by
  rcases List.mem_pair.1 hrule with rfl | rfl
  · exact h.sameOutlines_moduleFindings hid hmn hm hn
  · have hmem : ∀ finding, finding ∈ Rule.unusedLibraries.findings q n contents' ↔
        finding ∈ Rule.unusedLibraries.findings p m contents := fun finding =>
      ⟨h.symm.mem_libraryFindings (h.redeclared.distinctIds hid) hmn.symm hn hm hc',
        h.mem_libraryFindings hid hmn hm hn hc⟩
    intro finding
    simp only [List.mem_map, hmem]

end Findings

/-! ## One module -/

section Module

variable {rules : List Rule} (h : p.DeclaredAlike q)

include h

theorem activeRules_eq : q.activeRules rules = p.activeRules rules := by
  rw [activeRules, activeRules, h.settings]

theorem readsContents_eq : q.readsContents rules = p.readsContents rules := by
  rw [readsContents, readsContents, h.activeRules_eq]

variable (hmn : m.Alike n) (hm : m ∈ p.enabledModules) (hn : n ∈ q.enabledModules)
  (hapart : p.TellsApart) (hk : p.KnownAlike known known')

include hmn hm hn hapart hk

theorem sameOutlines_findingsAfter (hid : p.DistinctIds)
    (hrules : rules ⊆ [.unusedModules, .unusedLibraries]) {found found' : List Finding}
    (hf : p.findingsAfter rules known m = .ok found)
    (hf' : q.findingsAfter rules known' n = .ok found') : SameOutlines found found' := by
  obtain ⟨contents, hc, rfl⟩ := map_eq_ok hf
  obtain ⟨contents', hc', rfl⟩ := map_eq_ok hf'
  have hcontents : CoveredBy contents contents' ∧ CoveredBy contents' contents := by
    rw [h.readsContents_eq] at hc'
    split_ifs at hc hc'
    · exact h.coveredBy_contentsAfter hmn hk hm hn hapart hc hc'
    · cases hc
      cases hc'
      exact ⟨fun _ hnil => absurd hnil List.not_mem_nil, fun _ hnil => absurd hnil List.not_mem_nil⟩
  have hrule : ∀ rule ∈ p.activeRules rules,
      SameOutlines (rule.findings p m contents) (rule.findings q n contents') := by
    intro rule hmem
    exact h.sameOutlines_findings hid hmn (mem_of_mem_enabledModules hm)
      (mem_of_mem_enabledModules hn) hcontents.1 hcontents.2 (hrules (List.mem_of_mem_filter hmem))
  intro finding
  rw [h.activeRules_eq, List.map_flatMap, List.map_flatMap, List.mem_flatMap, List.mem_flatMap]
  exact exists_congr fun rule => and_congr_right fun hmem => hrule rule hmem finding

theorem knownAlike_librariesRead :
    p.KnownAlike (known ++ p.librariesRead rules [m]) (known' ++ q.librariesRead rules [n]) := by
  refine hk.append ?_
  unfold librariesRead
  rw [h.readsContents_eq]
  split_ifs
  · rw [List.flatMap_singleton, List.flatMap_singleton]
    exact h.knownAlike_resolvedFor hmn hm hn hapart
  · exact KnownAlike.nil

theorem exists_findingsAfter (hs : p.SpellsAlike) {found : List Finding}
    (hf : p.findingsAfter rules known m = .ok found) :
    ∃ found', q.findingsAfter rules known' n = .ok found' := by
  obtain ⟨contents, hc, -⟩ := map_eq_ok hf
  unfold findingsAfter
  rw [h.readsContents_eq]
  split_ifs at hc ⊢
  · obtain ⟨contents', hc'⟩ := h.exists_contentsAfter hmn hk hm hn hapart hs hc
    exact ⟨_, by rw [hc']; rfl⟩
  · exact ⟨_, rfl⟩

end Module

/-! ## One module after the other -/

section Run

variable (h : p.DeclaredAlike q) (hapart : p.TellsApart) {rules : List Rule}
  {modules modules' : List BuildModule} (hmodules : List.Forall₂ BuildModule.Alike modules modules')
  (hmem : ∀ m ∈ modules, m ∈ p.enabledModules) (hmem' : ∀ n ∈ modules', n ∈ q.enabledModules)

include h hapart hmodules hmem hmem'

/-- **Two runs that succeed report alike about every module.** -/
theorem sameOutlines_blocksAfter (hid : p.DistinctIds)
    (hrules : rules ⊆ [.unusedModules, .unusedLibraries]) (hk : p.KnownAlike known known')
    {blocks blocks' : List (List Finding)} (hb : p.blocksAfter rules known modules = .ok blocks)
    (hb' : q.blocksAfter rules known' modules' = .ok blocks') :
    List.Forall₂ SameOutlines blocks blocks' := by
  -- The libraries that are known before each module stay twins, though both lists grow.
  induction hmodules generalizing known known' blocks blocks' with
  | nil =>
    cases hb
    cases hb'
    exact List.Forall₂.nil
  | @cons m n modules modules' hmn hmodules ih =>
    obtain ⟨found, rest, hfound, hrest, rfl⟩ := blocksAfter_cons_eq_ok.1 hb
    obtain ⟨found', rest', hfound', hrest', rfl⟩ := blocksAfter_cons_eq_ok.1 hb'
    have hm := hmem m List.mem_cons_self
    have hn := hmem' n List.mem_cons_self
    refine List.Forall₂.cons
      (h.sameOutlines_findingsAfter hmn hm hn hapart hk hid hrules hfound hfound') ?_
    exact ih (fun m hm => hmem m (List.mem_cons_of_mem _ hm))
      (fun n hn => hmem' n (List.mem_cons_of_mem _ hn))
      (h.knownAlike_librariesRead hmn hm hn hapart hk) hrest hrest'

/-- **Where the spelling does not matter, both runs succeed or neither.** -/
theorem exists_blocksAfter (hs : p.SpellsAlike) (hk : p.KnownAlike known known')
    {blocks : List (List Finding)} (hb : p.blocksAfter rules known modules = .ok blocks) :
    ∃ blocks', q.blocksAfter rules known' modules' = .ok blocks' := by
  induction hmodules generalizing known known' blocks with
  | nil => exact ⟨[], rfl⟩
  | @cons m n modules modules' hmn hmodules ih =>
    obtain ⟨found, rest, hfound, hrest, rfl⟩ := blocksAfter_cons_eq_ok.1 hb
    have hm := hmem m List.mem_cons_self
    have hn := hmem' n List.mem_cons_self
    obtain ⟨found', hfound'⟩ := h.exists_findingsAfter hmn hm hn hapart hk hs hfound
    obtain ⟨rest', hrest'⟩ := ih (fun m hm => hmem m (List.mem_cons_of_mem _ hm))
      (fun n hn => hmem' n (List.mem_cons_of_mem _ hn))
      (h.knownAlike_librariesRead hmn hm hn hapart hk) hrest
    exact ⟨_, blocksAfter_cons_eq_ok.2 ⟨found', rest', hfound', hrest', rfl⟩⟩

end Run

section Analyze

variable (h : p.DeclaredAlike q) (hid : p.DistinctIds) (hapart : p.TellsApart) {rules : List Rule}

include h hid hapart

theorem exists_analyze (hs : p.SpellsAlike) (hr : ∃ result, p.analyze rules = .ok result) :
    ∃ result, q.analyze rules = .ok result := by
  obtain ⟨result, hr⟩ := hr
  obtain ⟨hindexable, blocks, hblocks, -⟩ := (analyze_eq_ok_iff hid).1 hr
  obtain ⟨blocks', hblocks'⟩ := h.exists_blocksAfter hapart h.forall₂_enabledModules (fun _ => id)
    (fun _ => id) hs KnownAlike.nil hblocks
  exact ⟨_, (analyze_eq_ok_iff (h.redeclared.distinctIds hid)).2
    ⟨h.redeclared.isIndexable hindexable, blocks', hblocks', rfl⟩⟩

end Analyze

end DeclaredAlike

end Project

/-! ## Two configurations in both orders -/

namespace Swapped

/-- A configuration that declares one library. -/
def declaring (name : String) (library : DeclaredLibrary) : Configuration where
  name := name
  canBeResolved := true
  dependencies := [.onLibrary library.declared]
  resolved := [library.resolved]

def plain : Configuration :=
  declaring "api" ⟨⟨"org", "lib", "1"⟩, TwoLibraries.resolved "lib" "lib.jar"⟩

def slashed : Configuration :=
  declaring "implementation" ⟨⟨"org", "lib", "1"⟩, TwoLibraries.resolved "lib" "lib.jar/"⟩

def other : Configuration :=
  declaring "implementation" ⟨⟨"org", "old", "1"⟩, TwoLibraries.resolved "old" "old.jar"⟩

/-- These two libraries have one text, and only the first one has classes. -/
def filled : Configuration := declaring "api" SharedText.filled

def bare : Configuration := declaring "implementation" SharedText.bare

/-- A project with one module that imports something from the package of `lib.jar`. -/
def sample (configurations : List Configuration) : Project where
  files := .ofEntries [("lib.jar", .file (Archive.ofEntry "lib/Lib.class")),
    ("old.jar", .file (Archive.ofEntry "old/Old.class")), ("app", .ofSource "import lib.other")]
  manifest := ⟨[{ SharedText.app with configurations := configurations }]⟩
  settings := {}

theorem reordered_swap (c d : Configuration) : (sample [c, d]).Reordered (sample [d, c]) where
  files := rfl
  settings := rfl
  modules := .cons ⟨[d, c], [d, c], .swap d c [],
    .cons ⟨d.dependencies, .refl _, rfl⟩ (.cons ⟨c.dependencies, .refl _, rfl⟩ .nil), rfl⟩ .nil

def rules : List Rule := [.unusedModules, .unusedLibraries]

/-- What is found about a library that nothing is imported from. -/
def unused (fullName : String) : Finding :=
  ⟨"DS002", "unused-library-dependency", "app", fullName, .unusedLibrary⟩

end Swapped

open Swapped in
/-- **The order of two configurations can decide whether a project can be analyzed, and what is
reported.** The file of a library is kept in the spelling that comes first, and with a slash behind it
cannot be read. Of two libraries with one text, the classes of the one that comes first count for
both. -/
theorem order_decides :
    ((sample [plain, slashed]).Reordered (sample [slashed, plain]) ∧
      (sample [plain, slashed]).analyze rules = .ok ⟨[], 1⟩ ∧
      ¬∃ result, (sample [slashed, plain]).analyze rules = .ok result) ∧
    (sample [filled, bare]).Reordered (sample [bare, filled]) ∧
      (sample [filled, bare]).analyze rules = .ok ⟨[], 1⟩ ∧
      (sample [bare, filled]).analyze rules = .ok ⟨[unused "a:b:c:1", unused "a:b:c:1"], 1⟩ := by
  refine ⟨⟨reordered_swap _ _, eq_ok_of_toOption (by decide +kernel), ?_⟩, reordered_swap _ _,
    eq_ok_of_toOption (by decide +kernel), eq_ok_of_toOption (by decide +kernel)⟩
  rintro ⟨result, hresult⟩
  have hnone : ((sample [slashed, plain]).analyze rules).toOption = none := by decide +kernel
  rw [hresult] at hnone
  cases hnone

/-! ## The theorem -/

/-- **Declarations in another order are reported alike,** if no module reads two libraries with one
text. The findings about each module are the same in both runs, but for their order and for the
replacements, and if the spelling of paths does not matter both runs succeed or neither. -/
theorem reordered_reports_alike {p q : Project} (hid : p.DistinctIds)
    (hapart : p.TellsApart) (h : p.Reordered q) {rules : List Rule}
    (hrules : rules ⊆ [.unusedModules, .unusedLibraries]) :
    (p.SpellsAlike →
      ((∃ result, p.analyze rules = .ok result) ↔ ∃ result, q.analyze rules = .ok result)) ∧
    ∀ result result', p.analyze rules = .ok result → q.analyze rules = .ok result' →
      result'.modulesChecked = result.modulesChecked ∧
      ∃ blocks blocks',
        ((p.enabledModules.mapM (analyzeModule rules)).answer p p.freshSession).1 = .ok blocks ∧
        ((q.enabledModules.mapM (analyzeModule rules)).answer q q.freshSession).1 = .ok blocks' ∧
        result.findings = blocks.flatten ∧ result'.findings = blocks'.flatten ∧
        List.Forall₂ SameOutlines blocks blocks' := by
  have h := h.declaredAlike
  have hid' := h.redeclared.distinctIds hid
  have hmodules := h.forall₂_enabledModules
  refine ⟨fun hs => ⟨h.exists_analyze hid hapart hs, h.symm.exists_analyze hid'
    (h.tellsApart hapart) (h.spellsAlike hs)⟩, fun result result' hr hr' => ?_⟩
  obtain ⟨hindexable, blocks, hblocks, rfl⟩ := (analyze_eq_ok_iff hid).1 hr
  obtain ⟨hindexable', blocks', hblocks', rfl⟩ := (analyze_eq_ok_iff hid').1 hr'
  refine ⟨hmodules.length_eq.symm, blocks, blocks', ?_, ?_, rfl, rfl, ?_⟩
  · rw [mapM_enabled_answer hid ((buildIndex_ok_iff hid).2 hindexable), hblocks]
  · rw [mapM_enabled_answer hid' ((buildIndex_ok_iff hid').2 hindexable'), hblocks']
  · exact h.sameOutlines_blocksAfter hapart hmodules (fun _ => id) (fun _ => id) hid hrules
      Project.KnownAlike.nil hblocks hblocks'

open Swapped in
/-- Two libraries in two configurations, all of whose files can be read. -/
theorem swapped_configurations_report_alike :
    (sample [plain, other]).analyze rules = .ok ⟨[unused "org:old:1"], 1⟩ ∧
    ∃ result, (sample [other, plain]).analyze rules = .ok result ∧ result.modulesChecked = 1 ∧
      ∃ blocks blocks', [unused "org:old:1"] = blocks.flatten ∧
        result.findings = blocks'.flatten ∧ List.Forall₂ SameOutlines blocks blocks' := by
  have hanalyze : (sample [plain, other]).analyze rules = .ok ⟨[unused "org:old:1"], 1⟩ :=
    eq_ok_of_toOption (by decide +kernel)
  have hspells : (sample [plain, other]).SpellsAlike :=
    Project.spellsAlike_of_canIndex (by decide +kernel)
  have hapart : (sample [plain, other]).TellsApart :=
    Project.tellsApart_of_modules (by decide +kernel)
  obtain ⟨hsuccess, hreports⟩ := reordered_reports_alike (p := sample [plain, other]) (by decide)
    hapart (reordered_swap plain other) (List.Subset.refl _)
  obtain ⟨result, hresult⟩ := (hsuccess hspells).1 ⟨_, hanalyze⟩
  obtain ⟨hchecked, blocks, blocks', -, -, hflat, hflat', hsame⟩ := hreports _ _ hanalyze hresult
  exact ⟨hanalyze, result, hresult, hchecked, blocks, blocks', hflat, hflat', hsame⟩

end DependencyLint
