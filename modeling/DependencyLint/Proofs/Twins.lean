import DependencyLint.Proofs.DeclaredAlike
import DependencyLint.Proofs.DirectRun

/-!
# Libraries with the same files

The files of a library are collected in an order, and of two spellings of one path the first stays.
The libraries of a module that is declared in two orders have the same files up to their spelling,
so they have the same classes wherever both can be read. Whether they can be read is another
matter: a path with a slash behind it may lead nowhere.

**Twins** (`Project.Twin`). Libraries with the same files. In a project where the spelling does not
matter (`Project.SpellsAlike`), both can be read or neither.

**Texts.** Classes are kept by the text of a coordinate. Where two libraries of one module share a
text (not `Project.TellsApart`), the one that comes first gives its classes to the other.

**Main results.** Each library of a module has its twin where the module is declared alike
(`DeclaredAlike.exists_twin`), and so have the libraries that the module puts into the table of
classes (`DeclaredAlike.knownAlike_resolvedFor`).
-/

namespace DependencyLint

/-! ## Twins -/

namespace Project

/-- The file can be read as the path spells it. -/
def CanRead (project : Project) (path : Path) : Prop :=
  ∃ names, Archive.classNames project.files path = .ok names

/-- The module selects the library and does not ignore it. -/
def Reads (project : Project) (m : BuildModule) (s : DeclaredLibrary) : Prop :=
  m.Selects s ∧ (!(project.settingsFor m).isIgnored s.fullName) = true

/-- Where a library of a module that is checked has a path in two spellings, both can be read or
neither. -/
def SpellsAlike (project : Project) : Prop :=
  ∀ m ∈ project.enabledModules, ∀ s s', project.Reads m s → project.Reads m s' →
    s.resolved.coordinate = s'.resolved.coordinate →
    ∀ path ∈ s.resolved.artifacts, ∀ path' ∈ s'.resolved.artifacts, path.same path' = true →
      project.CanRead path → project.CanRead path'

/-- Libraries that a checked module reads have the same text only if they have the same
coordinate. -/
def TellsApart (project : Project) : Prop :=
  ∀ m ∈ project.enabledModules, ∀ s s', project.Reads m s → project.Reads m s' →
    s.fullName = s'.fullName → s.resolved.coordinate = s'.resolved.coordinate

/-- The libraries have the same files, and it does not matter in which spelling unless that matters
in the project. -/
structure Twin (project : Project) (r r' : ResolvedLibrary) : Prop where
  there : FilesAmong r r'
  back : FilesAmong r' r
  canIndex : project.SpellsAlike → (project.CanIndex r ↔ project.CanIndex r')

/-- The first libraries of each text are twins. -/
def KnownAlike (project : Project) (known known' : List ResolvedLibrary) : Prop :=
  ∀ text, Option.Rel project.Twin (firstNamed known text) (firstNamed known' text)

end Project

theorem rel_or {α β : Type} {R : α → β → Prop} {a a' : Option α} {b b' : Option β}
    (h : Option.Rel R a b) (h' : Option.Rel R a' b') : Option.Rel R (a.or a') (b.or b') := by
  cases h with
  | some h => exact Option.Rel.some h
  | none => exact h'

theorem rel_getD {α β : Type} {R : α → β → Prop} {a : Option α} {b : Option β} {x : α} {y : β}
    (h : Option.Rel R a b) (hxy : R x y) : R (a.getD x) (b.getD y) := by
  cases h with
  | some h => exact h
  | none => exact hxy

theorem rel_swap {α β : Type} {R : α → β → Prop} {S : β → α → Prop} {a : Option α} {b : Option β}
    (hRS : ∀ x y, R x y → S y x) (h : Option.Rel R a b) : Option.Rel S b a := by
  cases h with
  | some h => exact Option.Rel.some (hRS _ _ h)
  | none => exact Option.Rel.none

theorem exists_of_firstNamed {libraries : List DeclaredLibrary} {text : String} {r : ResolvedLibrary}
    (h : firstNamed (libraries.map (·.resolved)) text = some r) :
    ∃ library ∈ libraries, library.fullName = text ∧ library.resolved = r := by
  obtain ⟨library, hl, rfl⟩ := List.mem_map.1 (List.mem_of_find?_eq_some h)
  have htext : library.resolved.coordinate.render = text := by simpa using List.find?_some h
  exact ⟨library, hl, htext, rfl⟩

namespace Project

section Twin

variable {p : Project} {r r' : ResolvedLibrary} {known known' more more' : List ResolvedLibrary}

theorem KnownAlike.nil : p.KnownAlike [] [] := fun _ => Option.Rel.none

theorem KnownAlike.append (h : p.KnownAlike known known') (hmore : p.KnownAlike more more') :
    p.KnownAlike (known ++ more) (known' ++ more') := by
  intro text
  rw [firstNamed_append, firstNamed_append]
  exact rel_or (h text) (hmore text)

/-- Twins that can both be read have the same classes. -/
theorem Twin.mem_classes (h : p.Twin r r') {found found' : List String}
    (hr : r.classes p.files = .ok found) (hr' : r'.classes p.files = .ok found') (name : String) :
    name ∈ found' ↔ name ∈ found := by
  rw [mem_classes_iff hr, mem_classes_iff hr']
  exact ⟨HasClass.of_filesAmong h.back (canIndex_of_classes_ok hr),
    HasClass.of_filesAmong h.there (canIndex_of_classes_ok hr')⟩

/-- Files that are all there can be spelled in any way. -/
theorem spellsAlike_of_canIndex
    (h : ∀ m ∈ p.modules, ∀ c ∈ m.configurations, ∀ r ∈ c.resolved, p.CanIndex r) :
    p.SpellsAlike := by
  rintro m hm s s' - ⟨⟨c, hc, -, -, hmatch⟩, -⟩ - path - path' hpath' - -
  exact h m (mem_of_mem_enabledModules hm) c hc _
    (List.mem_of_mem_filter (mem_of_matchResolved hmatch)) path' hpath'

theorem tellsApart_of_modules (h : ∀ m ∈ p.modules, m.TellsLibrariesApart) : p.TellsApart := by
  rintro m hm s s' ⟨⟨c, hc, -, -, hmatch⟩, -⟩ ⟨⟨c', hc', -, -, hmatch'⟩, -⟩ hname
  exact h m (mem_of_mem_enabledModules hm) c hc _
    (List.mem_of_mem_filter (mem_of_matchResolved hmatch)) c' hc' _
    (List.mem_of_mem_filter (mem_of_matchResolved hmatch')) hname

theorem TellsApart.nodup_fullName (h : p.TellsApart) {m : BuildModule} (hm : m ∈ p.enabledModules)
    {libraries : List DeclaredLibrary} (hl : p.librariesOf m = .ok libraries) :
    (libraries.map (·.fullName)).Nodup := by
  obtain ⟨all, hall, rfl⟩ := map_eq_ok hl
  have horigin := (BuildModule.collects_resolvedLibraries hall).origin
  have hnodup := (BuildModule.resolvedLibraries_coordinates hall).1
  refine (hnodup.of_map.filter _).map_on fun library hlibrary other hother hname => ?_
  obtain ⟨hlibrary, hshown⟩ := List.mem_filter.1 hlibrary
  obtain ⟨hother, hshown'⟩ := List.mem_filter.1 hother
  obtain ⟨s, hs, hc⟩ := horigin library hlibrary
  obtain ⟨s', hs', hc'⟩ := horigin other hother
  have hsname : s.fullName = library.fullName := congrArg Coordinate.render hc
  have hsname' : s'.fullName = other.fullName := congrArg Coordinate.render hc'
  have hsame := h m hm s s' ⟨hs, by rwa [hsname]⟩ ⟨hs', by rwa [hsname']⟩
    (hsname.trans (hname.trans hsname'.symm))
  exact List.inj_on_of_nodup_map hnodup hlibrary hother (hc.symm.trans (hsame.trans hc'))

/-- In a project where the spelling does not matter, a library can be read if another one of the same
module can be that has its files. -/
theorem SpellsAlike.canIndex (h : p.SpellsAlike) {m : BuildModule} (hm : m ∈ p.enabledModules)
    {libraries others : List DeclaredLibrary} (hlibraries : Collects m.Selects libraries)
    (hothers : Collects m.Selects others) {library other : DeclaredLibrary}
    (hl : library ∈ libraries) (ho : other ∈ others)
    (hshown : (!(p.settingsFor m).isIgnored library.fullName) = true)
    (hcoordinate : other.resolved.coordinate = library.resolved.coordinate)
    (hfiles : FilesAmong other.resolved library.resolved) (hindex : p.CanIndex library.resolved) :
    p.CanIndex other.resolved := by
  intro path' hpath'
  obtain ⟨path, hpath, hsame⟩ := hfiles path' hpath'
  obtain ⟨s, hs, hcs, hmem⟩ := hlibraries.files library hl path hpath
  obtain ⟨s', hs', hcs', hmem'⟩ := hothers.files other ho path' hpath'
  have hname : s.fullName = library.fullName := congrArg Coordinate.render hcs
  have hname' : s'.fullName = library.fullName :=
    congrArg Coordinate.render (hcs'.trans hcoordinate)
  exact h m hm s s' ⟨hs, by rwa [hname]⟩ ⟨hs', by rwa [hname']⟩
    (hcs.trans (hcs'.trans hcoordinate).symm) path hmem path' hmem' (Path.same_symm hsame)
    (hindex path hpath)

end Twin

theorem exists_librariesOf {p q : Project} {m n : BuildModule} (hmn : m.Alike n)
    {libraries : List DeclaredLibrary} (hl : p.librariesOf m = .ok libraries) :
    ∃ others, q.librariesOf n = .ok others := by
  obtain ⟨all, hall, -⟩ := map_eq_ok hl
  have hresolves := hmn.resolves (BuildModule.resolvedLibraries_ok_iff.1 ⟨all, hall⟩)
  obtain ⟨all', hall'⟩ := BuildModule.resolvedLibraries_ok_iff.2 hresolves
  exact ⟨_, by rw [librariesOf, BuildModule.checkedLibraries, hall']; rfl⟩

namespace DeclaredAlike

variable {p q : Project} (h : p.DeclaredAlike q)

include h

theorem forall₂_enabledModules :
    List.Forall₂ BuildModule.Alike p.enabledModules q.enabledModules := by
  refine List.rel_filter (fun m n hmn => ?_) h.modules
  simp only [h.redeclared.settingsFor_eq hmn.redeclares]

theorem reads {m n : BuildModule} (hmn : m.Alike n) {s : DeclaredLibrary} (hs : p.Reads m s) :
    q.Reads n s :=
  ⟨hmn.selects hs.1, h.redeclared.settingsFor_eq hmn.redeclares ▸ hs.2⟩

theorem spellsAlike (hs : p.SpellsAlike) : q.SpellsAlike := by
  intro n hn s s' hsel hsel' hc path hpath path' hpath' hsame hread
  obtain ⟨m, hm, hnm⟩ := exists_of_forall₂ h.symm.forall₂_enabledModules hn
  unfold CanRead at hread ⊢
  rw [h.files] at hread ⊢
  exact hs m hm s s' (h.symm.reads hnm hsel) (h.symm.reads hnm hsel') hc path hpath path' hpath'
    hsame hread

theorem tellsApart (ha : p.TellsApart) : q.TellsApart := by
  intro n hn s s' hsel hsel' hname
  obtain ⟨m, hm, hnm⟩ := exists_of_forall₂ h.symm.forall₂_enabledModules hn
  exact ha m hm s s' (h.symm.reads hnm hsel) (h.symm.reads hnm hsel') hname

theorem canIndex_iff {r : ResolvedLibrary} : q.CanIndex r ↔ p.CanIndex r := by
  unfold CanIndex
  rw [h.files]

theorem twin_symm {r r' : ResolvedLibrary} (ht : p.Twin r r') : q.Twin r' r where
  there := ht.back
  back := ht.there
  canIndex hs := by
    rw [h.canIndex_iff, h.canIndex_iff]
    exact (ht.canIndex (h.symm.spellsAlike hs)).symm

theorem knownAlike_symm {known known' : List ResolvedLibrary} (hk : p.KnownAlike known known') :
    q.KnownAlike known' known := by
  intro text
  exact rel_swap (fun _ _ => h.twin_symm) (hk text)

/-! ## Libraries of a module -/

section Libraries

variable {m n : BuildModule} (hmn : m.Alike n) (hm : m ∈ p.enabledModules)
  {libraries others : List DeclaredLibrary}

include hmn hm

/-- Each library of the one module has its twin among those of the other. -/
theorem exists_twin (hl : p.librariesOf m = .ok libraries) (ho : q.librariesOf n = .ok others)
    {library : DeclaredLibrary} (hmem : library ∈ libraries) :
    ∃ other ∈ others, other.fullName = library.fullName ∧
      p.Twin library.resolved other.resolved := by
  obtain ⟨all, hall, rfl⟩ := map_eq_ok hl
  obtain ⟨all', hall', rfl⟩ := map_eq_ok ho
  obtain ⟨hmem, hshown⟩ := List.mem_filter.1 hmem
  have hcollects := BuildModule.collects_resolvedLibraries hall
  have hcollects' := (BuildModule.collects_resolvedLibraries hall').congr fun s => hmn.selects_iff
  obtain ⟨other, hother, hc, hthere, hback⟩ := hcollects.exists_partner hcollects'
    (BuildModule.resolvedLibraries_coordinates hall).1
    (BuildModule.resolvedLibraries_coordinates hall').1 hmem
  have hname : other.fullName = library.fullName := congrArg Coordinate.render hc
  refine ⟨other, List.mem_filter.2 ⟨hother, ?_⟩, hname, hthere, hback, fun hs => ?_⟩
  · rwa [h.redeclared.settingsFor_eq hmn.redeclares, hname]
  · exact ⟨hs.canIndex hm hcollects hcollects' hmem hother hshown hc hback,
      hs.canIndex hm hcollects' hcollects hother hmem (hname ▸ hshown) hc.symm hthere⟩

variable (hn : n ∈ q.enabledModules) (hapart : p.TellsApart)

include hn hapart

theorem knownAlike_librariesOf (hl : p.librariesOf m = .ok libraries)
    (ho : q.librariesOf n = .ok others) :
    p.KnownAlike (libraries.map (·.resolved)) (others.map (·.resolved)) := by
  have hnodup := hapart.nodup_fullName hm hl
  have hnodup' := (h.tellsApart hapart).nodup_fullName hn ho
  intro text
  cases hfirst : firstNamed (libraries.map (·.resolved)) text with
  | some r =>
    obtain ⟨library, hmem, rfl, rfl⟩ := exists_of_firstNamed hfirst
    obtain ⟨other, hother, hname, ht⟩ := h.exists_twin hmn hm hl ho hmem
    rw [← hname, firstNamed_fullName hother hnodup']
    exact Option.Rel.some ht
  | none =>
    cases hfirst' : firstNamed (others.map (·.resolved)) text with
    | none => exact Option.Rel.none
    | some r' =>
      obtain ⟨other, hother, rfl, rfl⟩ := exists_of_firstNamed hfirst'
      obtain ⟨library, hmem, hname, -⟩ := h.symm.exists_twin hmn.symm hn ho hl hother
      rw [← hname, firstNamed_fullName hmem hnodup] at hfirst
      cases hfirst

theorem knownAlike_resolvedFor : p.KnownAlike (p.resolvedFor m) (q.resolvedFor n) := by
  unfold resolvedFor
  cases hl : p.librariesOf m with
  | ok libraries =>
    obtain ⟨others, ho⟩ := exists_librariesOf (q := q) hmn hl
    rw [ho]
    exact h.knownAlike_librariesOf hmn hm hn hapart hl ho
  | error e =>
    cases ho : q.librariesOf n with
    | error e' => exact KnownAlike.nil
    | ok others =>
      obtain ⟨libraries, hl'⟩ := exists_librariesOf (q := p) hmn.symm ho
      cases hl.symm.trans hl'

end Libraries

end DeclaredAlike

end Project

end DependencyLint
