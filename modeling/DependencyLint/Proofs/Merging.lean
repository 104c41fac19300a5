import DependencyLint.Proofs.Spellings

/-!
# What the list of libraries holds

The list of the libraries of a module is put together configuration by configuration, and what is
already there decides what is added. Which coordinates are in it and which files belong to them can
be told without the order.

**Selections** (`BuildModule.Selects`). What was resolved for a declared library in a configuration
that is checked.

**Main results.** The list can be told exactly if every declared library has a selection
(`BuildModule.resolvedLibraries_ok_iff`). It has one entry for each selected coordinate, and the files
of the entry are those of all its selections, up to their spelling
(`BuildModule.collects_resolvedLibraries`).
-/

namespace DependencyLint

/-! ## Adding files -/

theorem mem_addArtifacts_left {path : Path} {artifacts : List Path} (more : List Path)
    (h : path ∈ artifacts) : path ∈ addArtifacts artifacts more := by
  unfold addArtifacts
  induction more generalizing artifacts with
  | nil => exact h
  | cons new more ih =>
    rw [List.foldl_cons]
    split_ifs
    · exact ih h
    · exact ih (List.mem_append_left _ h)

theorem mem_of_mem_addArtifacts {path : Path} {artifacts more : List Path}
    (h : path ∈ addArtifacts artifacts more) : path ∈ artifacts ∨ path ∈ more := by
  unfold addArtifacts at h
  induction more generalizing artifacts with
  | nil => exact Or.inl h
  | cons new more ih =>
    rw [List.foldl_cons] at h
    rcases ih h with h | h
    · split_ifs at h with hknown
      · exact Or.inl h
      · rcases List.mem_append.1 h with h | h
        · exact Or.inl h
        · exact Or.inr (List.mem_singleton.1 h ▸ List.mem_cons_self)
    · exact Or.inr (List.mem_cons_of_mem new h)

/-- An added file is there afterwards, in this or another spelling. -/
theorem exists_same_addArtifacts {path : Path} {artifacts more : List Path} (h : path ∈ more) :
    ∃ kept ∈ addArtifacts artifacts more, path.same kept = true := by
  unfold addArtifacts
  induction more generalizing artifacts with
  | nil => cases h
  | cons new more ih =>
    rw [List.foldl_cons]
    rcases List.mem_cons.1 h with rfl | h
    · by_cases hknown : artifacts.any path.same = true
      · obtain ⟨kept, hkept, hsame⟩ := List.any_eq_true.1 hknown
        rw [if_pos hknown]
        exact ⟨kept, mem_addArtifacts_left more hkept, hsame⟩
      · rw [if_neg hknown]
        exact ⟨path, mem_addArtifacts_left more (by simp), Path.same_iff.2 rfl⟩
    · exact ih h

/-! ## Adding libraries -/

/-- The libraries are those that `S` selects, each coordinate once with the files of all its
selections. -/
structure Collects (S : DeclaredLibrary → Prop) (libraries : List DeclaredLibrary) : Prop where
  covers : ∀ s, S s → ∃ library ∈ libraries,
    library.resolved.coordinate = s.resolved.coordinate ∧ FilesAmong s.resolved library.resolved
  origin : ∀ library ∈ libraries, ∃ s, S s ∧
    s.resolved.coordinate = library.resolved.coordinate
  files : ∀ library ∈ libraries, ∀ path ∈ library.resolved.artifacts, ∃ s, S s ∧
    s.resolved.coordinate = library.resolved.coordinate ∧ path ∈ s.resolved.artifacts

theorem Collects.nil : Collects (fun _ => False) [] :=
  ⟨fun _ h => h.elim, fun _ h => absurd h List.not_mem_nil, fun _ h => absurd h List.not_mem_nil⟩

/-- A library with the files of another one added, if both have one coordinate. -/
def DeclaredLibrary.absorb (library new : DeclaredLibrary) : DeclaredLibrary :=
  if library.resolved.coordinate = new.resolved.coordinate then
    { library with
      resolved.artifacts := addArtifacts library.resolved.artifacts new.resolved.artifacts }
  else library

namespace DeclaredLibrary

variable {library new : DeclaredLibrary}

theorem coordinate_absorb :
    (library.absorb new).resolved.coordinate = library.resolved.coordinate := by
  unfold absorb
  split_ifs <;> rfl

theorem artifacts_absorb (h : library.resolved.coordinate = new.resolved.coordinate) :
    (library.absorb new).resolved.artifacts =
      addArtifacts library.resolved.artifacts new.resolved.artifacts := by
  rw [absorb, if_pos h]

theorem artifacts_absorb_of_ne (h : library.resolved.coordinate ≠ new.resolved.coordinate) :
    (library.absorb new).resolved.artifacts = library.resolved.artifacts := by
  rw [absorb, if_neg h]

theorem mem_artifacts_absorb {path : Path} (h : path ∈ library.resolved.artifacts) :
    path ∈ (library.absorb new).resolved.artifacts := by
  by_cases hc : library.resolved.coordinate = new.resolved.coordinate
  · rw [artifacts_absorb hc]
    exact mem_addArtifacts_left _ h
  · rwa [artifacts_absorb_of_ne hc]

end DeclaredLibrary

theorem addLibrary_eq (libraries : List DeclaredLibrary) (new : DeclaredLibrary) :
    addLibrary libraries new =
      if libraries.any (·.resolved.coordinate = new.resolved.coordinate) then
        libraries.map (·.absorb new)
      else libraries ++ [new] := rfl

section Add

variable {S : DeclaredLibrary → Prop} {libraries : List DeclaredLibrary} {new : DeclaredLibrary}

/-- A selection of a coordinate that is in the list already. -/
theorem Collects.absorb (h : Collects S libraries) {old : DeclaredLibrary} (hold : old ∈ libraries)
    (hcoordinate : old.resolved.coordinate = new.resolved.coordinate) :
    Collects (fun s => S s ∨ s = new) (libraries.map (·.absorb new)) where
  covers := by
    rintro s (hs | rfl)
    · obtain ⟨library, hl, hc, hfiles⟩ := h.covers s hs
      refine ⟨_, List.mem_map_of_mem hl, DeclaredLibrary.coordinate_absorb.trans hc, ?_⟩
      intro path hpath
      obtain ⟨kept, hkept, hsame⟩ := hfiles path hpath
      exact ⟨kept, DeclaredLibrary.mem_artifacts_absorb hkept, hsame⟩
    · refine ⟨_, List.mem_map_of_mem hold, DeclaredLibrary.coordinate_absorb.trans hcoordinate, ?_⟩
      intro path hpath
      rw [DeclaredLibrary.artifacts_absorb hcoordinate]
      exact exists_same_addArtifacts hpath
  origin := by
    intro library' hl'
    obtain ⟨library, hl, rfl⟩ := List.mem_map.1 hl'
    obtain ⟨s, hs, hc⟩ := h.origin library hl
    exact ⟨s, Or.inl hs, hc.trans DeclaredLibrary.coordinate_absorb.symm⟩
  files := by
    intro library' hl' path hpath
    obtain ⟨library, hl, rfl⟩ := List.mem_map.1 hl'
    rw [DeclaredLibrary.coordinate_absorb]
    by_cases hc : library.resolved.coordinate = new.resolved.coordinate
    · rw [DeclaredLibrary.artifacts_absorb hc] at hpath
      rcases mem_of_mem_addArtifacts hpath with hpath | hpath
      · obtain ⟨s, hs, hsc, hmem⟩ := h.files library hl path hpath
        exact ⟨s, Or.inl hs, hsc, hmem⟩
      · exact ⟨new, Or.inr rfl, hc.symm, hpath⟩
    · rw [DeclaredLibrary.artifacts_absorb_of_ne hc] at hpath
      obtain ⟨s, hs, hsc, hmem⟩ := h.files library hl path hpath
      exact ⟨s, Or.inl hs, hsc, hmem⟩

/-- A selection of a new coordinate. -/
theorem Collects.append (h : Collects S libraries) :
    Collects (fun s => S s ∨ s = new) (libraries ++ [new]) where
  covers := by
    rintro s (hs | rfl)
    · obtain ⟨library, hl, hc, hfiles⟩ := h.covers s hs
      exact ⟨library, List.mem_append_left _ hl, hc, hfiles⟩
    · exact ⟨s, by simp, rfl, fun path hpath => ⟨path, hpath, Path.same_iff.2 rfl⟩⟩
  origin := by
    intro library hl
    rcases List.mem_append.1 hl with hl | hl
    · obtain ⟨s, hs, hc⟩ := h.origin library hl
      exact ⟨s, Or.inl hs, hc⟩
    · rw [List.mem_singleton.1 hl]
      exact ⟨new, Or.inr rfl, rfl⟩
  files := by
    intro library hl path hpath
    rcases List.mem_append.1 hl with hl | hl
    · obtain ⟨s, hs, hc, hmem⟩ := h.files library hl path hpath
      exact ⟨s, Or.inl hs, hc, hmem⟩
    · rw [List.mem_singleton.1 hl] at hpath ⊢
      exact ⟨new, Or.inr rfl, rfl, hpath⟩

theorem Collects.add (h : Collects S libraries) (new : DeclaredLibrary) :
    Collects (fun s => S s ∨ s = new) (addLibrary libraries new) := by
  rw [addLibrary_eq]
  split_ifs with hany
  · obtain ⟨old, hold, hc⟩ := List.any_eq_true.1 hany
    exact h.absorb hold (by simpa using hc)
  · exact h.append

theorem Collects.congr {T : DeclaredLibrary → Prop} (h : Collects S libraries)
    (hST : ∀ s, S s ↔ T s) : Collects T libraries := by
  rwa [show T = S from funext fun s => propext (hST s).symm]

/-- The libraries that were added one after the other. -/
theorem Collects.foldl (h : Collects S libraries) (more : List DeclaredLibrary) :
    Collects (fun s => S s ∨ s ∈ more) (more.foldl addLibrary libraries) := by
  induction more generalizing S libraries with
  | nil => exact h.congr (by simp)
  | cons new more ih => exact (ih (h.add new)).congr (by simp [or_assoc])

end Add

/-! ## Libraries of a module -/

namespace BuildModule

variable {m : BuildModule}

/-- A configuration that is checked declares a library, and this is what was resolved for it. -/
def Selects (m : BuildModule) (s : DeclaredLibrary) : Prop :=
  ∃ c ∈ m.configurations, c.isAccepted = true ∧ s.declared ∈ c.libraries ∧
    matchResolved m.id (c.directlyResolved m.fullName) s.declared = .ok s.resolved

/-- Every declared library in a configuration that is checked has its selection. -/
def Resolves (m : BuildModule) : Prop :=
  ∀ c ∈ m.configurations, c.isAccepted = true → ∀ declared ∈ c.libraries,
    ∃ r, matchResolved m.id (c.directlyResolved m.fullName) declared = .ok r

theorem mem_selections {c : Configuration} {selected : List DeclaredLibrary}
    (h : m.selections c = .ok selected) {s : DeclaredLibrary} :
    s ∈ selected ↔ s.declared ∈ c.libraries ∧
      matchResolved m.id (c.directlyResolved m.fullName) s.declared = .ok s.resolved := by
  unfold selections at h
  constructor
  · intro hs
    obtain ⟨declared, hdeclared, hmatch⟩ := mem_of_mapM_ok h hs
    obtain ⟨r, hr, rfl⟩ := map_eq_ok hmatch
    exact ⟨hdeclared, hr⟩
  · rintro ⟨hdeclared, hmatch⟩
    refine mem_mapM_ok h hdeclared ?_
    rw [hmatch]
    rfl

theorem resolvedLibraries_ok_iff :
    (∃ libraries, m.resolvedLibraries = .ok libraries) ↔ m.Resolves := by
  constructor
  · rintro ⟨libraries, h⟩ c hc haccepted declared hdeclared
    obtain ⟨selected, hselected, -⟩ := bind_eq_ok h
    obtain ⟨list, hlist⟩ := forall_of_mapM_ok hselected c (List.mem_filter.2 ⟨hc, haccepted⟩)
    obtain ⟨s, hs⟩ := forall_of_mapM_ok hlist declared hdeclared
    obtain ⟨r, hr, -⟩ := map_eq_ok hs
    exact ⟨r, hr⟩
  · intro h
    have hselected : ∀ c ∈ m.configurations.filter (·.isAccepted),
        ∃ list, m.selections c = .ok list := by
      intro c hc
      obtain ⟨hmem, haccepted⟩ := List.mem_filter.1 hc
      refine exists_mapM_ok fun declared hdeclared => ?_
      obtain ⟨r, hr⟩ := h c hmem haccepted declared hdeclared
      exact ⟨⟨declared, r⟩, by rw [hr]; rfl⟩
    obtain ⟨selected, hselected⟩ := exists_mapM_ok hselected
    exact ⟨_, by rw [resolvedLibraries, hselected]; rfl⟩

/-- **The list of libraries collects the selections.** -/
theorem collects_resolvedLibraries {libraries : List DeclaredLibrary}
    (h : m.resolvedLibraries = .ok libraries) : Collects m.Selects libraries := by
  obtain ⟨selected, hselected, h⟩ := bind_eq_ok h
  cases h
  refine (Collects.nil.foldl selected.flatten).congr fun s => ?_
  rw [false_or, List.mem_flatten]
  constructor
  · rintro ⟨list, hlist, hs⟩
    obtain ⟨c, hc, hsel⟩ := mem_of_mapM_ok hselected hlist
    obtain ⟨hmem, haccepted⟩ := List.mem_filter.1 hc
    exact ⟨c, hmem, haccepted, (mem_selections hsel).1 hs⟩
  · rintro ⟨c, hc, haccepted, hs⟩
    have hc : c ∈ m.configurations.filter (·.isAccepted) := List.mem_filter.2 ⟨hc, haccepted⟩
    obtain ⟨list, hlist⟩ := forall_of_mapM_ok hselected c hc
    exact ⟨list, mem_mapM_ok hselected hc hlist, (mem_selections hlist).2 hs⟩

end BuildModule

/-- Two lists that collect the same selections correspond to each other, coordinate by coordinate and
file by file. -/
theorem Collects.exists_partner {S : DeclaredLibrary → Prop} {libraries others : List DeclaredLibrary}
    (h : Collects S libraries) (h' : Collects S others)
    (hnodup : (libraries.map (·.resolved.coordinate)).Nodup)
    (hnodup' : (others.map (·.resolved.coordinate)).Nodup) {library : DeclaredLibrary}
    (hl : library ∈ libraries) :
    ∃ other ∈ others, other.resolved.coordinate = library.resolved.coordinate ∧
      FilesAmong library.resolved other.resolved ∧ FilesAmong other.resolved library.resolved := by
  obtain ⟨s, hs, hc⟩ := h.origin library hl
  obtain ⟨other, ho, hoc, -⟩ := h'.covers s hs
  refine ⟨other, ho, hoc.trans hc, fun path hpath => ?_, fun path hpath => ?_⟩
  · obtain ⟨t, ht, htc, hpath⟩ := h.files library hl path hpath
    obtain ⟨again, hagain, hac, hfiles⟩ := h'.covers t ht
    have hsame : again = other := List.inj_on_of_nodup_map hnodup' hagain ho
      (hac.trans (htc.trans (hoc.trans hc).symm))
    exact hsame ▸ hfiles path hpath
  · obtain ⟨t, ht, htc, hpath⟩ := h'.files other ho path hpath
    obtain ⟨again, hagain, hac, hfiles⟩ := h.covers t ht
    have hsame : again = library := List.inj_on_of_nodup_map hnodup hagain hl
      (hac.trans (htc.trans (hoc.trans hc)))
    exact hsame ▸ hfiles path hpath

end DependencyLint
