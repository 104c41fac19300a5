import DependencyLint.Proofs.LibraryContents

/-!
# Libraries of one module

The list of the libraries of a module names each coordinate once, and every coordinate in it was
resolved in a configuration of the module. Coordinates whose parts hold no colon differ in
their texts as well. Where the texts differ, the libraries of one module do not get in each other's way
when their classes are kept by text (`Project.contentsAfter_eq`), and a session that knows no other
library gives each of them the classes of its own files. In general it gives each of them the classes
of its `namesake` (`Project.contentsAfter_nil`).
-/

namespace DependencyLint

/-! ## Texts of coordinates -/

/-- The group and the artifact hold no colon, so the text can be taken apart again. -/
def Coordinate.IsPlain (c : Coordinate) : Prop := ':' ∉ c.group.toList ∧ ':' ∉ c.artifact.toList

instance (c : Coordinate) : Decidable c.IsPlain :=
  inferInstanceAs (Decidable (':' ∉ c.group.toList ∧ ':' ∉ c.artifact.toList))

/-- What stands before the first separator is told by the text. -/
theorem eq_of_append_cons {α : Type} {x : α} {u u' v v' : List α} (hu : x ∉ u) (hu' : x ∉ u')
    (h : u ++ x :: v = u' ++ x :: v') : u = u' ∧ v = v' := by
  induction u generalizing u' with
  | nil =>
    cases u' with
    | nil => exact ⟨rfl, (List.cons.inj h).2⟩
    | cons a u' => exact absurd ((List.cons.inj h).1 ▸ List.mem_cons_self) hu'
  | cons a u ih =>
    cases u' with
    | nil => exact absurd ((List.cons.inj h).1 ▸ List.mem_cons_self) hu
    | cons b u' =>
      obtain ⟨rfl, hrest⟩ := List.cons.inj h
      obtain ⟨rfl, hv⟩ := ih (fun hx => hu (.tail _ hx)) (fun hx => hu' (.tail _ hx)) hrest
      exact ⟨rfl, hv⟩

theorem Coordinate.toList_render (c : Coordinate) :
    c.render.toList =
      c.group.toList ++ ':' :: (c.artifact.toList ++ ':' :: c.version.toList) := by
  simp [render]

theorem Coordinate.eq_of_render {c d : Coordinate} (hc : c.IsPlain) (hd : d.IsPlain)
    (h : c.render = d.render) : c = d := by
  rw [← String.toList_inj, toList_render, toList_render] at h
  obtain ⟨hgroup, hrest⟩ := eq_of_append_cons hc.1 hd.1 h
  obtain ⟨hartifact, hversion⟩ := eq_of_append_cons hc.2 hd.2 hrest
  cases c
  cases d
  simp only [mk.injEq, ← String.toList_inj]
  exact ⟨hgroup, hartifact, hversion⟩

/-! ## The list of libraries -/

/-- The resolved libraries of the module have plain coordinates. -/
def BuildModule.HasPlainLibraries (m : BuildModule) : Prop :=
  ∀ c ∈ m.configurations, ∀ library ∈ c.resolved, library.coordinate.IsPlain

instance (m : BuildModule) : Decidable m.HasPlainLibraries :=
  inferInstanceAs
    (Decidable (∀ c ∈ m.configurations, ∀ library ∈ c.resolved, library.coordinate.IsPlain))

/-- The resolved libraries of the module are told apart by the texts of their coordinates. -/
def BuildModule.TellsLibrariesApart (m : BuildModule) : Prop :=
  ∀ c ∈ m.configurations, ∀ library ∈ c.resolved, ∀ c' ∈ m.configurations, ∀ other ∈ c'.resolved,
    library.coordinate.render = other.coordinate.render → library.coordinate = other.coordinate

instance (m : BuildModule) : Decidable m.TellsLibrariesApart :=
  inferInstanceAs (Decidable (∀ c ∈ m.configurations, ∀ library ∈ c.resolved,
    ∀ c' ∈ m.configurations, ∀ other ∈ c'.resolved,
      library.coordinate.render = other.coordinate.render → library.coordinate = other.coordinate))

theorem BuildModule.HasPlainLibraries.tellsLibrariesApart {m : BuildModule}
    (h : m.HasPlainLibraries) : m.TellsLibrariesApart :=
  fun c hc library hlibrary c' hc' other hother =>
    Coordinate.eq_of_render (h c hc library hlibrary) (h c' hc' other hother)

theorem mem_of_matchResolved {id : String} {direct : List ResolvedLibrary} {declared : Coordinate}
    {found : ResolvedLibrary} (h : matchResolved id direct declared = .ok found) :
    found ∈ direct := by
  rw [matchResolved] at h
  split at h
  next exact hexact =>
    cases h
    exact List.mem_of_find?_eq_some hexact
  next =>
    split at h
    next candidate hcandidate =>
      cases h
      exact List.mem_of_mem_filter (hcandidate ▸ List.mem_singleton_self found)
    next => cases h

/-- A library that is in the list already adds no coordinate to it. -/
theorem map_coordinate_addLibrary (libraries : List DeclaredLibrary) (new : DeclaredLibrary) :
    (addLibrary libraries new).map (·.resolved.coordinate) =
      if new.resolved.coordinate ∈ libraries.map (·.resolved.coordinate) then
        libraries.map (·.resolved.coordinate)
      else libraries.map (·.resolved.coordinate) ++ [new.resolved.coordinate] := by
  have hany : libraries.any (·.resolved.coordinate = new.resolved.coordinate) = true ↔
      new.resolved.coordinate ∈ libraries.map (·.resolved.coordinate) := by
    simp
  rw [addLibrary]
  split_ifs with h h' h'
  · rw [List.map_map]
    refine List.map_congr_left fun library _ => ?_
    simp only [Function.comp_apply]
    split_ifs <;> rfl
  · exact absurd (hany.1 h) h'
  · exact absurd (hany.2 h') h
  · rw [List.map_append, List.map_singleton]

theorem nodup_addLibrary {libraries : List DeclaredLibrary}
    (h : (libraries.map (·.resolved.coordinate)).Nodup) (new : DeclaredLibrary) :
    ((addLibrary libraries new).map (·.resolved.coordinate)).Nodup := by
  rw [map_coordinate_addLibrary]
  split_ifs with hnew
  · exact h
  · exact List.nodup_append.2 ⟨h, List.nodup_singleton _, by
      rintro a ha b hb rfl
      exact hnew (List.mem_singleton.1 hb ▸ ha)⟩

theorem nodup_foldl_addLibrary {libraries : List DeclaredLibrary}
    (h : (libraries.map (·.resolved.coordinate)).Nodup) (more : List DeclaredLibrary) :
    ((more.foldl addLibrary libraries).map (·.resolved.coordinate)).Nodup := by
  induction more generalizing libraries with
  | nil => exact h
  | cons new more ih => exact ih (nodup_addLibrary h new)

/-- Only coordinates of added libraries are in the list. -/
theorem mem_foldl_addLibrary {c : Coordinate} {libraries : List DeclaredLibrary}
    (more : List DeclaredLibrary)
    (h : c ∈ (more.foldl addLibrary libraries).map (·.resolved.coordinate)) :
    c ∈ libraries.map (·.resolved.coordinate) ∨ c ∈ more.map (·.resolved.coordinate) := by
  induction more generalizing libraries with
  | nil => exact Or.inl h
  | cons new more ih =>
    rw [List.map_cons, List.mem_cons]
    rcases ih h with h | h
    · rw [map_coordinate_addLibrary] at h
      split_ifs at h with hnew
      · exact Or.inl h
      · rcases List.mem_append.1 h with h | h
        · exact Or.inl h
        · exact Or.inr (Or.inl (List.mem_singleton.1 h))
    · exact Or.inr (Or.inr h)

namespace BuildModule

variable {m : BuildModule}

theorem mem_of_selections {c : Configuration} {selected : List DeclaredLibrary}
    (h : m.selections c = .ok selected) {library : DeclaredLibrary} (hl : library ∈ selected) :
    library.resolved ∈ c.resolved := by
  rw [selections] at h
  obtain ⟨declared, -, hmatch⟩ := mem_of_mapM_ok h hl
  obtain ⟨found, hfound, rfl⟩ := map_eq_ok hmatch
  exact List.mem_of_mem_filter (mem_of_matchResolved hfound)

/-- No two libraries of a module have the same coordinate, and each one was resolved in one of its
configurations. -/
theorem resolvedLibraries_coordinates {libraries : List DeclaredLibrary}
    (h : m.resolvedLibraries = .ok libraries) :
    (libraries.map (·.resolved.coordinate)).Nodup ∧
      ∀ library ∈ libraries, ∃ c ∈ m.configurations, ∃ r ∈ c.resolved,
        r.coordinate = library.resolved.coordinate := by
  obtain ⟨selected, hs, h⟩ := bind_eq_ok h
  cases h
  refine ⟨@nodup_foldl_addLibrary [] List.nodup_nil _, fun library hl => ?_⟩
  rcases mem_foldl_addLibrary _ (List.mem_map_of_mem hl) with hc | hc
  · cases hc
  · obtain ⟨other, hother, hcoordinate⟩ := List.mem_map.1 hc
    obtain ⟨list, hlist, hmem⟩ := List.mem_flatten.1 hother
    obtain ⟨c, hc, hsel⟩ := mem_of_mapM_ok hs hlist
    exact ⟨c, List.mem_of_mem_filter hc, _, mem_of_selections hsel hmem, hcoordinate⟩

/-- The libraries of such a module differ in their texts. -/
theorem nodup_fullName (hapart : m.TellsLibrariesApart) {settings : ModuleSettings}
    {libraries : List DeclaredLibrary} (h : m.checkedLibraries settings = .ok libraries) :
    (libraries.map (·.fullName)).Nodup := by
  obtain ⟨all, hr, rfl⟩ := map_eq_ok h
  obtain ⟨hnodup, hresolved⟩ := resolvedLibraries_coordinates hr
  have htexts : ((all.map (·.resolved.coordinate)).map Coordinate.render).Nodup := by
    refine hnodup.map_on fun a ha b hb hrender => ?_
    obtain ⟨library, hlibrary, rfl⟩ := List.mem_map.1 ha
    obtain ⟨other, hother, rfl⟩ := List.mem_map.1 hb
    obtain ⟨c, hc, r, hr, heq⟩ := hresolved library hlibrary
    obtain ⟨c', hc', r', hr', heq'⟩ := hresolved other hother
    rw [← heq, ← heq'] at hrender ⊢
    exact hapart c hc r hr c' hc' r' hr' hrender
  rw [List.map_map] at htexts
  exact htexts.sublist (List.filter_sublist.map _)

end BuildModule

/-! ## Classes of their own -/

/-- The first of the libraries that has the text of the given one. -/
def DeclaredLibrary.namesake (libraries : List DeclaredLibrary) (library : DeclaredLibrary) :
    DeclaredLibrary :=
  (libraries.find? (·.fullName = library.fullName)).getD library

section Namesake

variable {libraries : List DeclaredLibrary} {library : DeclaredLibrary} (hl : library ∈ libraries)
include hl

theorem find?_fullName : libraries.find? (·.fullName = library.fullName) =
    some (library.namesake libraries) := by
  cases hfind : libraries.find? (·.fullName = library.fullName) with
  | none => exact absurd (List.find?_eq_none.1 hfind library hl) (by simp)
  | some first => rw [DeclaredLibrary.namesake, hfind, Option.getD_some]

theorem namesake_mem : library.namesake libraries ∈ libraries :=
  List.mem_of_find?_eq_some (find?_fullName hl)

theorem firstNamed_namesake :
    firstNamed (libraries.map (·.resolved)) library.fullName =
      some (library.namesake libraries).resolved := by
  rw [firstNamed, List.find?_map]
  exact congrArg (Option.map _) (find?_fullName hl)

/-- Among libraries that differ in their texts, each one is the first of its text. -/
theorem namesake_eq_self (h : (libraries.map (·.fullName)).Nodup) :
    library.namesake libraries = library := by
  have hname : (library.namesake libraries).fullName = library.fullName := by
    simpa using List.find?_some (find?_fullName hl)
  exact List.inj_on_of_nodup_map h (namesake_mem hl) hl hname

theorem firstNamed_fullName (h : (libraries.map (·.fullName)).Nodup) :
    firstNamed (libraries.map (·.resolved)) library.fullName = some library.resolved := by
  rw [firstNamed_namesake hl, namesake_eq_self hl h]

end Namesake

/-- A session that knows no library gives each library of a module the classes of its namesake. -/
theorem Project.contentsAfter_nil {project : Project} {m : BuildModule}
    {libraries : List DeclaredLibrary} (hl : project.librariesOf m = .ok libraries) :
    project.contentsAfter [] m = (libraries.mapM fun library => do
      let classes ← (library.namesake libraries).resolved.classes project.files
      pure ⟨library.fullName, library.declared, classes⟩) := by
  rw [contentsAfter, hl]
  refine mapM_congr_left fun library hmem => ?_
  have hfirst : firstNamed (libraries.map (·.resolved)) library.resolved.coordinate.render =
      some (library.namesake libraries).resolved := firstNamed_namesake hmem
  rw [classesAmong, List.nil_append, hfirst, Option.getD_some]

/-- Libraries of one module that differ in their texts do not get in each other's way: what a session
gives for one of them depends on the libraries that were known before the module, and on the library
itself. -/
theorem Project.contentsAfter_eq {project : Project} {m : BuildModule}
    {libraries : List DeclaredLibrary} (hl : project.librariesOf m = .ok libraries)
    (hnodup : (libraries.map (·.fullName)).Nodup) (known : List ResolvedLibrary) :
    project.contentsAfter known m = project.contentsAmong known libraries := by
  rw [contentsAfter, hl]
  refine mapM_congr_left fun library hmem => ?_
  have hfirst : firstNamed (libraries.map (·.resolved)) library.resolved.coordinate.render =
      some library.resolved := firstNamed_fullName hmem hnodup
  rw [classesAmong, classesAmong, firstNamed_append, hfirst]
  cases firstNamed known library.resolved.coordinate.render <;> rfl

end DependencyLint
