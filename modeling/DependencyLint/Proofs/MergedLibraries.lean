import DependencyLint.Proofs.History
import DependencyLint.Proofs.Matching

/-!
# How libraries are merged

Several declarations of a module can pick one library: in two configurations, or in two versions that
the build resolved to the same one. The module then has this library once.

**Merged libraries** (`IsMerged`). A library in the list is the first selection of its coordinate, and
the files of the later selections follow its own, except for those that are there already.

**Theorem (`libraries_merged_in_order`).** Whatever a session has been asked before, its answer for a
module has each selected coordinate once, in the order in which they were first selected and without
the ignored ones, and every library in it is merged from the selections of its coordinate.

Selections are put into the list one after the other. The invariant of this is `Merges`, and one
more selection keeps it (`Merges.add`).
-/

namespace DependencyLint

open Query

/-! ## Files -/

/-- The paths in `more` that are not in `known`, each in its first spelling. -/
def newPaths (known more : List Path) : List Path :=
  (more.filter fun path => !known.any path.same).eraseDupsBy Path.same

theorem newPaths_cons_of_known {known : List Path} {path : Path} (h : known.any path.same = true)
    (more : List Path) : newPaths known (path :: more) = newPaths known more := by
  rw [newPaths, List.filter_cons_of_neg (by simp [h]), newPaths]

theorem newPaths_cons_of_new {known : List Path} {path : Path} (h : known.any path.same = false)
    (more : List Path) :
    newPaths known (path :: more) = path :: newPaths (known ++ [path]) more := by
  rw [newPaths, List.filter_cons_of_pos (by simp [h]), List.eraseDupsBy_cons, newPaths,
    List.filter_filter]
  congr 2
  apply List.filter_congr
  intro other _
  rw [List.any_append, List.any_cons, List.any_nil, Bool.or_false, Bool.not_or, Bool.and_comm]
  cases other.same path <;> rfl

theorem addArtifacts_eq (known more : List Path) :
    addArtifacts known more = known ++ newPaths known more := by
  unfold addArtifacts
  induction more generalizing known with
  | nil => exact (List.append_nil known).symm
  | cons path more ih =>
    rw [List.foldl_cons]
    cases h : known.any path.same with
    | true => rw [if_pos rfl, ih, newPaths_cons_of_known h]
    | false => rw [if_neg Bool.false_ne_true, ih, newPaths_cons_of_new h, List.append_assoc]; rfl

theorem addArtifacts_append (known more others : List Path) :
    addArtifacts (addArtifacts known more) others = addArtifacts known (more ++ others) :=
  List.foldl_append.symm

/-! ## One coordinate -/

namespace DeclaredLibrary

variable {library new : DeclaredLibrary}

theorem declared_absorb : (library.absorb new).declared = library.declared := by
  unfold absorb
  split_ifs <;> rfl

theorem requestedBy_absorb :
    (library.absorb new).resolved.requestedBy = library.resolved.requestedBy := by
  unfold absorb
  split_ifs <;> rfl

theorem absorb_of_ne (h : library.resolved.coordinate ≠ new.resolved.coordinate) :
    library.absorb new = library := by
  rw [absorb, if_neg h]

end DeclaredLibrary

/-- The library is the first selection of its coordinate, with the files of all later ones added. -/
def IsMerged (selected : List DeclaredLibrary) (library : DeclaredLibrary) : Prop :=
  ∃ earlier first later, selected = earlier ++ first :: later ∧
    (∀ s ∈ earlier, s.resolved.coordinate ≠ library.resolved.coordinate) ∧
    first.resolved.coordinate = library.resolved.coordinate ∧
    library.declared = first.declared ∧
    library.resolved.requestedBy = first.resolved.requestedBy ∧
    library.resolved.artifacts = first.resolved.artifacts ++ newPaths first.resolved.artifacts
      ((later.filter (·.resolved.coordinate = library.resolved.coordinate)).flatMap
        (·.resolved.artifacts))

section Merged

variable {selected libraries : List DeclaredLibrary} {library new : DeclaredLibrary}

/-- The first selection of a coordinate. -/
theorem isMerged_of_first
    (h : ∀ s ∈ selected, s.resolved.coordinate ≠ new.resolved.coordinate) :
    IsMerged (selected ++ [new]) new :=
  ⟨selected, new, [], rfl, h, rfl, rfl, rfl, (List.append_nil _).symm⟩

/-- One more selection, of this coordinate or of another one. -/
theorem IsMerged.absorb (h : IsMerged selected library) (new : DeclaredLibrary) :
    IsMerged (selected ++ [new]) (library.absorb new) := by
  obtain ⟨earlier, first, later, rfl, hearlier, hfirst, hdeclared, hrequested, hartifacts⟩ := h
  refine ⟨earlier, first, later ++ [new], by simp, ?_, ?_, ?_, ?_, ?_⟩
  · rwa [DeclaredLibrary.coordinate_absorb]
  · rwa [DeclaredLibrary.coordinate_absorb]
  · rw [DeclaredLibrary.declared_absorb, hdeclared]
  · rw [DeclaredLibrary.requestedBy_absorb, hrequested]
  · rw [DeclaredLibrary.coordinate_absorb, List.filter_append, List.flatMap_append]
    by_cases hc : library.resolved.coordinate = new.resolved.coordinate
    · rw [DeclaredLibrary.artifacts_absorb hc, hartifacts, ← addArtifacts_eq, addArtifacts_append,
        addArtifacts_eq, List.filter_cons_of_pos (by simp [hc]), List.filter_nil]
      simp
    · rw [DeclaredLibrary.artifacts_absorb_of_ne hc, hartifacts,
        List.filter_cons_of_neg (by simpa using Ne.symm hc), List.filter_nil]
      simp

/-! ## The whole list -/

/-- The list has the selected coordinates in the order of their first selections, and its libraries
are merged from the selections. -/
structure Merges (selected libraries : List DeclaredLibrary) : Prop where
  coordinates : libraries.map (·.resolved.coordinate) =
    (selected.map (·.resolved.coordinate)).eraseDups
  merged : ∀ library ∈ libraries, IsMerged selected library

theorem eraseDups_append_singleton {α : Type} [DecidableEq α] (l : List α) (a : α) :
    (l ++ [a]).eraseDups = if a ∈ l then l.eraseDups else l.eraseDups ++ [a] := by
  rw [List.eraseDups_append, List.cons_removeAll, List.nil_removeAll]
  by_cases h : a ∈ l
  · simp [h]
  · simp [h, List.eraseDups_cons]

/-- **One more selection.** -/
theorem Merges.add (h : Merges selected libraries) (new : DeclaredLibrary) :
    Merges (selected ++ [new]) (addLibrary libraries new) := by
  have hmem : new.resolved.coordinate ∈ libraries.map (·.resolved.coordinate) ↔
      new.resolved.coordinate ∈ selected.map (·.resolved.coordinate) := by
    rw [h.coordinates, List.mem_eraseDups]
  constructor
  · rw [map_coordinate_addLibrary, List.map_append, List.map_singleton, eraseDups_append_singleton,
      ← h.coordinates]
    simp only [hmem]
  · intro library hl
    rw [addLibrary_eq] at hl
    split_ifs at hl with hany
    · obtain ⟨old, hold, rfl⟩ := List.mem_map.1 hl
      exact (h.merged old hold).absorb new
    · -- The coordinate is new, so no library of the list takes anything from the selection.
      have hnew : new.resolved.coordinate ∉ libraries.map (·.resolved.coordinate) := by
        simpa using hany
      rcases List.mem_append.1 hl with hl | hl
      · have hne : library.resolved.coordinate ≠ new.resolved.coordinate :=
          fun heq => hnew (heq ▸ List.mem_map_of_mem hl)
        rw [← DeclaredLibrary.absorb_of_ne hne]
        exact (h.merged library hl).absorb new
      · rw [List.mem_singleton.1 hl]
        refine isMerged_of_first fun s hs heq => hnew (hmem.2 ?_)
        exact heq ▸ List.mem_map_of_mem hs

/-- **The list of all selections.** -/
theorem merges_foldl (selected : List DeclaredLibrary) :
    Merges selected (selected.foldl addLibrary []) := by
  induction selected using List.reverseRecOn with
  | nil => exact ⟨rfl, fun _ h => absurd h List.not_mem_nil⟩
  | append_singleton selected new ih =>
    rw [List.foldl_append]
    exact ih.add new

/-- The files of a merged library are those of all its selections, up to their spelling. -/
theorem mem_files_iff (hl : library ∈ selected.foldl addLibrary []) (path : Path) :
    (∃ kept ∈ library.resolved.artifacts, path.same kept = true) ↔
      ∃ s ∈ selected, s.resolved.coordinate = library.resolved.coordinate ∧
        ∃ file ∈ s.resolved.artifacts, path.same file = true := by
  have hcollects : Collects (fun s => False ∨ s ∈ selected) (selected.foldl addLibrary []) :=
    Collects.nil.foldl selected
  have hnodup := @nodup_foldl_addLibrary [] List.nodup_nil selected
  constructor
  · rintro ⟨kept, hkept, hsame⟩
    obtain ⟨s, hs, hc, hfile⟩ := hcollects.files library hl kept hkept
    exact ⟨s, hs.resolve_left id, hc, kept, hfile, hsame⟩
  · rintro ⟨s, hs, hc, file, hfile, hsame⟩
    obtain ⟨other, hother, hoc, hfiles⟩ := hcollects.covers s (Or.inr hs)
    obtain rfl : other = library := List.inj_on_of_nodup_map hnodup hother hl (hoc.trans hc)
    obtain ⟨kept, hkept, hsame'⟩ := hfiles file hfile
    exact ⟨kept, hkept, Path.same_iff.2 ((Path.same_iff.1 hsame).trans (Path.same_iff.1 hsame'))⟩

end Merged

/-! ## One library in two configurations -/

namespace Overlapping

def configuration (name : String) (declared : List Coordinate) (resolved : List ResolvedLibrary) :
    Configuration where
  name := name
  canBeResolved := true
  dependencies := declared.map .onLibrary
  resolved := resolved

/-- Two declarations with different versions pick the same library. The file `b.jar` is listed by both
configurations, in two spellings, and `c.jar` twice by the second one. -/
def app : BuildModule where
  id := "app"
  name := "app"
  directory := ⟨"app"⟩
  configurations := [
    configuration "runtimeClasspath" [⟨"org", "lib", "1"⟩, ⟨"org", "old", "1"⟩]
      [⟨⟨"org", "lib", "2"⟩, [":app:"], [⟨"a.jar"⟩, ⟨"b.jar"⟩]⟩, ⟨⟨"org", "old", "1"⟩, [":app:"], []⟩],
    configuration "compileClasspath" [⟨"org", "new", "1"⟩, ⟨"org", "lib", "2"⟩]
      [⟨⟨"org", "lib", "2"⟩, [":app:"], [⟨"b.jar/"⟩, ⟨"c.jar"⟩, ⟨"c.jar"⟩]⟩,
        ⟨⟨"org", "new", "1"⟩, [":app:"], []⟩]]

def sample : Project where
  files := .empty
  manifest := ⟨[app]⟩
  settings := { ignored := ["org:old:1"] }

def history : List (Sigma Request) := [⟨_, .buildIndex⟩, ⟨_, .libraries app⟩]

def merged : List DeclaredLibrary :=
  [⟨⟨"org", "lib", "1"⟩, ⟨⟨"org", "lib", "2"⟩, [":app:"], [⟨"a.jar"⟩, ⟨"b.jar"⟩, ⟨"c.jar"⟩]⟩⟩,
    ⟨⟨"org", "new", "1"⟩, ⟨⟨"org", "new", "1"⟩, [":app:"], []⟩⟩]

theorem answer_sample :
    ((libraries app).answer sample (Session.after sample {} history)).1 = .ok merged :=
  eq_ok_of_toOption (by decide +kernel)

end Overlapping

/-! ## The theorem -/

/-- **Libraries are merged in the order of their first selections.** After any history of requests, a
successful answer names every coordinate that some declaration picks and that is not ignored, each
once and in the order of first selection. Each library is the one of the first declaration that picks
it, and its files are those of the first selection followed by the new ones of the later selections,
so that no file of a selection is missing and none comes from elsewhere. -/
theorem libraries_merged_in_order {project : Project} (hid : project.DistinctIds) {m : BuildModule}
    (hm : m ∈ project.modules) {history : List (Sigma Request)}
    (hh : ∀ r ∈ history, r.2.IsWithin project) {found : List DeclaredLibrary}
    (h : ((libraries m).answer project (Session.after project {} history)).1 = .ok found) :
    ∃ selected, List.Forall₂ m.Contributes m.declarations selected ∧
      (found.map (·.resolved.coordinate)).Nodup ∧
      found.map (·.resolved.coordinate) =
        (selected.map (·.resolved.coordinate)).eraseDups.filter
          (fun c => c.render ∉ (project.settingsFor m).ignored) ∧
      ∀ library ∈ found, IsMerged selected library ∧
        ∀ path : Path, (∃ kept ∈ library.resolved.artifacts, path.same kept = true) ↔
          ∃ s ∈ selected, s.resolved.coordinate = library.resolved.coordinate ∧
            ∃ file ∈ s.resolved.artifacts, path.same file = true := by
  have hdirect : project.librariesOf m = .ok found := by
    rcases after_unbuilt_or_ready hid history hh with ⟨-, hunbuilt⟩ | ⟨-, hready⟩
    · have hfails := congrArg Prod.fst ((Request.libraries m).answer_unbuilt rfl hunbuilt)
      cases h.symm.trans hfails
    · rw [← h, (answers_libraries hid hm _ hready).1]
  obtain ⟨all, hall, rfl⟩ := map_eq_ok hdirect
  obtain ⟨selected, hselected, rfl⟩ := BuildModule.resolvedLibraries_eq_ok_iff.1 hall
  have hmerges := merges_foldl selected
  have hnodup := @nodup_foldl_addLibrary [] List.nodup_nil selected
  refine ⟨selected, hselected, hnodup.sublist (List.filter_sublist.map _), ?_, fun library hl => ?_⟩
  · rw [← hmerges.coordinates, List.filter_map]
    congr 1
    apply List.filter_congr
    intro library _
    simp [ModuleSettings.isIgnored, DeclaredLibrary.fullName]
  · have hl := List.mem_of_mem_filter hl
    exact ⟨hmerges.merged library hl, mem_files_iff hl⟩

open Overlapping in
theorem overlapping_selections_merged :
    ((libraries app).answer sample (Session.after sample {} history)).1 = .ok merged ∧
      ∃ selected, List.Forall₂ app.Contributes app.declarations selected ∧
        merged.map (·.resolved.coordinate) =
          (selected.map (·.resolved.coordinate)).eraseDups.filter
            (fun c => c.render ∉ (sample.settingsFor app).ignored) ∧
        ∀ library ∈ merged, IsMerged selected library := by
  have hm : app ∈ sample.modules := by decide
  obtain ⟨selected, hselected, -, hcoordinates, hmerged⟩ :=
    libraries_merged_in_order (by decide) hm (by decide) answer_sample
  exact ⟨answer_sample, selected, hselected, hcoordinates, fun library hl => (hmerged library hl).1⟩

end DependencyLint
