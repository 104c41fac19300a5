import DependencyLint.Proofs.LibraryContents
import Mathlib.Data.List.Induction

/-!
# Histories of a session

The requests that a session can be asked, in any order and any number, some of which fail.

**Theorem (`answer_after_history`).** As long as no request to build the index has succeeded, every
other request fails because there is no index. Once one has succeeded, every request except the one
for the contents of libraries is answered as it would be right after the index was built: what the
session has been asked in between makes no difference.

The proof goes along the history. A session is unbuilt until the index is built and ready from then on
(`after_unbuilt_or_ready`). In an unbuilt session all tables but that of source files are empty, so the
two requests that look into their table before they look for the index find nothing there. In a ready
session every answer is the direct one.
-/

namespace DependencyLint

open Query Session

/-! ## Requests -/

/-- A request to a session, with the type of its answer. -/
inductive Request : Type → Type where
  | buildIndex : Request Unit
  | moduleDependencies (id : String) : Request (List ModuleEdge)
  | modulePackages (id : String) : Request (List String)
  | dependencyModules (m : BuildModule) : Request (List BuildModule)
  | findSupplier (start : String) (imports : List String) : Request (Option String)
  | sourceFiles (m : BuildModule) : Request (List SourceFile)
  | sourceImports (m : BuildModule) : Request (List String)
  | summary (m : BuildModule) : Request ModuleSummary
  | libraries (m : BuildModule) : Request (List DeclaredLibrary)
  | libraryContents (m : BuildModule) : Request (List LibraryContent)

namespace Request

variable {α : Type}

def query : Request α → Query α
  | buildIndex => Query.buildIndex
  | moduleDependencies id => Query.moduleDependencies id
  | modulePackages id => Query.modulePackages id
  | dependencyModules m => Query.dependencyModules m
  | findSupplier start imports => Query.findSupplier start imports
  | sourceFiles m => Query.sourceFiles m
  | sourceImports m => Query.sourceImports m
  | summary m => Query.summary m
  | libraries m => Query.libraries m
  | libraryContents m => Query.libraryContents m

/-- The module that a request is about, unless it goes by an id. -/
def subject? : Request α → Option BuildModule
  | dependencyModules m | sourceFiles m | sourceImports m | summary m | libraries m
  | libraryContents m => some m
  | _ => none

/-- A request about a module of the project. -/
def IsWithin (project : Project) (r : Request α) : Prop := ∀ m ∈ r.subject?, m ∈ project.modules

instance (project : Project) (r : Request α) : Decidable (r.IsWithin project) :=
  inferInstanceAs (Decidable (∀ m ∈ r.subject?, m ∈ project.modules))

def isBuildIndex : Request α → Bool
  | buildIndex => true
  | _ => false

def isLibraryContents : Request α → Bool
  | libraryContents _ => true
  | _ => false

end Request

/-- The session after a history of requests. -/
def Session.after (project : Project) (s : Session) (history : List (Sigma Request)) : Session :=
  history.foldl (fun s r => (r.2.query.answer project s).2) s

/-- Somewhere in the history, a request to build the index has succeeded. -/
def IndexBuilt (project : Project) (history : List (Sigma Request)) : Prop :=
  ∃ earlier later, history = earlier ++ ⟨Unit, .buildIndex⟩ :: later ∧
    (Query.buildIndex.answer project (Session.after project {} earlier)).1 = .ok ()

/-- The session right after its index was built. -/
def Project.freshSession (project : Project) : Session := (Query.buildIndex.answer project {}).2

/-! ## One request -/

variable {project : Project} {α : Type}

/-- In an unbuilt session, no request but the one to build the index gets past the index. -/
theorem Request.answer_unbuilt (r : Request α) (hr : r.isBuildIndex = false) {s : Session}
    (hs : Unbuilt project s) : r.query.answer project s = (.error .uninitialized, s) := by
  obtain ⟨exclude, index, sources, imports, libraries, contents, classes⟩ := s
  obtain ⟨rfl, -, rfl, rfl, rfl, rfl⟩ := hs
  cases r with
  | buildIndex => cases hr
  | _ => rfl

theorem keeps_libraryContents (hid : project.DistinctIds) {m : BuildModule}
    (hm : m ∈ project.modules) :
    Keeps project (Ready project fun _ _ => True) (libraryContents m) := by
  have hclasses : ∀ library, Ensures project (Ready project fun _ _ => True)
      (libraryClasses library) fun _ => True := fun _ =>
    ensures_libraryClasses (fun _ _ _ _ => trivial) fun _ hs _ _ => ⟨{ hs with }, trivial⟩
  refine (ensures_libraryContents_of (P := fun _ => True) hid hm (fun _ _ _ _ _ => trivial)
    (fun _ _ _ _ _ => trivial) fun libraries _ => ?_).keeps
  refine Ensures.mono (Ensures.mapM fun library _ => ensures_contentOf (hclasses library.resolved)) ?_
  exact fun _ _ => trivial

/-- The answer to a request without a session. The contents of libraries have none. -/
def Request.direct (project : Project) : Request α → Option (Except Failure α)
  | .buildIndex => some (.ok ())
  | .moduleDependencies id => some (.ok (project.moduleIndex.dependencies id))
  | .modulePackages id => some (.ok (project.moduleIndex.packagesFor id))
  | .dependencyModules m => some (.ok (project.dependencyModules m))
  | .findSupplier start imports => some (.ok (project.moduleIndex.findSupplier imports start))
  | .sourceFiles m => some (.ok (project.sourceFiles m))
  | .sourceImports m => some (.ok (project.sourceImports m))
  | .summary m => some (.ok (project.summary m))
  | .libraries m => some (project.librariesOf m)
  | .libraryContents _ => none

theorem Request.answers_direct (hid : project.DistinctIds) {r : Request α} (hr : r.IsWithin project)
    {result : Except Failure α} (h : r.direct project = some result) :
    Answers project (Ready project fun _ _ => True) r.query result
      (Ready project fun _ _ => True) := by
  cases r <;> cases h
  case buildIndex => exact answers_buildIndex_again
  case moduleDependencies id => exact answers_moduleDependencies id
  case modulePackages id => exact answers_modulePackages id
  case dependencyModules m => exact answers_dependencyModules m
  case findSupplier start imports => exact answers_findSupplier start imports
  case sourceFiles m => exact answers_sourceFiles hid (hr m rfl)
  case sourceImports m => exact answers_sourceImports hid (hr m rfl)
  case summary m => exact answers_summary hid (hr m rfl)
  case libraries m => exact answers_libraries hid (hr m rfl)

/-- What asking for contents keeps is kept by every request. -/
theorem Request.keeps_of_contents
    {K : List (String × List LibraryContent) → List (String × List String) → Prop}
    (hid : project.DistinctIds)
    (hcontents : ∀ m ∈ project.modules, Keeps project (Ready project K) (Query.libraryContents m))
    {r : Request α} (hr : r.IsWithin project) : Keeps project (Ready project K) r.query := by
  cases r with
  | buildIndex => exact answers_buildIndex_again.keeps
  | moduleDependencies id => exact (answers_moduleDependencies id).keeps
  | modulePackages id => exact (answers_modulePackages id).keeps
  | dependencyModules m => exact (answers_dependencyModules m).keeps
  | findSupplier start imports => exact (answers_findSupplier start imports).keeps
  | sourceFiles m => exact (answers_sourceFiles hid (hr m rfl)).keeps
  | sourceImports m => exact (answers_sourceImports hid (hr m rfl)).keeps
  | summary m => exact (answers_summary hid (hr m rfl)).keeps
  | libraries m => exact (answers_libraries hid (hr m rfl)).keeps
  | libraryContents m => exact hcontents m (hr m rfl)

/-- Every request leaves a ready session ready. -/
theorem Request.keeps_ready (hid : project.DistinctIds) {r : Request α} (hr : r.IsWithin project) :
    Keeps project (Ready project fun _ _ => True) r.query :=
  Request.keeps_of_contents hid (fun _ hm => keeps_libraryContents hid hm) hr

/-! ## All requests -/

theorem after_append (s : Session) (history : List (Sigma Request)) (r : Sigma Request) :
    s.after project (history ++ [r]) = (r.2.query.answer project (s.after project history)).2 := by
  simp [Session.after]

theorem IndexBuilt.append {history : List (Sigma Request)} (h : IndexBuilt project history)
    (r : Sigma Request) : IndexBuilt project (history ++ [r]) := by
  obtain ⟨earlier, later, rfl, hok⟩ := h
  exact ⟨earlier, later ++ [r], by simp, hok⟩

theorem IndexBuilt.of_append {history : List (Sigma Request)} {r : Sigma Request}
    (h : IndexBuilt project (history ++ [r])) :
    IndexBuilt project history ∨ r = ⟨Unit, .buildIndex⟩ ∧
      (Query.buildIndex.answer project (Session.after project {} history)).1 = .ok () := by
  obtain ⟨earlier, later, heq, hok⟩ := h
  rcases List.eq_nil_or_concat later with rfl | ⟨later, last, rfl⟩
  · obtain ⟨rfl, hr⟩ := List.append_inj' heq rfl
    exact Or.inr ⟨by simpa using hr, hok⟩
  · rw [List.concat_eq_append, ← List.cons_append, ← List.append_assoc] at heq
    exact Or.inl ⟨earlier, later, (List.append_inj' heq rfl).1, hok⟩

/-- The last request of a history, made in an unbuilt session. -/
theorem unbuilt_or_ready_of_unbuilt (hid : project.DistinctIds) {s : Session}
    (hs : Unbuilt project s) (r : Sigma Request) :
    Unbuilt project (r.2.query.answer project s).2 ∧
        ¬(r = ⟨Unit, .buildIndex⟩ ∧ (Query.buildIndex.answer project s).1 = .ok ()) ∨
      (r = ⟨Unit, .buildIndex⟩ ∧ (Query.buildIndex.answer project s).1 = .ok ()) ∧
        ∀ K : List (String × List LibraryContent) → List (String × List String) → Prop, K [] [] →
          Ready project K (r.2.query.answer project s).2 := by
  obtain ⟨α, r⟩ := r
  cases hr : r.isBuildIndex with
  | false =>
    left
    refine ⟨by rwa [r.answer_unbuilt hr hs], ?_⟩
    rintro ⟨heq, -⟩
    cases heq
    cases hr
  | true =>
    cases r <;> cases hr
    by_cases h : project.IsIndexable
    · refine Or.inr ⟨⟨rfl, (buildIndex_ok_iff_of_unbuilt hid hs).2 h⟩, fun K hK => ?_⟩
      exact (answers_buildIndex hid hK h s hs).2
    · obtain ⟨e, herror⟩ := answers_buildIndex_error hid h
      refine Or.inl ⟨(herror s hs).2, fun hok => ?_⟩
      exact h ((buildIndex_ok_iff_of_unbuilt hid hs).1 hok.2)

/-- **A session is unbuilt until its index is built, and ready from then on.** -/
theorem after_unbuilt_or_ready (hid : project.DistinctIds) (history : List (Sigma Request))
    (hh : ∀ r ∈ history, r.2.IsWithin project) :
    ¬IndexBuilt project history ∧ Unbuilt project (Session.after project {} history) ∨
      IndexBuilt project history ∧
        Ready project (fun _ _ => True) (Session.after project {} history) := by
  induction history using List.reverseRecOn with
  | nil =>
    refine Or.inl ⟨?_, unbuilt_empty project⟩
    rintro ⟨earlier, later, h, -⟩
    simp at h
  | append_singleton history r ih =>
    rw [after_append]
    rcases ih fun r hr => hh r (by simp [hr]) with ⟨hnot, hunbuilt⟩ | ⟨hbuilt, hready⟩
    · rcases unbuilt_or_ready_of_unbuilt hid hunbuilt r with ⟨hs, hr⟩ | ⟨hr, hs⟩
      · refine Or.inl ⟨fun h => ?_, hs⟩
        rcases h.of_append with h | h
        · exact hnot h
        · exact hr h
      · exact Or.inr ⟨⟨history, [], by rw [hr.1], hr.2⟩, hs _ trivial⟩
    · exact Or.inr ⟨hbuilt.append r, Request.keeps_ready hid (hh r (by simp)) _ hready⟩

theorem buildIndex_ok_iff (hid : project.DistinctIds) :
    (Query.buildIndex.answer project {}).1 = .ok () ↔ project.IsIndexable :=
  buildIndex_ok_iff_of_unbuilt hid (unbuilt_empty project)

/-- Once the index has been built, the session is ready. -/
theorem IndexBuilt.ready (hid : project.DistinctIds) {history : List (Sigma Request)}
    (hh : ∀ r ∈ history, r.2.IsWithin project) (hbuilt : IndexBuilt project history) :
    (Query.buildIndex.answer project {}).1 = .ok () ∧
      Ready project (fun _ _ => True) (Session.after project {} history) := by
  rcases after_unbuilt_or_ready hid history hh with ⟨hnot, -⟩ | ⟨-, hready⟩
  · exact absurd hbuilt hnot
  · exact ⟨(buildIndex_ok_iff hid).2 hready.indexable, hready⟩

theorem ready_freshSession
    {K : List (String × List LibraryContent) → List (String × List String) → Prop}
    (hid : project.DistinctIds) (hK : K [] [])
    (hok : (Query.buildIndex.answer project {}).1 = .ok ()) :
    Ready project K project.freshSession :=
  (answers_buildIndex hid hK ((buildIndex_ok_iff hid).1 hok) {} (unbuilt_empty project)).2

theorem unbuilt_freshSession (hid : project.DistinctIds) (h : ¬project.IsIndexable) :
    Unbuilt project project.freshSession := by
  obtain ⟨e, herror⟩ := answers_buildIndex_error hid h
  exact (herror {} (unbuilt_empty project)).2

/-- **What holds of empty tables of library contents, and is kept by asking for contents, holds along
every history.** -/
theorem kept_after {K : List (String × List LibraryContent) → List (String × List String) → Prop}
    (hid : project.DistinctIds) (hK : K [] [])
    (hcontents : ∀ m ∈ project.modules, Keeps project (Ready project K) (libraryContents m))
    (history : List (Sigma Request)) (hh : ∀ r ∈ history, r.2.IsWithin project) :
    K (Session.after project {} history).contents (Session.after project {} history).classes := by
  induction history using List.reverseRecOn with
  | nil => exact hK
  | append_singleton history r ih =>
    have hearlier : ∀ r ∈ history, r.2.IsWithin project := fun r hr => hh r (by simp [hr])
    rw [after_append]
    rcases after_unbuilt_or_ready hid history hearlier with ⟨-, hunbuilt⟩ | ⟨-, hready⟩
    · rcases unbuilt_or_ready_of_unbuilt hid hunbuilt r with ⟨hs, -⟩ | ⟨-, hs⟩
      · rwa [hs.contents, hs.classes]
      · exact (hs K hK).kept
    · exact (Request.keeps_of_contents hid hcontents (hh r (by simp)) _
        { hready with kept := ih hearlier }).kept

/-! ## A project with a cycle -/

/-- The directory of a module with one source file. -/
def FileTree.ofSource (text : String) : FileTree :=
  .dir [("src", .dir [("A.kt", .file text.toUTF8)])]

namespace CyclicBuild

/-- A module that declares other modules for its product, and a library whose file is missing. -/
def module (id : String) (dependencies : List String) : BuildModule where
  id := id
  name := id
  directory := ⟨id⟩
  configurations := [{
    name := "api"
    canBeResolved := true
    dependencies := .onLibrary ⟨"org", "lib", "1"⟩ :: dependencies.map .onModule
    resolved := [⟨⟨"org", "lib", "1"⟩, [":" ++ id ++ ":"], [⟨"lib.jar"⟩]⟩] }]

def app : BuildModule := module "app" ["ui", "app", "gone"]

/-- The modules `ui` and `core` depend on each other, and `app` imports from `core` alone. -/
def sample : Project where
  files := .ofEntries [("app", .ofSource "import core.Base"), ("ui", .ofSource "package ui"),
    ("core", .ofSource "package core")]
  manifest := ⟨[app, module "ui" ["core"], module "core" ["ui"]]⟩
  settings := {}

/-- The same project with a pattern that is no glob. -/
def badSample : Project := { sample with settings := { exclude := ["***"] } }

/-- A request that fails for want of the index, one that builds it, and one that fails for want of
a file. -/
def history : List (Sigma Request) :=
  [⟨_, .summary app⟩, ⟨_, .buildIndex⟩, ⟨_, .libraryContents app⟩]

theorem indexBuilt_history : IndexBuilt sample history :=
  ⟨[⟨_, .summary app⟩], [⟨_, .libraryContents app⟩], rfl, eq_ok_of_toOption (by decide +kernel)⟩

theorem not_indexBuilt_badSample : ¬IndexBuilt badSample [⟨_, .buildIndex⟩] := by
  rintro ⟨earlier, later, heq, hok⟩
  cases earlier with
  | nil => exact absurd (congrArg Except.toOption hok) (by decide +kernel)
  | cons r earlier => simp at heq

end CyclicBuild

/-! ## The theorem -/

/-- **What a session was asked before does not matter.** Before the index has been built, every
other request fails for want of it, also one whose table is looked at first. After that, every
request but the one for library contents has the answer that it has right after the index was
built, be it a success or a failure. -/
theorem answer_after_history (hid : project.DistinctIds) {history : List (Sigma Request)}
    (hh : ∀ r ∈ history, r.2.IsWithin project) (r : Request α) (hr : r.IsWithin project) :
    (¬IndexBuilt project history → r.isBuildIndex = false →
      (r.query.answer project (Session.after project {} history)).1 = .error .uninitialized) ∧
    (IndexBuilt project history →
      (Query.buildIndex.answer project {}).1 = .ok () ∧
        (r.isLibraryContents = false →
          (r.query.answer project (Session.after project {} history)).1 =
            (r.query.answer project project.freshSession).1)) := by
  rcases after_unbuilt_or_ready hid history hh with ⟨hnot, hunbuilt⟩ | ⟨hbuilt, hready⟩
  · refine ⟨fun _ hb => ?_, fun h => absurd h hnot⟩
    rw [r.answer_unbuilt hb hunbuilt]
  · have hok := (buildIndex_ok_iff hid).2 hready.indexable
    refine ⟨fun h => absurd hbuilt h, fun _ => ⟨hok, fun hc => ?_⟩⟩
    have hfresh := ready_freshSession (K := fun _ _ => True) hid trivial hok
    obtain ⟨result, hdirect⟩ : ∃ result, r.direct project = some result := by
      cases r <;> first | exact ⟨_, rfl⟩ | cases hc
    have h := r.answers_direct hid hr hdirect
    rw [(h _ hready).1, (h _ hfresh).1]

open CyclicBuild in
theorem answer_after_failed_requests :
    IndexBuilt sample history ∧
      ((Request.sourceImports app).query.answer sample (Session.after sample {} history)).1 =
        ((Request.sourceImports app).query.answer sample sample.freshSession).1 ∧
      ¬IndexBuilt badSample [⟨_, .buildIndex⟩] ∧
      ((Request.sourceImports app).query.answer badSample
        (Session.after badSample {} [⟨_, .buildIndex⟩])).1 = .error .uninitialized :=
  ⟨indexBuilt_history,
    ((answer_after_history (by decide) (by decide) _ (by decide)).2 indexBuilt_history).2 rfl,
    not_indexBuilt_badSample,
    (answer_after_history (by decide) (by decide) _ (by decide)).1 not_indexBuilt_badSample rfl⟩

end DependencyLint
