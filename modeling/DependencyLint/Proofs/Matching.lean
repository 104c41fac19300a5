import DependencyLint.Proofs.Merging
import Mathlib.Data.List.Forall2

/-!
# Matching declared libraries

A module declares libraries configuration by configuration. What the build resolved for a
configuration may be of another version, or may be there only because another library asked for it.

**Declarations** (`BuildModule.declarations`). The declared libraries of all configurations that are
checked, in one list.

**Matches** (`BuildModule.Picks`, `BuildModule.IsAmbiguous`). Of the libraries that the module itself
asked for, a declaration picks the first one of the declared coordinate. If there is none it picks the
only one of another version, and without that it is ambiguous.

**Main results.** Looking up a declaration gives the library that it picks or, if it is ambiguous, the
list of its candidates (`BuildModule.lookUp_eq_ok_iff`, `BuildModule.lookUp_eq_error_iff`). The
libraries of a module can be told exactly if no declaration is ambiguous, and the first ambiguous one
is the failure (`BuildModule.resolvedLibraries_eq_error_iff`).
-/

namespace DependencyLint

/-! ## Lists of results -/

section Results

variable {α β γ ε : Type} {f : α → Except ε β}

/-- A list of results has the result of each item in its place. -/
theorem mapM_eq_ok_iff {l : List α} {found : List β} :
    l.mapM f = .ok found ↔ List.Forall₂ (fun a b => f a = .ok b) l found := by
  constructor
  · intro h
    induction l generalizing found with
    | nil =>
      cases h
      exact .nil
    | cons a l ih =>
      obtain ⟨b, bs, hb, hbs, rfl⟩ := mapM_cons_eq_ok h
      exact .cons hb (ih hbs)
  · intro h
    induction h with
    | nil => rfl
    | cons hb _ ih =>
      rw [List.mapM_cons, hb, ih]
      rfl

/-- The failure of a list of results is the one of the first item that fails. -/
theorem mapM_eq_error_iff {l : List α} {e : ε} :
    l.mapM f = .error e ↔
      ∃ earlier a later, l = earlier ++ a :: later ∧ (∀ x ∈ earlier, ∃ b, f x = .ok b) ∧
        f a = .error e := by
  constructor
  · intro h
    induction l with
    | nil => cases h
    | cons x l ih =>
      rw [List.mapM_cons] at h
      cases hx : f x with
      | error e' =>
        rw [hx] at h
        cases h
        exact ⟨[], x, l, rfl, by simp, hx⟩
      | ok b =>
        rw [hx] at h
        cases hl : l.mapM f with
        | ok bs =>
          rw [hl] at h
          cases h
        | error e' =>
          rw [hl] at h
          cases h
          obtain ⟨earlier, a, later, rfl, hok, ha⟩ := ih hl
          exact ⟨x :: earlier, a, later, rfl, List.forall_mem_cons.2 ⟨⟨b, hx⟩, hok⟩, ha⟩
  · rintro ⟨earlier, a, later, rfl, hok, ha⟩
    obtain ⟨bs, hbs⟩ := exists_mapM_ok hok
    rw [List.mapM_append, List.mapM_cons, hbs, ha]
    rfl

theorem map_eq_error_iff {r : Except ε α} {g : α → β} {e : ε} :
    r.map g = .error e ↔ r = .error e := by
  cases r with
  | error e' => exact ⟨fun h => by cases h; rfl, fun h => by cases h; rfl⟩
  | ok a => exact iff_of_false nofun nofun

/-- Lists of results one after the other are the results of one long list. -/
theorem mapM_flatMap {g : γ → List α} (l : List γ) :
    (l.flatMap g).mapM f = (l.mapM fun c => (g c).mapM f).map List.flatten := by
  induction l with
  | nil => rfl
  | cons c l ih =>
    rw [List.flatMap_cons, List.mapM_append, List.mapM_cons, ih]
    cases (g c).mapM f with
    | error e => rfl
    | ok bs => cases l.mapM fun c => (g c).mapM f <;> rfl

end Results

/-! ## Declarations -/

/-- A library as a configuration declares it. -/
structure Declaration where
  configuration : Configuration
  library : Coordinate

namespace BuildModule

variable {m : BuildModule} {d : Declaration} {r : ResolvedLibrary}

/-- The libraries that are declared in the configurations that are checked: configuration by
configuration, and in each of them in the order of declaration. -/
def declarations (m : BuildModule) : List Declaration :=
  (m.configurations.filter (·.isAccepted)).flatMap fun c => c.libraries.map (Declaration.mk c)

theorem mem_declarations :
    d ∈ m.declarations ↔ d.configuration ∈ m.configurations ∧ d.configuration.isAccepted = true ∧
      d.library ∈ d.configuration.libraries := by
  obtain ⟨c, library⟩ := d
  simp [declarations, and_assoc]

/-- A resolved library has the declared coordinate, and the module itself asked for it. -/
def IsExact (m : BuildModule) (d : Declaration) (r : ResolvedLibrary) : Prop :=
  m.fullName ∈ r.requestedBy ∧ r.coordinate = d.library

instance : Decidable (m.IsExact d r) :=
  inferInstanceAs (Decidable (m.fullName ∈ r.requestedBy ∧ r.coordinate = d.library))

def HasExact (m : BuildModule) (d : Declaration) : Prop :=
  ∃ r ∈ d.configuration.resolved, m.IsExact d r

instance : Decidable (m.HasExact d) :=
  inferInstanceAs (Decidable (∃ r ∈ d.configuration.resolved, m.IsExact d r))

/-- What was resolved for the declared library in any version, as far as the module itself asked for
it. -/
def candidates (m : BuildModule) (d : Declaration) : List ResolvedLibrary :=
  d.configuration.resolved.filter fun r =>
    m.fullName ∈ r.requestedBy ∧
      r.coordinate.group = d.library.group ∧ r.coordinate.artifact = d.library.artifact

/-- The first library of the declared coordinate or, if there is none, the only candidate. -/
def Picks (m : BuildModule) (d : Declaration) (r : ResolvedLibrary) : Prop :=
  (∃ earlier later, d.configuration.resolved = earlier ++ r :: later ∧ m.IsExact d r ∧
    ∀ other ∈ earlier, ¬m.IsExact d other) ∨
  ¬m.HasExact d ∧ m.candidates d = [r]

/-- No library of the declared coordinate, and no candidate or several. -/
def IsAmbiguous (m : BuildModule) (d : Declaration) : Prop :=
  ¬m.HasExact d ∧ (m.candidates d).length ≠ 1

instance : Decidable (m.IsAmbiguous d) :=
  inferInstanceAs (Decidable (¬m.HasExact d ∧ (m.candidates d).length ≠ 1))

/-! ## Looking up a declaration -/

/-- What was resolved for a declaration. -/
def lookUp (m : BuildModule) (d : Declaration) : Except Failure ResolvedLibrary :=
  matchResolved m.id (d.configuration.directlyResolved m.fullName) d.library

theorem find?_directlyResolved :
    (d.configuration.directlyResolved m.fullName).find? (·.coordinate = d.library) =
      d.configuration.resolved.find? fun r => m.IsExact d r := by
  rw [Configuration.directlyResolved, List.find?_filter]
  congr 1
  funext r
  rw [decide_eq_decide]
  simp [IsExact, ResolvedLibrary.isRequestedBy]

theorem find?_isExact_eq_none_iff :
    d.configuration.resolved.find? (fun r => m.IsExact d r) = none ↔ ¬m.HasExact d := by
  rw [List.find?_eq_none]
  simp [HasExact]

theorem find?_isExact_eq_some_iff :
    d.configuration.resolved.find? (fun r => m.IsExact d r) = some r ↔
      ∃ earlier later, d.configuration.resolved = earlier ++ r :: later ∧ m.IsExact d r ∧
        ∀ other ∈ earlier, ¬m.IsExact d other := by
  rw [List.find?_eq_some_iff_append]
  simp only [decide_eq_true_eq, Bool.not_eq_true', decide_eq_false_iff_not]
  constructor
  · rintro ⟨hr, earlier, later, heq, hother⟩
    exact ⟨earlier, later, heq, hr, hother⟩
  · rintro ⟨earlier, later, heq, hr, hother⟩
    exact ⟨hr, earlier, later, heq, hother⟩

theorem filter_sameModule :
    (d.configuration.directlyResolved m.fullName).filter (·.coordinate.sameModule d.library) =
      m.candidates d := by
  rw [Configuration.directlyResolved, List.filter_filter, candidates]
  apply List.filter_congr
  intro r _
  simp [ResolvedLibrary.isRequestedBy, Coordinate.sameModule, Bool.and_comm]

/-- With a library of the declared coordinate, the first one is found. -/
theorem lookUp_of_some (h : d.configuration.resolved.find? (fun r => m.IsExact d r) = some r) :
    m.lookUp d = .ok r := by
  rw [lookUp, matchResolved, find?_directlyResolved, h]

/-- Without one, the only candidate is found. -/
theorem lookUp_of_only (h : ¬m.HasExact d) (honly : m.candidates d = [r]) : m.lookUp d = .ok r := by
  rw [lookUp, matchResolved, find?_directlyResolved, find?_isExact_eq_none_iff.2 h, filter_sameModule,
    honly]

theorem lookUp_of_isAmbiguous (h : m.IsAmbiguous d) :
    m.lookUp d = .error (.ambiguous m.id d.library ((m.candidates d).map (·.coordinate))) := by
  obtain ⟨hexact, hlength⟩ := h
  rw [lookUp, matchResolved, find?_directlyResolved, find?_isExact_eq_none_iff.2 hexact,
    filter_sameModule]
  rcases hcandidates : m.candidates d with _ | ⟨r, _ | ⟨r', others⟩⟩
  · rfl
  · exact absurd (congrArg List.length hcandidates) hlength
  · rfl

/-- A declaration has its library, or it is ambiguous. -/
theorem lookUp_cases (m : BuildModule) (d : Declaration) :
    (∃ r, m.Picks d r ∧ m.lookUp d = .ok r) ∨
      m.IsAmbiguous d ∧ m.lookUp d =
        .error (.ambiguous m.id d.library ((m.candidates d).map (·.coordinate))) := by
  cases hfind : d.configuration.resolved.find? fun r => m.IsExact d r with
  | some r =>
    left
    exact ⟨r, Or.inl (find?_isExact_eq_some_iff.1 hfind), lookUp_of_some hfind⟩
  | none =>
    have hexact : ¬m.HasExact d := find?_isExact_eq_none_iff.1 hfind
    by_cases hlength : (m.candidates d).length = 1
    · obtain ⟨r, honly⟩ := List.length_eq_one_iff.1 hlength
      exact Or.inl ⟨r, Or.inr ⟨hexact, honly⟩, lookUp_of_only hexact honly⟩
    · exact Or.inr ⟨⟨hexact, hlength⟩, lookUp_of_isAmbiguous ⟨hexact, hlength⟩⟩

theorem Picks.lookUp_eq (h : m.Picks d r) : m.lookUp d = .ok r := by
  rcases h with h | ⟨hexact, honly⟩
  · exact lookUp_of_some (find?_isExact_eq_some_iff.2 h)
  · exact lookUp_of_only hexact honly

theorem lookUp_eq_ok_iff : m.lookUp d = .ok r ↔ m.Picks d r := by
  refine ⟨fun h => ?_, Picks.lookUp_eq⟩
  rcases m.lookUp_cases d with ⟨r', hpicks, hr'⟩ | ⟨-, herror⟩
  · rw [h] at hr'
    cases hr'
    exact hpicks
  · rw [h] at herror
    cases herror

theorem not_isAmbiguous_iff : ¬m.IsAmbiguous d ↔ ∃ r, m.Picks d r := by
  constructor
  · intro h
    rcases m.lookUp_cases d with ⟨r, hpicks, -⟩ | ⟨hambiguous, -⟩
    · exact ⟨r, hpicks⟩
    · exact absurd hambiguous h
  · rintro ⟨r, ⟨earlier, later, heq, hr, -⟩ | ⟨-, hcandidates⟩⟩ ⟨hexact, hlength⟩
    · exact hexact ⟨r, by rw [heq]; simp, hr⟩
    · rw [hcandidates] at hlength
      exact hlength rfl

theorem lookUp_eq_error_iff {e : Failure} :
    m.lookUp d = .error e ↔ m.IsAmbiguous d ∧
      e = .ambiguous m.id d.library ((m.candidates d).map (·.coordinate)) := by
  rcases m.lookUp_cases d with ⟨r, hpicks, hr⟩ | ⟨hambiguous, herror⟩
  · constructor
    · intro h
      rw [hr] at h
      cases h
    · rintro ⟨hambiguous, -⟩
      exact absurd hambiguous (not_isAmbiguous_iff.2 ⟨r, hpicks⟩)
  · rw [herror, Except.error.injEq, eq_comm]
    exact (and_iff_right hambiguous).symm

/-- Whatever is picked is a library of the declared name that the module itself asked for, and of the
declared version if there is one of it. -/
theorem Picks.spec (h : m.Picks d r) :
    r ∈ d.configuration.resolved ∧ m.fullName ∈ r.requestedBy ∧
      r.coordinate.group = d.library.group ∧ r.coordinate.artifact = d.library.artifact ∧
      (m.HasExact d → r.coordinate.version = d.library.version) := by
  rcases h with ⟨earlier, later, heq, ⟨hrequested, hcoordinate⟩, -⟩ | ⟨hexact, hcandidates⟩
  · rw [heq, hcoordinate]
    exact ⟨by simp, hrequested, rfl, rfl, fun _ => rfl⟩
  · have hr : r ∈ m.candidates d := by simp [hcandidates]
    obtain ⟨hmem, hcandidate⟩ := List.mem_filter.1 hr
    obtain ⟨hrequested, hgroup, hartifact⟩ := of_decide_eq_true hcandidate
    exact ⟨hmem, hrequested, hgroup, hartifact, fun h => absurd h hexact⟩

/-! ## Looking up all declarations -/

/-- What a declaration adds to the libraries of the module. -/
def Contributes (m : BuildModule) (d : Declaration) (s : DeclaredLibrary) : Prop :=
  s.declared = d.library ∧ m.Picks d s.resolved

theorem contributes_iff {s : DeclaredLibrary} :
    DeclaredLibrary.mk d.library <$> m.lookUp d = .ok s ↔ m.Contributes d s := by
  constructor
  · intro h
    obtain ⟨r, hr, rfl⟩ := map_eq_ok h
    exact ⟨rfl, lookUp_eq_ok_iff.1 hr⟩
  · rintro ⟨hdeclared, hpicks⟩
    rw [hpicks.lookUp_eq, ← hdeclared]
    rfl

/-- The libraries of a module are those of its declarations, put into the list one after the other. -/
theorem resolvedLibraries_eq (m : BuildModule) :
    m.resolvedLibraries =
      (m.declarations.mapM fun d => DeclaredLibrary.mk d.library <$> m.lookUp d).map
        (·.foldl addLibrary []) := by
  have hselections : ∀ c : Configuration,
      ((c.libraries.map (Declaration.mk c)).mapM fun d =>
        DeclaredLibrary.mk d.library <$> m.lookUp d) = m.selections c := by
    intro c
    rw [List.mapM_map]
    rfl
  rw [declarations, mapM_flatMap, funext hselections, resolvedLibraries]
  cases (m.configurations.filter (·.isAccepted)).mapM m.selections <;> rfl

/-- The libraries can be told if every declaration picks one. -/
theorem resolvedLibraries_eq_ok_iff {libraries : List DeclaredLibrary} :
    m.resolvedLibraries = .ok libraries ↔
      ∃ selected, List.Forall₂ m.Contributes m.declarations selected ∧
        selected.foldl addLibrary [] = libraries := by
  have hselected : ∀ selected : List DeclaredLibrary,
      (m.declarations.mapM fun d => DeclaredLibrary.mk d.library <$> m.lookUp d) = .ok selected ↔
        List.Forall₂ m.Contributes m.declarations selected := by
    intro selected
    rw [mapM_eq_ok_iff]
    simp only [contributes_iff]
  rw [resolvedLibraries_eq]
  constructor
  · intro h
    obtain ⟨selected, hok, rfl⟩ := map_eq_ok h
    exact ⟨selected, (hselected selected).1 hok, rfl⟩
  · rintro ⟨selected, hall, rfl⟩
    rw [(hselected selected).2 hall]
    rfl

/-- **The first ambiguous declaration is the failure.** -/
theorem resolvedLibraries_eq_error_iff {e : Failure} :
    m.resolvedLibraries = .error e ↔
      ∃ earlier d later, m.declarations = earlier ++ d :: later ∧
        (∀ other ∈ earlier, ¬m.IsAmbiguous other) ∧ m.IsAmbiguous d ∧
        e = .ambiguous m.id d.library ((m.candidates d).map (·.coordinate)) := by
  have hpicks : ∀ d : Declaration,
      (∃ s, DeclaredLibrary.mk d.library <$> m.lookUp d = .ok s) ↔ ¬m.IsAmbiguous d := by
    intro d
    simp only [contributes_iff, not_isAmbiguous_iff, Contributes]
    constructor
    · rintro ⟨s, -, hs⟩
      exact ⟨s.resolved, hs⟩
    · rintro ⟨r, hr⟩
      exact ⟨⟨d.library, r⟩, rfl, hr⟩
  have herror : ∀ d : Declaration,
      DeclaredLibrary.mk d.library <$> m.lookUp d = .error e ↔ m.lookUp d = .error e :=
    fun _ => map_eq_error_iff
  rw [resolvedLibraries_eq, map_eq_error_iff, mapM_eq_error_iff]
  simp only [hpicks, herror, lookUp_eq_error_iff]

/-- The libraries can be told exactly if no declaration is ambiguous. -/
theorem resolvedLibraries_ok_iff_clear :
    (∃ libraries, m.resolvedLibraries = .ok libraries) ↔ ∀ d ∈ m.declarations, ¬m.IsAmbiguous d := by
  simp only [resolvedLibraries_ok_iff, Resolves, not_isAmbiguous_iff, ← lookUp_eq_ok_iff]
  constructor
  · intro h d hd
    obtain ⟨hc, haccepted, hlibrary⟩ := mem_declarations.1 hd
    exact h d.configuration hc haccepted d.library hlibrary
  · intro h c hc haccepted library hlibrary
    exact h ⟨c, library⟩ (mem_declarations.2 ⟨hc, haccepted, hlibrary⟩)

end BuildModule

end DependencyLint
