import DependencyLint.Proofs.Libraries
import DependencyLint.Proofs.Names

/-!
# What a manifest that was read promises

The results about sessions and runs ask for modules with different ids, and those about libraries for
coordinates without a colon in their parts. Every manifest that was read from a text has both
(`Manifest.promises_of_parse`), and all of its coordinates, declared or resolved, could be written
again (`Manifest.isWritable_of_parse`).

A record is decoded field by field, starting from its defaults. A property of the defaults that every
field keeps is therefore a property of every record that is decoded (`Shape.decode_induct`), whether
it was written as an object or as an array. A property that a required field brings about needs
nothing of the defaults (`Shape.decode_required`): no record is decoded without this field.
-/

namespace DependencyLint

/-! ## Decoded records -/

namespace Json

variable {ρ : Type} {shape : Shape ρ} {P : ρ → Prop}

/-- Entering the field keeps the property. -/
def Field.Keeps (P : ρ → Prop) (field : Field ρ) : Prop :=
  ∀ doc record record', P record → field.enter doc record = .ok record' → P record'

theorem Field.keeps_optional {α : Type} {name : String} {decode : Decoder α} {set : α → ρ → ρ}
    (h : ∀ doc value, decode doc = .ok value → ∀ record, P record → P (set value record)) :
    (Field.optional name decode set).Keeps P := by
  intro doc record record' hp henter
  obtain ⟨value, hvalue, rfl⟩ := map_eq_ok henter
  exact h doc value hvalue record hp

theorem Field.keeps_required {α : Type} {name : String} {decode : Decoder α} {set : α → ρ → ρ}
    (h : ∀ doc value, decode doc = .ok value → ∀ record, P record → P (set value record)) :
    (Field.required name decode set).Keeps P := by
  intro doc record record' hp henter
  obtain ⟨value, hvalue, rfl⟩ := map_eq_ok henter
  exact h doc value hvalue record hp

/-- The property holds once the field is entered. -/
def Field.Sets (P : ρ → Prop) (field : Field ρ) : Prop :=
  ∀ doc record record', field.enter doc record = .ok record' → P record'

theorem Field.Sets.keeps {field : Field ρ} (h : field.Sets P) : field.Keeps P :=
  fun doc record record' _ henter => h doc record record' henter

theorem Field.sets_required {α : Type} {name : String} {decode : Decoder α} {set : α → ρ → ρ}
    (h : ∀ doc value, decode doc = .ok value → ∀ record, P (set value record)) :
    (Field.required name decode set).Sets P := by
  intro doc record record' henter
  obtain ⟨value, hvalue, rfl⟩ := map_eq_ok henter
  exact h doc value hvalue record

namespace Shape

/-- What holds before a member is entered and is kept by every field holds after the last one. The
names that were seen can be part of it. -/
theorem enterMembers_induct {Q : List String → ρ → Prop}
    (hfields : ∀ field ∈ shape.fields, ∀ doc seen record record',
      Q seen record → field.enter doc record = .ok record' → Q (field.name :: seen) record')
    {members : List (Doc × Doc)} {seen seen' : List String} {record record' : ρ} (hq : Q seen record)
    (h : shape.enterMembers members seen record = .ok (seen', record')) : Q seen' record' := by
  induction members generalizing seen record with
  | nil => cases h; exact hq
  | cons member members ih =>
    obtain ⟨key, value⟩ := member
    rw [enterMembers] at h
    obtain ⟨name, -, h⟩ := bind_eq_ok h
    cases hf : shape.field? name with
    | none =>
      simp only [hf] at h
      obtain ⟨-, -, h⟩ := bind_eq_ok h
      exact ih hq h
    | some field =>
      simp only [hf] at h
      split_ifs at h
      obtain ⟨entered, henter, h⟩ := bind_eq_ok h
      obtain rfl : field.name = name := by simpa using List.find?_some hf
      exact ih (hfields field (List.mem_of_find?_eq_some hf) value seen record entered hq henter) h

theorem enterItems_induct {fields : List (Field ρ)} (hfields : ∀ field ∈ fields, field.Keeps P)
    {ending : Option Fault} {index : Nat} {items : List Doc} {record record' : ρ} (hp : P record)
    (h : shape.enterItems ending index fields items record = .ok record') : P record' := by
  induction fields generalizing index items record with
  | nil =>
    cases items with
    | nil =>
      obtain ⟨-, -, h⟩ := bind_eq_ok h
      cases h
      exact hp
    | cons item items => cases h
  | cons field fields ih =>
    have hrest : ∀ field ∈ fields, field.Keeps P :=
      fun other hother => hfields other (List.mem_cons_of_mem field hother)
    cases items with
    | nil =>
      obtain ⟨-, -, h⟩ := bind_eq_ok h
      split_ifs at h
      exact ih hrest hp h
    | cons item items =>
      obtain ⟨entered, henter, h⟩ := bind_eq_ok h
      exact ih hrest (hfields field List.mem_cons_self item record entered hp henter) h

/-- An array has an item for each required field. -/
theorem enterItems_required {fields : List (Field ρ)} (hfields : ∀ field ∈ fields, field.Keeps P)
    (hrequired : ∃ field ∈ fields, field.isRequired = true ∧ field.Sets P)
    {ending : Option Fault} {index : Nat} {items : List Doc} {record record' : ρ}
    (h : shape.enterItems ending index fields items record = .ok record') : P record' := by
  induction fields generalizing index items record with
  | nil => obtain ⟨field, hmem, -⟩ := hrequired; cases hmem
  | cons first fields ih =>
    have hrest : ∀ field ∈ fields, field.Keeps P :=
      fun other hother => hfields other (List.mem_cons_of_mem first hother)
    obtain ⟨field, hmem, hrequired, hsets⟩ := hrequired
    cases items with
    | nil =>
      obtain ⟨-, -, h⟩ := bind_eq_ok h
      split_ifs at h with hfirst
      rcases List.mem_cons.1 hmem with rfl | hmem
      · exact absurd hrequired hfirst
      · exact ih hrest ⟨field, hmem, hrequired, hsets⟩ h
    | cons item items =>
      obtain ⟨entered, henter, hitems⟩ := bind_eq_ok h
      rcases List.mem_cons.1 hmem with rfl | hmem
      · exact enterItems_induct hrest (hsets item record entered henter) hitems
      · exact ih hrest ⟨field, hmem, hrequired, hsets⟩ hitems

theorem name_mem_of_checkRequired {seen : List String} {done : Unit}
    (h : shape.checkRequired seen = .ok done) {field : Field ρ} (hmem : field ∈ shape.fields)
    (hrequired : field.isRequired = true) : field.name ∈ seen := by
  rw [checkRequired] at h
  split at h
  next => cases h
  next hnone =>
    have hseen := List.find?_eq_none.1 hnone field hmem
    simpa [hrequired] using hseen

/-- What holds of the defaults and is kept by every field holds of every decoded record. -/
theorem decode_induct (hblank : P shape.blank) (hfields : ∀ field ∈ shape.fields, field.Keeps P)
    {doc : Doc} {record : ρ} (h : shape.decode doc = .ok record) : P record := by
  cases doc with
  | object members ending =>
    obtain ⟨⟨seen, entered⟩, henter, h⟩ := bind_eq_ok h
    obtain ⟨-, -, h⟩ := bind_eq_ok h
    obtain ⟨-, -, h⟩ := bind_eq_ok h
    cases h
    exact enterMembers_induct (Q := fun _ record => P record)
      (fun field hmem doc _ record record' => hfields field hmem doc record record') hblank henter
  | array items ending => exact enterItems_induct hfields hblank h
  | _ => cases h

/-- What a required field brings about, whatever the record was before, holds of every decoded
record. The defaults do not matter. -/
theorem decode_required (hfields : ∀ field ∈ shape.fields, field.Keeps P) {required : Field ρ}
    (hmem : required ∈ shape.fields) (hrequired : required.isRequired = true)
    (hsets : ∀ field ∈ shape.fields, field.name = required.name → field.Sets P)
    {doc : Doc} {record : ρ} (h : shape.decode doc = .ok record) : P record := by
  cases doc with
  | object members ending =>
    obtain ⟨⟨seen, entered⟩, henter, h⟩ := bind_eq_ok h
    obtain ⟨-, -, h⟩ := bind_eq_ok h
    obtain ⟨_, hchecked, h⟩ := bind_eq_ok h
    cases h
    refine enterMembers_induct (Q := fun seen record => required.name ∈ seen → P record) ?_
      (fun hname => absurd hname List.not_mem_nil) henter
      (name_mem_of_checkRequired hchecked hmem hrequired)
    intro field hfield doc seen record record' hp hentered hname
    rcases List.mem_cons.1 hname with heq | hname
    · exact hsets field hfield heq.symm doc record record' hentered
    · exact hfields field hfield doc record record' (hp hname) hentered
  | array items ending =>
    exact enterItems_required hfields ⟨required, hmem, hrequired, hsets required hmem rfl⟩ h
  | _ => cases h

end Shape

/-- Every item of a decoded list was decoded. -/
theorem forall_of_decodeList {α : Type} {decode : Decoder α} {P : α → Prop}
    (hdecode : ∀ doc value, decode doc = .ok value → P value) {doc : Doc} {values : List α}
    (h : decodeList decode doc = .ok values) : ∀ value ∈ values, P value := by
  cases doc with
  | array items ending =>
    obtain ⟨found, hfound, h⟩ := bind_eq_ok h
    obtain ⟨-, -, h⟩ := bind_eq_ok h
    cases h
    intro value hvalue
    obtain ⟨item, -, hitem⟩ := mem_of_mapM_ok hfound hvalue
    exact hdecode item value hitem
  | _ => cases h

/-- A tagged value was decoded as one of the tags says. -/
theorem of_decodeTagged {α : Type} {tags : List (String × Decoder α)} {P : α → Prop}
    (htags : ∀ tag ∈ tags, ∀ doc value, tag.2 doc = .ok value → P value) {doc : Doc} {value : α}
    (h : decodeTagged tags doc = .ok value) : P value := by
  cases doc with
  | object members ending =>
    cases members with
    | nil => cases h
    | cons member more =>
      obtain ⟨key, content⟩ := member
      obtain ⟨name, -, h⟩ := bind_eq_ok h
      cases hl : tags.lookup name with
      | none => simp only [hl] at h; cases h
      | some decode =>
        simp only [hl] at h
        obtain ⟨found, hfound, h⟩ := bind_eq_ok h
        split_ifs at h
        obtain ⟨-, -, h⟩ := bind_eq_ok h
        cases h
        obtain ⟨before, after, htag, -⟩ := List.lookup_eq_some_iff.1 hl
        exact htags (name, decode) (by rw [htag]; simp) content value hfound
  | text scanned =>
    obtain ⟨name, -, h⟩ := bind_eq_ok h
    cases hl : tags.lookup name <;> simp only [hl] at h <;> cases h
  | _ => cases h

end Json

/-! ## Coordinates -/

theorem colonPieces_eq_splitOn (cs : List Char) : colonPieces cs = cs.splitOn ':' := by
  apply Text.eq_splitOn rfl
  · intro cs
    rw [colonPieces, List.foldr_cons, ← colonPieces, if_pos rfl]
  · intro c cs piece rest hc hpieces
    rw [colonPieces, List.foldr_cons, ← colonPieces, if_neg hc, hpieces]

/-- No part of the coordinate is empty, and none holds a colon. -/
def Coordinate.IsWritable (c : Coordinate) : Prop :=
  ∀ part ∈ [c.group, c.artifact, c.version], part ≠ "" ∧ ':' ∉ part.toList

instance (c : Coordinate) : Decidable c.IsWritable :=
  inferInstanceAs
    (Decidable (∀ part ∈ [c.group, c.artifact, c.version], part ≠ "" ∧ ':' ∉ part.toList))

theorem Coordinate.IsWritable.splitOn_render {c : Coordinate} (h : c.IsWritable) :
    c.render.toList.splitOn ':' = [c.group.toList, c.artifact.toList, c.version.toList] := by
  simp only [IsWritable, List.forall_mem_cons] at h
  obtain ⟨⟨-, hgroup⟩, ⟨-, hartifact⟩, ⟨-, hversion⟩, -⟩ := h
  rw [toList_render, List.splitOn_append_cons_self_of_not_mem hgroup,
    List.splitOn_append_cons_self_of_not_mem hartifact, List.splitOn_eq_singleton hversion]

/-- A coordinate is read back from its text. -/
theorem Coordinate.parse_render {c : Coordinate} (h : c.IsWritable) :
    Coordinate.parse c.render = .ok c := by
  rw [parse, colonPieces_eq_splitOn, h.splitOn_render]
  simp only [IsWritable, List.forall_mem_cons] at h
  obtain ⟨⟨hgroup, -⟩, ⟨hartifact, -⟩, ⟨hversion, -⟩, -⟩ := h
  simp [hgroup, hartifact, hversion]

theorem Coordinate.IsWritable.isPlain {c : Coordinate} (h : c.IsWritable) : c.IsPlain :=
  ⟨(h c.group (by simp)).2, (h c.artifact (by simp)).2⟩

/-- What is read from a text can be written, and is written as this text. -/
theorem Coordinate.isWritable_of_parse {text : String} {c : Coordinate}
    (h : Coordinate.parse text = .ok c) : c.IsWritable ∧ c.render = text := by
  rw [parse] at h
  split at h
  next group artifact version hpieces =>
    rw [colonPieces_eq_splitOn] at hpieces
    have hpiece : ∀ piece ∈ [group, artifact, version], ':' ∉ piece := by
      rw [← hpieces]
      exact fun piece => Text.not_mem_of_mem_splitOn
    have htext : text.toList = [':'].intercalate [group, artifact, version] := by
      rw [← hpieces, List.intercalate_splitOn]
    split_ifs at h with hempty
    cases h
    refine ⟨?_, ?_⟩
    · simp only [Bool.or_eq_true, List.isEmpty_iff, not_or] at hempty
      simp only [List.forall_mem_cons] at hpiece
      simp [IsWritable, hempty, hpiece]
    · rw [← String.toList_inj, toList_render, htext]
      simp [List.intercalate]
  next => cases h

theorem isWritable_of_decodeCoordinate {doc : Json.Doc} {c : Coordinate}
    (h : decodeCoordinate doc = .ok c) : c.IsWritable := by
  obtain ⟨text, -, h⟩ := bind_eq_ok h
  cases hp : Coordinate.parse text with
  | error e => rw [hp] at h; cases h
  | ok coordinate =>
    rw [hp] at h
    cases h
    exact (Coordinate.isWritable_of_parse hp).1

theorem isWritable_of_decodeDependency {doc : Json.Doc} {dependency : Dependency}
    (h : decodeDependency doc = .ok dependency) :
    ∀ c, dependency.library? = some c → c.IsWritable := by
  refine Json.of_decodeTagged (P := fun d => ∀ c, d.library? = some c → c.IsWritable) ?_ h
  simp only [List.forall_mem_cons]
  refine ⟨fun doc value hvalue c hc => ?_, fun doc value hvalue c hc => ?_, by simp⟩
  · obtain ⟨id, -, rfl⟩ := map_eq_ok hvalue
    cases hc
  · obtain ⟨library, hlibrary, rfl⟩ := map_eq_ok hvalue
    cases hc
    exact isWritable_of_decodeCoordinate hlibrary

/-! ## Modules -/

theorem isWritable_of_decode {doc : Json.Doc} {library : ResolvedLibrary}
    (h : ResolvedLibrary.shape.decode doc = .ok library) : library.coordinate.IsWritable := by
  -- The blank library has no coordinate to speak of, so the required field decides.
  have hsets : (Json.Field.required "coordinate" decodeCoordinate
      fun v r => ({ r with coordinate := v } : ResolvedLibrary)).Sets
        fun library => library.coordinate.IsWritable :=
    Json.Field.sets_required fun _ _ hc _ => isWritable_of_decodeCoordinate hc
  refine Json.Shape.decode_required (P := fun library => library.coordinate.IsWritable) ?_
    List.mem_cons_self rfl ?_ h
  · simp only [ResolvedLibrary.shape, List.forall_mem_cons]
    exact ⟨hsets.keeps, Json.Field.keeps_optional fun _ _ _ _ hp => hp,
      Json.Field.keeps_optional fun _ _ _ _ hp => hp, by simp⟩
  · simp only [ResolvedLibrary.shape, List.forall_mem_cons]
    exact ⟨fun _ => hsets, by simp [Json.Field.optional, Json.Field.required]⟩

/-- The coordinates that are declared and those that were resolved can be written. -/
theorem forall_isWritable_of_decode {doc : Json.Doc} {c : Configuration}
    (h : Configuration.shape.decode doc = .ok c) :
    (∀ library ∈ c.libraries, library.IsWritable) ∧
      ∀ library ∈ c.resolved, library.coordinate.IsWritable := by
  refine Json.Shape.decode_induct
    (P := fun c => (∀ library ∈ c.libraries, library.IsWritable) ∧
      ∀ library ∈ c.resolved, library.coordinate.IsWritable) (by decide) ?_ h
  simp only [Configuration.shape, List.forall_mem_cons]
  refine ⟨Json.Field.keeps_required fun _ _ _ _ hp => hp,
    Json.Field.keeps_optional fun _ _ _ _ hp => hp,
    Json.Field.keeps_optional fun _ _ hd _ hp => ⟨fun library hlibrary => ?_, hp.2⟩,
    Json.Field.keeps_optional fun _ _ hl _ hp =>
      ⟨hp.1, Json.forall_of_decodeList (fun _ _ h => isWritable_of_decode h) hl⟩, by simp⟩
  obtain ⟨dependency, hmem, heq⟩ := List.mem_filterMap.1 hlibrary
  exact Json.forall_of_decodeList (fun _ _ h => isWritable_of_decodeDependency h) hd dependency hmem
    library heq

namespace BuildModule

/-- The coordinates in a module: those that are declared and those that were resolved. -/
def coordinates (m : BuildModule) : List Coordinate :=
  m.configurations.flatMap fun c => c.libraries ++ c.resolved.map (·.coordinate)

theorem forall_coordinates_iff {m : BuildModule} {P : Coordinate → Prop} :
    (∀ c ∈ m.coordinates, P c) ↔ ∀ configuration ∈ m.configurations,
      (∀ library ∈ configuration.libraries, P library) ∧
        ∀ library ∈ configuration.resolved, P library.coordinate := by
  simp only [coordinates, List.forall_mem_flatMap, List.forall_mem_append, List.forall_mem_map]

theorem isWritable_of_decode {doc : Json.Doc} {m : BuildModule} (h : shape.decode doc = .ok m) :
    ∀ c ∈ m.coordinates, c.IsWritable := by
  refine Json.Shape.decode_induct (P := fun m => ∀ c ∈ m.coordinates, c.IsWritable) (by decide) ?_ h
  simp only [shape, List.forall_mem_cons]
  refine ⟨Json.Field.keeps_required fun _ _ _ _ hp => hp,
    Json.Field.keeps_optional fun _ _ _ _ hp => hp,
    Json.Field.keeps_optional fun _ _ _ _ hp => hp,
    Json.Field.keeps_optional fun _ _ _ _ hp => hp,
    Json.Field.keeps_optional fun _ _ _ _ hp => hp,
    Json.Field.keeps_required fun _ _ _ _ hp => hp,
    Json.Field.keeps_optional fun _ _ _ _ hp => hp,
    Json.Field.keeps_optional fun _ _ hl _ _ => forall_coordinates_iff.2
      (Json.forall_of_decodeList (fun _ _ h => forall_isWritable_of_decode h) hl), by simp⟩

theorem hasPlainLibraries_of_isWritable {m : BuildModule} (h : ∀ c ∈ m.coordinates, c.IsWritable) :
    m.HasPlainLibraries :=
  fun c hc library hlibrary => ((forall_coordinates_iff.1 h c hc).2 library hlibrary).isPlain

end BuildModule

/-! ## Manifests -/

namespace Manifest

theorem forall_isWritable_of_decode {doc : Json.Doc} {manifest : Manifest}
    (h : shape.decode doc = .ok manifest) :
    ∀ m ∈ manifest.modules, ∀ c ∈ m.coordinates, c.IsWritable := by
  refine Json.Shape.decode_induct
    (P := fun manifest => ∀ m ∈ manifest.modules, ∀ c ∈ m.coordinates, c.IsWritable)
    (by decide) ?_ h
  simp only [shape, List.forall_mem_cons]
  exact ⟨Json.Field.keeps_required fun _ _ hl _ _ =>
    Json.forall_of_decodeList (fun _ _ h => BuildModule.isWritable_of_decode h) hl, by simp⟩

theorem coordinates_rebaseModule (base : Path) (m : BuildModule) :
    (rebaseModule base m).coordinates = m.coordinates := by
  simp only [BuildModule.coordinates, rebaseModule, List.flatMap_map]
  refine List.flatMap_congr fun c _ => ?_
  rw [rebaseConfiguration, List.map_map]
  rfl

theorem nodup_of_repeatedId {seen : List String} {modules : List BuildModule}
    (h : repeatedId? seen modules = none) :
    (modules.map (·.id)).Nodup ∧ ∀ m ∈ modules, m.id ∉ seen := by
  induction modules generalizing seen with
  | nil => simp
  | cons m modules ih =>
    rw [repeatedId?] at h
    split_ifs at h with hm
    obtain ⟨hnodup, hseen⟩ := ih h
    have hnew : m.id ∉ modules.map (·.id) := by
      intro hmem
      obtain ⟨n, hn, heq⟩ := List.mem_map.1 hmem
      exact hseen n hn (heq ▸ List.mem_cons_self)
    refine ⟨List.nodup_cons.2 ⟨hnew, hnodup⟩, List.forall_mem_cons.2 ⟨by simpa using hm, ?_⟩⟩
    exact fun n hn hmem => hseen n hn (List.mem_cons_of_mem m.id hmem)

theorem parse_eq_ok {text : String} {base : Path} {manifest : Manifest}
    (h : Manifest.parse text base = .ok manifest) :
    ∃ modules, Json.decodeDocument shape.decode text = .ok ⟨modules⟩ ∧
      repeatedId? [] (modules.map (rebaseModule base)) = none ∧
      manifest = ⟨modules.map (rebaseModule base)⟩ := by
  rw [parse] at h
  cases hd : Json.decodeDocument shape.decode text with
  | error e => rw [hd] at h; cases h
  | ok raw =>
    rw [hd] at h
    simp only [ofModules] at h
    cases hr : repeatedId? [] (raw.modules.map (rebaseModule base)) with
    | some id => rw [hr] at h; cases h
    | none =>
      rw [hr] at h
      cases h
      exact ⟨raw.modules, rfl, hr, rfl⟩

/-- Every coordinate in a manifest that was read can be written. -/
theorem isWritable_of_parse {text : String} {base : Path} {manifest : Manifest}
    (h : Manifest.parse text base = .ok manifest) :
    ∀ m ∈ manifest.modules, ∀ c ∈ m.coordinates, c.IsWritable := by
  obtain ⟨modules, hd, -, rfl⟩ := parse_eq_ok h
  obtain ⟨decoded, hdecoded, hd⟩ := bind_eq_ok hd
  split_ifs at hd
  cases hd
  intro m hm
  obtain ⟨m₀, hm₀, rfl⟩ := List.mem_map.1 hm
  rw [coordinates_rebaseModule]
  exact forall_isWritable_of_decode hdecoded m₀ hm₀

/-- **What every manifest that was read promises:** its modules have different ids, and the
coordinates of their libraries have no colon in their parts. -/
theorem promises_of_parse {text : String} {base : Path} {manifest : Manifest}
    (h : Manifest.parse text base = .ok manifest) :
    (∀ files settings, (Project.mk files manifest settings).DistinctIds) ∧
      ∀ m ∈ manifest.modules, m.HasPlainLibraries := by
  have hwritable := isWritable_of_parse h
  obtain ⟨modules, -, hr, rfl⟩ := parse_eq_ok h
  exact ⟨fun _ _ => (nodup_of_repeatedId hr).1,
    fun m hm => BuildModule.hasPlainLibraries_of_isWritable (hwritable m hm)⟩

end Manifest

end DependencyLint
