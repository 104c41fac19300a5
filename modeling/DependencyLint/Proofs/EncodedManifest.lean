import DependencyLint.Proofs.EncodedText
import DependencyLint.Proofs.ReadManifest
import DependencyLint.Proofs.WrittenJson

/-!
# Manifests that were written

**Theorem (`parse_encoded_manifest`).** The modules of a build are read back from the JSON text that
they are written as. If two of them have the same id, reading fails, and the failure names the first
id in the list that an earlier module has already.

The text is the compact one or any other with the same tokens, so blanks between the tokens and the
way characters are escaped do not matter. The coordinates in it have to be such that their texts can
be taken apart again, and the paths have to be UTF-8. Paths are meant relative to a base, so they come
back as they were if the base is empty or if they are absolute.

A record is written with all its fields in the order of its shape. Such a record is decoded by
entering the values one after the other (`Shape.decode_object`), so what is left for each kind of
record is that each of its fields is decoded from what it was written as.
-/

namespace DependencyLint

/-! ## Records with all their fields -/

namespace Json

variable {ρ α : Type}

/-- Enters the values of fields one after the other. -/
def enterFields : List (Field ρ × Doc) → ρ → Except Fault ρ
  | [], record => .ok record
  | (field, value) :: entries, record => do
    let record ← field.enter value record
    enterFields entries record

theorem enterFields_required {name : String} {decode : Decoder α} {set : α → ρ → ρ} {value : Doc}
    {a : α} (h : decode value = .ok a) (entries : List (Field ρ × Doc)) (record : ρ) :
    enterFields ((.required name decode set, value) :: entries) record =
      enterFields entries (set a record) := by
  simp only [enterFields, Field.required, h]
  rfl

theorem enterFields_optional {name : String} {decode : Decoder α} {set : α → ρ → ρ} {value : Doc}
    {a : α} (h : decode value = .ok a) (entries : List (Field ρ × Doc)) (record : ρ) :
    enterFields ((.optional name decode set, value) :: entries) record =
      enterFields entries (set a record) := by
  simp only [enterFields, Field.optional, h]
  rfl

namespace Shape

variable {shape : Shape ρ}

theorem field?_eq_some (hnodup : (shape.fields.map (·.name)).Nodup) {field : Field ρ}
    (h : field ∈ shape.fields) : shape.field? field.name = some field :=
  (find?_name_eq_some_iff hnodup).2 ⟨h, rfl⟩

theorem enterMembers_fields (hnodup : (shape.fields.map (·.name)).Nodup)
    {entries : List (Field ρ × Doc)} (hentries : ∀ entry ∈ entries, entry.1 ∈ shape.fields)
    (hdistinct : (entries.map (·.1.name)).Nodup) {seen : List String}
    (hseen : ∀ entry ∈ entries, entry.1.name ∉ seen) {record record' : ρ}
    (h : enterFields entries record = .ok record') :
    shape.enterMembers (entries.map fun entry => (.text (writtenText entry.1.name), entry.2)) seen
        record = .ok ((entries.map (·.1.name)).reverse ++ seen, record') := by
  induction entries generalizing seen record with
  | nil => cases h; rfl
  | cons entry entries ih =>
    obtain ⟨field, value⟩ := entry
    obtain ⟨hfield, hentries⟩ := List.forall_mem_cons.1 hentries
    obtain ⟨hnew, hseen⟩ := List.forall_mem_cons.1 hseen
    rw [List.map_cons, List.nodup_cons] at hdistinct
    obtain ⟨entered, henter, h⟩ := bind_eq_ok h
    have hnext : ∀ entry ∈ entries, entry.1.name ∉ field.name :: seen := by
      intro entry hentry hmem
      rcases List.mem_cons.1 hmem with heq | hmem
      · exact hdistinct.1 (heq ▸ List.mem_map_of_mem hentry)
      · exact hseen entry hentry hmem
    have hrest := ih hentries hdistinct.2 hnext h
    have hkey : decodeKey (.text (writtenText field.name)) = .ok field.name := rfl
    have hcontains : seen.contains field.name = false := by simpa using hnew
    simp only [List.map_cons]
    rw [enterMembers, hkey]
    simp only [Bind.bind, Except.bind, field?_eq_some hnodup hfield, hcontains, henter]
    rw [if_neg (by simp), hrest]
    simp

/-- A record that is written with all its fields in order is decoded by entering their values. -/
theorem decode_object {members : List (String × Value)}
    (hnames : members.map (·.1) = shape.fields.map (·.name))
    (hnodup : (shape.fields.map (·.name)).Nodup) {record : ρ}
    (h : enterFields (shape.fields.zip (members.map (·.2.doc))) shape.blank = .ok record) :
    shape.decode (Value.object members).doc = .ok record := by
  generalize hentries : shape.fields.zip (members.map (·.2.doc)) = entries at h
  have hfields : entries.map (·.1) = shape.fields := by
    have hlength := congrArg List.length hnames
    simp only [List.length_map] at hlength
    rw [← hentries, List.map_fst_zip (by simp [hlength])]
  have hmembers : Value.memberDocs members =
      entries.map fun entry => (.text (writtenText entry.1.name), entry.2) := by
    have hzip : members.map (fun member => (member.1, member.2.doc)) =
        entries.map fun entry => (entry.1.name, entry.2) := by
      rw [← List.zip_map', hnames, List.zip_map_left, hentries]
      rfl
    rw [Value.memberDocs_eq_map]
    have htexts := congrArg (List.map fun (p : String × Doc) => (Doc.text (writtenText p.1), p.2)) hzip
    simpa [Function.comp_def] using htexts
  have hseen : entries.map (·.1.name) = shape.fields.map (·.name) := by
    rw [← hfields, List.map_map]
    rfl
  have henter := enterMembers_fields hnodup (fun entry hentry => hfields ▸ List.mem_map_of_mem hentry)
    (hseen ▸ hnodup) (fun _ _ => List.not_mem_nil) h
  have hrequired : shape.checkRequired ((entries.map (·.1.name)).reverse ++ []) = .ok () := by
    rw [checkRequired, List.find?_eq_none.2]
    intro field hfield
    simp [hseen, List.mem_map_of_mem hfield]
  rw [Value.doc, decode, hmembers, henter]
  simp only [Bind.bind, Except.bind, hrequired]
  rfl

end Shape

theorem decodeList_array {decode : Decoder α} {encode : α → Value} {items : List α}
    (h : ∀ item ∈ items, decode (encode item).doc = .ok item) :
    decodeList decode (Value.array (items.map encode)).doc = .ok items := by
  have hitems : (items.map fun item => (encode item).doc).mapM decode = .ok items := by
    rw [List.mapM_map]
    exact (mapM_eq_ok h).trans (congrArg Except.ok (List.map_id items))
  rw [Value.doc, decodeList, Value.itemDocs_eq_map, List.map_map]
  exact (congrArg (· >>= _) hitems).trans rfl

theorem decodeTagged_member {tags : List (String × Decoder α)} {name : String} {decode : Decoder α}
    (htag : tags.lookup name = some decode) {value : Doc} {a : α} (h : decode value = .ok a) :
    decodeTagged tags (.object [(.text (writtenText name), value)] none) = .ok a := by
  have hname : textNamed "variant identifier" (.text (writtenText name)) = .ok name := rfl
  simp only [decodeTagged, hname, Bind.bind, Except.bind, htag, h]
  rfl

end Json

/-! ## Modules -/

open Json

theorem decodeText_doc (content : String) : decodeText (Value.text content).doc = .ok content := rfl

theorem decodeBool_doc (value : Bool) : decodeBool (Value.bool value).doc = .ok value := rfl

/-- A path that is UTF-8. -/
def Path.IsUtf8 (path : Path) : Prop := path.raw.text?.isSome = true

instance (path : Path) : Decidable path.IsUtf8 :=
  inferInstanceAs (Decidable (path.raw.text?.isSome = true))

/-- Such a path is what its text stands for. -/
theorem Path.IsUtf8.ofText_text {path : Path} (h : path.IsUtf8) : ofText path.text = path := by
  obtain ⟨content, hcontent⟩ := Option.isSome_iff_exists.1 h
  obtain ⟨raw⟩ := path
  obtain rfl : raw = .ofText content := RawText.text?_eq_some_iff.1 hcontent
  exact congrArg ofText (RawText.shown_ofText content)

theorem decodePath_encode {path : Path} (h : path.IsUtf8) :
    decodePath path.encode.doc = .ok path :=
  congrArg Except.ok h.ofText_text

theorem decodeCoordinate_render {c : Coordinate} (h : c.IsWritable) :
    decodeCoordinate (Value.text c.render).doc = .ok c := by
  have hparse := Coordinate.parse_render h
  simp only [decodeCoordinate, decodeText_doc, Bind.bind, Except.bind, hparse]
  rfl

theorem Dependency.decode_encode {dependency : Dependency}
    (h : ∀ c, dependency.library? = some c → c.IsWritable) :
    decodeDependency dependency.encode.doc = .ok dependency := by
  cases dependency with
  | onModule id => exact decodeTagged_member rfl (congrArg (onModule <$> ·) (decodeText_doc id))
  | onLibrary library =>
    exact decodeTagged_member rfl (congrArg (onLibrary <$> ·) (decodeCoordinate_render (h library rfl)))

theorem ResolvedLibrary.decode_encode {library : ResolvedLibrary}
    (h : library.coordinate.IsWritable) (hpaths : ∀ path ∈ library.artifacts, path.IsUtf8) :
    shape.decode library.encode.doc = .ok library := by
  refine Shape.decode_object rfl (by decide) ?_
  have hrequesters : decodeList decodeText (Value.texts library.requestedBy).doc =
      .ok library.requestedBy := decodeList_array fun name _ => decodeText_doc name
  have hartifacts : decodeList decodePath (Value.array (library.artifacts.map Path.encode)).doc =
      .ok library.artifacts := decodeList_array fun path hmem => decodePath_encode (hpaths path hmem)
  simp only [shape, List.map_cons, List.map_nil, List.zip_cons_cons]
  rw [enterFields_required (decodeCoordinate_render h), enterFields_optional hrequesters,
    enterFields_optional hartifacts]
  rfl

theorem Configuration.decode_encode {c : Configuration}
    (hlibraries : ∀ library ∈ c.libraries, library.IsWritable)
    (hresolved : ∀ library ∈ c.resolved, library.coordinate.IsWritable)
    (hpaths : ∀ library ∈ c.resolved, ∀ path ∈ library.artifacts, path.IsUtf8) :
    shape.decode c.encode.doc = .ok c := by
  refine Shape.decode_object rfl (by decide) ?_
  have hdependencies : decodeList decodeDependency
      (Value.array (c.dependencies.map Dependency.encode)).doc = .ok c.dependencies :=
    decodeList_array fun dependency hmem => Dependency.decode_encode fun library hlibrary =>
      hlibraries library (List.mem_filterMap.2 ⟨dependency, hmem, hlibrary⟩)
  have hlist : decodeList ResolvedLibrary.shape.decode
      (Value.array (c.resolved.map ResolvedLibrary.encode)).doc = .ok c.resolved :=
    decodeList_array fun library hmem =>
      ResolvedLibrary.decode_encode (hresolved library hmem) (hpaths library hmem)
  simp only [shape, List.map_cons, List.map_nil, List.zip_cons_cons]
  rw [enterFields_required (decodeText_doc c.name),
    enterFields_optional (decodeBool_doc c.canBeResolved), enterFields_optional hdependencies,
    enterFields_optional hlist]
  rfl

namespace BuildModule

/-- The paths in a module that are meant relative to its manifest. -/
def locations (m : BuildModule) : List Path :=
  m.directory :: m.configurations.flatMap fun c => c.resolved.flatMap (·.artifacts)

/-- All paths in a module. -/
def paths (m : BuildModule) : List Path := m.sourceRoots ++ m.locations

theorem mem_locations {m : BuildModule} {c : Configuration} (hc : c ∈ m.configurations)
    {library : ResolvedLibrary} (hlibrary : library ∈ c.resolved) {path : Path}
    (hpath : path ∈ library.artifacts) : path ∈ m.locations :=
  List.mem_cons_of_mem _
    (List.mem_flatMap.2 ⟨c, hc, List.mem_flatMap.2 ⟨library, hlibrary, hpath⟩⟩)

theorem decode_encode {m : BuildModule} (h : ∀ c ∈ m.coordinates, c.IsWritable)
    (hpaths : ∀ path ∈ m.paths, path.IsUtf8) : shape.decode m.encode.doc = .ok m := by
  refine Shape.decode_object rfl (by decide) ?_
  have hroots : decodeList decodePath (Value.array (m.sourceRoots.map Path.encode)).doc =
      .ok m.sourceRoots :=
    decodeList_array fun path hmem => decodePath_encode (hpaths path (List.mem_append_left _ hmem))
  have hdirectory : m.directory.IsUtf8 :=
    hpaths _ (List.mem_append_right _ List.mem_cons_self)
  have hconfigurations : decodeList Configuration.shape.decode
      (Value.array (m.configurations.map Configuration.encode)).doc = .ok m.configurations :=
    decodeList_array fun c hc => Configuration.decode_encode
      (fun library hl => h library (List.mem_flatMap.2 ⟨c, hc, List.mem_append_left _ hl⟩))
      (fun library hl => h _ (List.mem_flatMap.2
        ⟨c, hc, List.mem_append_right _ (List.mem_map_of_mem hl)⟩))
      (fun library hl path hpath =>
        hpaths path (List.mem_append_right _ (mem_locations hc hl hpath)))
  simp only [shape, List.map_cons, List.map_nil, List.zip_cons_cons]
  rw [enterFields_required (decodeText_doc m.id)]
  refine (enterFields_optional (a := m.displayName) ?_ _ _).trans ?_
  · cases m.displayName <;> rfl
  · rw [enterFields_optional (decodeText_doc m.group), enterFields_optional (decodeText_doc m.name),
      enterFields_optional (decodeText_doc m.version),
      enterFields_required (decodePath_encode hdirectory), enterFields_optional hroots,
      enterFields_optional hconfigurations]
    rfl

end BuildModule

/-! ## Texts -/

theorem isTextual_map {α : Type} {encode : α → Value} (h : ∀ a, (encode a).IsTextual) (items : List α) :
    (Value.array (items.map encode)).IsTextual := by
  refine .array fun value hvalue => ?_
  obtain ⟨item, -, rfl⟩ := List.mem_map.1 hvalue
  exact h item

theorem Path.isTextual_encode (path : Path) : path.encode.IsTextual := .text path.text

theorem Dependency.isTextual_encode (dependency : Dependency) : dependency.encode.IsTextual := by
  cases dependency <;> exact .object (by simp [Value.IsTextual.text])

theorem ResolvedLibrary.isTextual_encode (library : ResolvedLibrary) :
    library.encode.IsTextual := by
  refine .object ?_
  simp only [List.forall_mem_cons]
  exact ⟨.text _, isTextual_map .text _, isTextual_map Path.isTextual_encode _, by simp⟩

theorem Configuration.isTextual_encode (c : Configuration) : c.encode.IsTextual := by
  refine .object ?_
  simp only [List.forall_mem_cons]
  exact ⟨.text _, .bool _, isTextual_map Dependency.isTextual_encode _,
    isTextual_map ResolvedLibrary.isTextual_encode _, by simp⟩

theorem BuildModule.isTextual_encode (m : BuildModule) : m.encode.IsTextual := by
  refine .object ?_
  simp only [List.forall_mem_cons]
  refine ⟨.text _, ?_, .text _, .text _, .text _, .text _, isTextual_map Path.isTextual_encode _,
    isTextual_map Configuration.isTextual_encode _, by simp⟩
  cases m.displayName
  · exact .null
  · exact .text _

theorem map_eq_self {α : Type} {f : α → α} {items : List α} (h : ∀ item ∈ items, f item = item) :
    items.map f = items :=
  (List.map_congr_left h).trans (List.map_id items)

namespace Manifest

theorem isTextual_encode (manifest : Manifest) : manifest.encode.IsTextual := by
  refine .object ?_
  simp only [List.forall_mem_cons]
  exact ⟨isTextual_map BuildModule.isTextual_encode _, by simp⟩

theorem decode_encode {manifest : Manifest}
    (h : ∀ m ∈ manifest.modules, ∀ c ∈ m.coordinates, c.IsWritable)
    (hutf8 : ∀ m ∈ manifest.modules, ∀ path ∈ m.paths, path.IsUtf8) :
    shape.decode manifest.encode.doc = .ok manifest := by
  refine Shape.decode_object rfl (by decide) ?_
  have hmodules : decodeList BuildModule.shape.decode
      (Value.array (manifest.modules.map BuildModule.encode)).doc = .ok manifest.modules :=
    decodeList_array fun m hm => BuildModule.decode_encode (h m hm) (hutf8 m hm)
  simp only [shape, List.map_cons, List.map_nil, List.zip_cons_cons]
  rw [enterFields_required hmodules]
  rfl

/-! ## Paths -/

variable {base : Path}

theorem rebasePath_eq {path : Path} (h : base.raw = "" ∨ path.isAbsolute = true) :
    rebasePath base path = path := by
  rw [rebasePath]
  split_ifs with habsolute
  · rfl
  · rw [Path.join, if_pos (by simp [h.resolve_right habsolute])]

/-- An empty base and absolute paths leave a module as it is. -/
theorem rebaseModule_eq {m : BuildModule}
    (h : base.raw = "" ∨ ∀ path ∈ m.locations, path.isAbsolute = true) : rebaseModule base m = m := by
  have hpath : ∀ path ∈ m.locations, rebasePath base path = path :=
    fun path hpath => rebasePath_eq (h.imp_right fun h => h path hpath)
  have hartifacts : ∀ c ∈ m.configurations, ∀ library ∈ c.resolved,
      library.artifacts.map (rebasePath base) = library.artifacts := by
    intro c hc library hlibrary
    exact map_eq_self fun path hartifact =>
      hpath path (BuildModule.mem_locations hc hlibrary hartifact)
  have hconfigurations : m.configurations.map (rebaseConfiguration base) = m.configurations := by
    refine map_eq_self fun c hc => ?_
    have hresolved : c.resolved.map (rebaseLibrary base) = c.resolved :=
      map_eq_self fun library hlibrary => by rw [rebaseLibrary, hartifacts c hc library hlibrary]
    rw [rebaseConfiguration, hresolved]
  rw [rebaseModule, hpath m.directory List.mem_cons_self, hconfigurations]

/-! ## Ids -/

theorem repeatedId?_eq_none {seen : List String} {modules : List BuildModule}
    (hnodup : (modules.map (·.id)).Nodup) (hseen : ∀ m ∈ modules, m.id ∉ seen) :
    repeatedId? seen modules = none := by
  induction modules generalizing seen with
  | nil => rfl
  | cons m modules ih =>
    obtain ⟨hm, hseen⟩ := List.forall_mem_cons.1 hseen
    rw [List.map_cons, List.nodup_cons] at hnodup
    rw [repeatedId?, if_neg (by simpa using hm)]
    refine ih hnodup.2 fun n hn hmem => ?_
    rcases List.mem_cons.1 hmem with heq | hmem
    · exact hnodup.1 (heq ▸ List.mem_map_of_mem hn)
    · exact hseen n hn hmem

/-- The id that is found is the first that an earlier module has already. -/
theorem exists_of_repeatedId? {seen : List String} {modules : List BuildModule} {id : String}
    (h : repeatedId? seen modules = some id) :
    ∃ before m after, modules = before ++ m :: after ∧ m.id = id ∧ (before.map (·.id)).Nodup ∧
      (∀ n ∈ before, n.id ∉ seen) ∧ (m.id ∈ before.map (·.id) ∨ m.id ∈ seen) := by
  induction modules generalizing seen with
  | nil => cases h
  | cons first modules ih =>
    rw [repeatedId?] at h
    split_ifs at h with hfirst
    · cases h
      exact ⟨[], first, modules, rfl, rfl, by simp, by simp, Or.inr (by simpa using hfirst)⟩
    · obtain ⟨before, m, after, rfl, hid, hnodup, hnew, hmem⟩ := ih h
      refine ⟨first :: before, m, after, rfl, hid, ?_, ?_, ?_⟩
      · rw [List.map_cons, List.nodup_cons]
        refine ⟨fun hmem => ?_, hnodup⟩
        obtain ⟨n, hn, heq⟩ := List.mem_map.1 hmem
        exact hnew n hn (heq ▸ List.mem_cons_self)
      · refine List.forall_mem_cons.2 ⟨by simpa using hfirst, fun n hn hmem => ?_⟩
        exact hnew n hn (List.mem_cons_of_mem _ hmem)
      · rcases hmem with hmem | hmem
        · exact Or.inl (List.mem_cons_of_mem _ hmem)
        · rcases List.mem_cons.1 hmem with heq | hmem
          · exact Or.inl (heq ▸ List.mem_cons_self)
          · exact Or.inr hmem

theorem parse_of_tokens {modules : List BuildModule} {base : Path} {text : String}
    (hcoordinates : ∀ m ∈ modules, ∀ c ∈ m.coordinates, c.IsWritable)
    (hutf8 : ∀ m ∈ modules, ∀ path ∈ m.paths, path.IsUtf8)
    (htext : Json.tokens text = Json.tokens (encode ⟨modules⟩).render) :
    parse text base = ofModules (modules.map (rebaseModule base)) := by
  have hdocument : decodeDocument shape.decode text = .ok ⟨modules⟩ := by
    rw [decodeDocument, (isTextual_encode ⟨modules⟩).parse_of_tokens htext,
      decode_encode hcoordinates hutf8]
    rfl
  rw [parse, hdocument]

end Manifest

open Manifest

/-- **Modules are read back from the text that they are written as.** The text may be any one with
the tokens of the compact text. -/
theorem parse_encoded_manifest {modules : List BuildModule} {base : Path} {text : String}
    (hcoordinates : ∀ m ∈ modules, ∀ c ∈ m.coordinates, c.IsWritable)
    (hutf8 : ∀ m ∈ modules, ∀ path ∈ m.paths, path.IsUtf8)
    (hpaths : base.raw = "" ∨ ∀ m ∈ modules, ∀ path ∈ m.locations, path.isAbsolute = true)
    (htext : Json.tokens text = Json.tokens (Manifest.encode ⟨modules⟩).render) :
    ((modules.map (·.id)).Nodup → Manifest.parse text base = .ok ⟨modules⟩) ∧
      (¬(modules.map (·.id)).Nodup →
        ∃ before m after, modules = before ++ m :: after ∧ (before.map (·.id)).Nodup ∧
          m.id ∈ before.map (·.id) ∧ Manifest.parse text base = .error (.duplicate m.id)) := by
  have hrebase : modules.map (rebaseModule base) = modules :=
    map_eq_self fun m hm => rebaseModule_eq (hpaths.imp_right fun h => h m hm)
  rw [parse_of_tokens hcoordinates hutf8 htext, hrebase, ofModules]
  constructor
  · intro hnodup
    rw [repeatedId?_eq_none hnodup fun _ _ => List.not_mem_nil]
  · intro hrepeats
    cases hfound : repeatedId? [] modules with
    | none => exact absurd (nodup_of_repeatedId hfound).1 hrepeats
    | some id =>
      obtain ⟨before, m, after, hsplit, rfl, hnodup, -, hmem⟩ := exists_of_repeatedId? hfound
      exact ⟨before, m, after, hsplit, hnodup, hmem.resolve_right List.not_mem_nil, rfl⟩

/-! ## A manifest with all kinds of entries -/

namespace Written

def okio : Coordinate := ⟨"com.squareup.okio", "okio", "3.6.0"⟩

def app : BuildModule where
  id := ":app"
  displayName := some "the \"app\"\t\x01"
  group := "com.example"
  directory := ⟨"/work/app"⟩
  configurations := [{
    name := "implementation"
    canBeResolved := true
    dependencies := [.onModule ":core", .onLibrary okio]
    resolved := [{ coordinate := okio, requestedBy := ["com.example::"],
                   artifacts := [⟨"/libs/okio.jar"⟩] }] }]

def core : BuildModule := { id := ":core", directory := ⟨"/work/ü"⟩, sourceRoots := [] }

/-- Another module with the id of `app`. -/
def twin : BuildModule := { id := ":app", directory := ⟨"/work/twin"⟩ }

end Written

open Written in
theorem written_modules_read_back :
    Manifest.parse (Manifest.encode ⟨[app, core]⟩).render ⟨"build"⟩ = .ok ⟨[app, core]⟩ ∧
      Manifest.parse (Manifest.encode ⟨[app, twin, core]⟩).render ⟨""⟩ =
        .error (.duplicate ":app") := by
  constructor
  · exact (parse_encoded_manifest (by decide) (by decide +kernel) (Or.inr (by decide +kernel)) rfl).1
      (by decide)
  · have hread := parse_encoded_manifest (by decide : ∀ m ∈ [app, twin, core], _) (by decide +kernel)
      (Or.inl (rfl : (Path.mk "").raw = "")) rfl
    obtain ⟨before, m, after, hsplit, hnodup, hmem, hparse⟩ := hread.2 (by decide)
    rw [hparse]
    -- only the second module follows one with its id
    rcases before with _ | ⟨_, _ | ⟨_, _ | ⟨_, _⟩⟩⟩
    · cases hmem
    · cases hsplit
      rfl
    · cases hsplit
      exact absurd hnodup (by decide)
    · simp at hsplit

end DependencyLint
