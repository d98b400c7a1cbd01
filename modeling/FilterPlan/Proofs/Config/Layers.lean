import FilterPlan.Config.Layers
import FilterPlan.Proofs.Outcome
import FilterPlan.Proofs.Text.Trim

/-!
# Where a setting comes from

A document gives a setting where its section has the setting with a value other than `null` (`ConfigFile.States`). Of
the command line, the file put over the profile, the profile and the defaults, the first that gives a setting decides
(`Config.layered`), for each setting on its own; settings are refused only then (`Config.IsUsable`). The main result is
`Config.load_layered`.
-/

namespace FilterPlan

open Outcome (bind_eq_ok_iff)

/-! ## What a document gives -/

namespace Json

/-- The value of a field of a record with the given names, if the field is written. -/
def field? (names : List Text) (name : Text) : Json → Option Json
  | object members => members.lookup name
  | array items => (names.zip items).lookup name
  | _ => none

/-- The value, unless it is `null`. -/
def given? : Json → Option Json
  | null => none
  | v => some v

theorem option?_eq {α : Type} (decode? : Json → Option α) (v : Json) : v.option? decode? = v.given?.mapM decode? := by
  cases v <;> rfl

theorem lookup_filter {α : Type} {p : Text → Bool} {name : Text} (h : p name) : ∀ members : List (Text × α),
    (members.filter fun m => p m.1).lookup name = members.lookup name
  | [] => rfl
  | (n, v) :: members => by
    rw [List.filter_cons, List.lookup_cons]
    cases hn : name == n with
    | true =>
      obtain rfl := beq_iff_eq.mp hn
      rw [if_pos h, List.lookup_cons_self]
    | false =>
      rw [← lookup_filter h members]
      split
      · rw [List.lookup_cons, hn]
      · rfl

theorem lookup_of_fields? {names : List Text} {v : Json} {fields : Fields} {name : Text}
    (h : v.fields? names = some fields) (hn : name ∈ names) : fields.lookup name = v.field? names name := by
  cases v with
  | object members =>
    obtain ⟨-, he⟩ := Option.ite_none_right_eq_some.mp h
    cases he
    exact lookup_filter (List.contains_iff_mem.mpr hn) members
  | array items =>
    obtain ⟨-, he⟩ := Option.ite_none_right_eq_some.mp h
    cases he
    rfl
  | _ => cases h

/-- A field that may be left out or `null` is decoded where it is given. -/
theorem getD_option?_of_fields? {α : Type} {names : List Text} {v : Json} {fields : Fields} {name : Text}
    (h : v.fields? names = some fields) (hn : name ∈ names) (decode? : Json → Option α) :
    fields.getD name (option? decode?) none = ((v.field? names name).bind given?).mapM decode? := by
  rw [Fields.getD, lookup_of_fields? h hn]
  cases v.field? names name with
  | none => rfl
  | some w => exact option?_eq decode? w

end Json

namespace ConfigFile

/-- The value of a setting in a document, unless the setting or its section is left out or `null`. -/
def stated? (name : Text) (document : Json) : Option Json :=
  (sectionOf? document).bind fun v => (v.field? fieldNames name).bind Json.given?
where
  /-- The section with the settings, unless it is left out or `null`. -/
  sectionOf? (document : Json) : Option Json := (document.field? [sectionName] sectionName).bind Json.given?

/-- The settings are those that the document states; it gives no others. -/
structure States (document : Json) (settings : ConfigFile) : Prop where
  verifiedSeals : (stated? "verified_seal_ids" document).mapM (Json.list? Json.nat?) = some settings.verifiedSeals?
  defaultOrder : (stated? "default_order" document).mapM Json.text? = some settings.defaultOrder?
  implicitSelect : (stated? "implicit_select" document).mapM (Json.list? Json.text?) = some settings.implicitSelect?
  maxLimit : (stated? "max_limit" document).mapM Json.nat? = some settings.maxLimit?
  maxFilters : (stated? "max_filters" document).mapM Json.nat? = some settings.maxFilters?

/-- A section gives what it states, and without a section there is nothing. -/
theorem states_of_sectionOf? {document : Json} {settings? : Option ConfigFile}
    (h : (stated?.sectionOf? document).mapM ofSection? = some settings?) : States document (settings?.getD {}) := by
  cases hs : stated?.sectionOf? document with
  | none =>
    rw [hs] at h
    cases h
    have hstated : ∀ name, stated? name document = none := fun name => by
      rw [stated?, hs]
      rfl
    constructor <;> rw [hstated] <;> rfl
  | some v =>
    rw [hs] at h
    obtain ⟨settings, hv, rfl⟩ := Option.map_eq_some_iff.mp h
    have hstated : ∀ name, stated? name document = (v.field? fieldNames name).bind Json.given? := fun name => by
      rw [stated?, hs]
      rfl
    unfold ofSection? at hv
    split at hv
    · cases hv
    simp only [Option.bind_eq_bind, Option.bind_eq_some_iff] at hv
    obtain ⟨fields, hf, seals?, hseals, order?, horder, select?, hselect, limit?, hlimit, filters?, hfilters, he⟩ := hv
    cases he
    constructor
    · rw [hstated, ← Json.getD_option?_of_fields? hf (by decide), hseals, Option.getD_some]
    · rw [hstated, ← Json.getD_option?_of_fields? hf (by decide), horder, Option.getD_some]
    · rw [hstated, ← Json.getD_option?_of_fields? hf (by decide), hselect, Option.getD_some]
    · rw [hstated, ← Json.getD_option?_of_fields? hf (by decide), hlimit, Option.getD_some]
    · rw [hstated, ← Json.getD_option?_of_fields? hf (by decide), hfilters, Option.getD_some]

theorem lookup_sectionName (members : List (Text × Json)) :
    members.lookup sectionName = ((members.filter fun m => m.1 == sectionName).head?).map Prod.snd := by
  rw [← Json.lookup_filter (p := (· == sectionName)) (beq_self_eq_true sectionName)]
  cases h : members.filter fun m => m.1 == sectionName with
  | nil => rfl
  | cons m rest =>
    have hm : m.1 = sectionName := beq_iff_eq.mp (List.mem_filter.mp (h ▸ List.mem_cons_self : m ∈ _)).2
    obtain ⟨n, v⟩ := m
    cases hm
    exact List.lookup_cons_self

/-- A file gives what its document states. -/
theorem states_of_ofJson? {document : Json} {settings : ConfigFile} (h : ofJson? document = some settings) :
    States document settings := by
  cases document with
  | object members =>
    have hsection : stated?.sectionOf? (.object members) =
        (((members.filter fun m => m.1 == sectionName).head?).map Prod.snd).bind Json.given? :=
      congrArg (·.bind Json.given?) (lookup_sectionName members)
    simp only [ofJson?, List.partition_eq_filter_filter] at h
    obtain ⟨-, h⟩ := Option.ite_none_right_eq_some.mp h
    split at h
    · next he =>
      cases h
      have hnone : (stated?.sectionOf? (.object members)).mapM ofSection? = some none := by
        rw [hsection, he]
        rfl
      exact states_of_sectionOf? hnone
    · next n v he =>
      obtain ⟨settings?, hv, rfl⟩ := Option.map_eq_some_iff.mp h
      refine states_of_sectionOf? ?_
      rw [hsection, he, ← hv, Json.option?_eq]
      rfl
    · cases h
  | _ => cases h

/-! ## What a path gives -/

/-- What a path gives: nothing where there is none or nothing stands, and the settings of a file that can be read. -/
inductive IsAt (files : Files) : Option Text → ConfigFile → Prop
  | nowhere : IsAt files none {}
  | missing {path : Text} (h : files.entry? path = none) : IsAt files (some path) {}
  | file {path text : Text} {settings : ConfigFile} (ht : files.entry? path = some (.file text))
      (hs : (Json.ofText? text).bind ofJson? = some settings) : IsAt files (some path) settings

theorem load_eq_ok_iff {files : Files} {path : Text} {settings : ConfigFile} : load files path = .ok settings ↔
    ∃ text, files.entry? path = some (.file text) ∧ (Json.ofText? text).bind ofJson? = some settings := by
  constructor
  · intro h
    unfold load at h
    split at h
    · cases h
    · next text ht =>
      split at h
      · next s hs =>
        cases h
        unfold Files.text? at ht
        split at ht
        · next t he =>
          cases ht
          exact ⟨_, he, hs⟩
        · cases ht
      · cases h
  · rintro ⟨text, ht, hs⟩
    have htext : files.text? path = some text := by rw [Files.text?, ht]
    simp only [load, htext, hs]

end ConfigFile

/-! ## The first source that gives a setting -/

/-- The first value that a source gives. -/
def firstGiven? {α : Type} (sources : List (Option α)) : Option α :=
  sources.findSome? id

theorem firstGiven?_cons {α : Type} (source : Option α) (sources : List (Option α)) :
    firstGiven? (source :: sources) = (source <|> firstGiven? sources) := by
  cases source <;> rfl

namespace Config

/-- Each setting from the first source that gives it: the command line, the file over the profile, the profile. The
command line cannot give which properties are always selected, nor the number of filters. -/
def layered (overrides : Overrides) (upper profile : ConfigFile) : Config where
  verifiedSeals := (firstGiven? [overrides.verifiedSeals?, upper.verifiedSeals?, profile.verifiedSeals?]).getD []
  defaultOrder := (firstGiven? [overrides.defaultOrder?, upper.defaultOrder?, profile.defaultOrder?]).getD "id ASC"
  implicitSelect := (firstGiven? [upper.implicitSelect?, profile.implicitSelect?]).getD ["publicLocation"]
  maxLimit? := firstGiven? [overrides.maxLimit?, upper.maxLimit?, profile.maxLimit?]
  maxFilters := (firstGiven? [upper.maxFilters?, profile.maxFilters?]).getD 50

theorem layer_overlay (overrides : Overrides) (upper profile : ConfigFile) :
    layer ((ConfigFile.overlay {} profile).overlay upper) overrides = layered overrides upper profile := by
  simp only [layer, layered, ConfigFile.overlay, firstGiven?_cons]
  rfl

/-- Requests could work with the settings. -/
structure IsUsable (config : Config) : Prop where
  order : ∃ c ∈ config.defaultOrder, Text.isBlank c = false
  filters : 0 < config.maxFilters
  rows : config.maxLimit? ≠ some 0

theorem validate_eq_ok_iff {config result : Config} : validate config = .ok result ↔ result = config ∧ config.IsUsable := by
  have horder : config.defaultOrder.trim.isEmpty = false ↔ ∃ c ∈ config.defaultOrder, Text.isBlank c = false := by
    rw [List.isEmpty_eq_false_iff, Ne, Text.trim_eq_nil_iff]
    simp
  unfold validate
  constructor
  · intro h
    split at h
    · cases h
    · next ho =>
      split at h
      · cases h
      · next hf =>
        split at h
        · cases h
        · next hr =>
          cases h
          exact ⟨rfl, horder.mp (Bool.eq_false_iff.mpr ho), Nat.pos_of_ne_zero hf, hr⟩
  · rintro ⟨rfl, ho, hf, hr⟩
    rw [if_neg (Bool.eq_false_iff.mp (horder.mpr ho)), if_neg hf.ne', if_neg hr]

/-! ## Loading -/

/-- What is put over the profile: the file named on the command line, which must exist, or else what the local path
gives. -/
inductive IsUpper (files : Files) (home? : Option Text) (overrides : Overrides) : ConfigFile → Prop
  | named {path : Text} {settings : ConfigFile} (hp : overrides.path? = some path)
      (he : files.hasEntry (Files.expandHome home? path))
      (hs : ConfigFile.IsAt files (some (Files.expandHome home? path)) settings) :
      IsUpper files home? overrides settings
  | unnamed {settings : ConfigFile} (hp : overrides.path? = none)
      (hs : ConfigFile.IsAt files (some fileName) settings) : IsUpper files home? overrides settings

theorem withFile_eq_ok_iff (files : Files) (path? : Option Text) (lower : ConfigFile) {settings : ConfigFile} :
    withFile files lower (path?.filter files.hasEntry) = .ok settings ↔
      ∃ upper, ConfigFile.IsAt files path? upper ∧ settings = lower.overlay upper := by
  cases path? with
  | none =>
    constructor
    · intro h
      cases h
      exact ⟨{}, .nowhere, rfl⟩
    · rintro ⟨upper, hu, rfl⟩
      cases hu
      rfl
  | some path =>
    rw [Option.filter_some, Files.hasEntry]
    cases he : files.entry? path with
    | none =>
      constructor
      · intro h
        cases h
        exact ⟨{}, .missing he, rfl⟩
      · rintro ⟨upper, hu, rfl⟩
        cases hu with
        | missing => rfl
        | file ht => exact nomatch he.symm.trans ht
    | some entry =>
      rw [Option.isSome_some, if_pos rfl, withFile, Outcome.map_eq_ok_iff]
      refine exists_congr fun upper => and_congr ?_ eq_comm
      rw [ConfigFile.load_eq_ok_iff]
      constructor
      · rintro ⟨text, ht, hs⟩
        exact .file ht hs
      · intro hu
        cases hu with
        | missing h => exact nomatch he.symm.trans h
        | file ht hs => exact ⟨_, ht, hs⟩

theorem withUpper_eq_ok_iff {files : Files} {home? : Option Text} {overrides : Overrides} (lower : ConfigFile)
    {settings : ConfigFile} :
    (overlayPath? files home? overrides >>= withFile files lower) = .ok settings ↔
      ∃ upper, IsUpper files home? overrides upper ∧ settings = lower.overlay upper := by
  unfold overlayPath?
  cases hp : overrides.path? with
  | none =>
    refine (withFile_eq_ok_iff files (some fileName) lower).trans (exists_congr fun upper => and_congr_left fun _ => ?_)
    refine ⟨.unnamed hp, fun hu => ?_⟩
    cases hu with
    | named h => exact nomatch hp.symm.trans h
    | unnamed _ hs => exact hs
  | some path =>
    have hnamed : ∀ {upper}, IsUpper files home? overrides upper → files.hasEntry (Files.expandHome home? path) ∧
        ConfigFile.IsAt files (some (Files.expandHome home? path)) upper := by
      intro upper hu
      cases hu with
      | named h he hs =>
        cases hp.symm.trans h
        exact ⟨he, hs⟩
      | unnamed h => exact nomatch hp.symm.trans h
    by_cases he : files.hasEntry (Files.expandHome home? path)
    · have hfile := @withFile_eq_ok_iff files (some (Files.expandHome home? path)) lower settings
      rw [Option.filter_some, if_pos he] at hfile
      simp only [he, if_true]
      refine hfile.trans (exists_congr fun upper => and_congr_left fun _ => ?_)
      exact ⟨.named hp he, fun hu => (hnamed hu).2⟩
    · simp only [he]
      constructor
      · exact nofun
      · rintro ⟨upper, hu, -⟩
        exact absurd (hnamed hu).1 he

/-- One file is put over the other, then the command line over both. -/
theorem load_eq (files : Files) (home? : Option Text) (overrides : Overrides) : load files home? overrides =
    withFile files {} ((profilePath? home?).filter files.hasEntry) >>= fun lower =>
      (overlayPath? files home? overrides >>= withFile files lower) >>= fun settings =>
        validate (layer settings overrides) := by
  simp only [load, bind_assoc]

/-- Where all files can be read, it only matters whether the settings that they and the command line give are usable. -/
theorem load_eq_validate {files : Files} {home? : Option Text} {overrides : Overrides} {profile upper : ConfigFile}
    (hp : ConfigFile.IsAt files (profilePath? home?) profile) (hu : IsUpper files home? overrides upper) :
    load files home? overrides = validate (layered overrides upper profile) := by
  rw [load_eq, (withFile_eq_ok_iff files (profilePath? home?) {}).mpr ⟨profile, hp, rfl⟩]
  show (overlayPath? files home? overrides >>= withFile files (ConfigFile.overlay {} profile)) >>= _ = _
  rw [(withUpper_eq_ok_iff (ConfigFile.overlay {} profile)).mpr ⟨upper, hu, rfl⟩]
  show validate (layer ((ConfigFile.overlay {} profile).overlay upper) overrides) = _
  rw [layer_overlay]

theorem load_eq_ok_iff {files : Files} {home? : Option Text} {overrides : Overrides} {config : Config} :
    load files home? overrides = .ok config ↔
      ∃ profile upper, ConfigFile.IsAt files (profilePath? home?) profile ∧ IsUpper files home? overrides upper ∧
        config = layered overrides upper profile ∧ config.IsUsable := by
  constructor
  · intro h
    have hload := h
    rw [load_eq] at h
    obtain ⟨lower, hl, h⟩ := bind_eq_ok_iff.mp h
    obtain ⟨settings, hs, -⟩ := bind_eq_ok_iff.mp h
    obtain ⟨profile, hp, -⟩ := (withFile_eq_ok_iff files (profilePath? home?) {}).mp hl
    obtain ⟨upper, hu, -⟩ := (withUpper_eq_ok_iff lower).mp hs
    rw [load_eq_validate hp hu] at hload
    obtain ⟨rfl, husable⟩ := validate_eq_ok_iff.mp hload
    exact ⟨profile, upper, hp, hu, rfl, husable⟩
  · rintro ⟨profile, upper, hp, hu, rfl, husable⟩
    rw [load_eq_validate hp hu]
    exact validate_eq_ok_iff.mpr ⟨rfl, husable⟩

theorem withFile_congr {files files' : Files} {path : Text} (h : files'.entry? path = files.entry? path)
    (settings : ConfigFile) : withFile files' settings (some path) = withFile files settings (some path) := by
  have htext : files'.text? path = files.text? path := by rw [Files.text?, h, Files.text?]
  rw [withFile, withFile, ConfigFile.load, ConfigFile.load, htext]

/-- With a file named on the command line, no file counts but this one and the profile. -/
theorem load_congr {files files' : Files} {home? : Option Text} {path : Text} {overrides : Overrides}
    (h : overrides.path? = some path)
    (hprofile : ∀ p ∈ profilePath? home?, files'.entry? p = files.entry? p)
    (hnamed : files'.entry? (Files.expandHome home? path) = files.entry? (Files.expandHome home? path)) :
    load files' home? overrides = load files home? overrides := by
  have hlower : withFile files' {} ((profilePath? home?).filter files'.hasEntry) =
      withFile files {} ((profilePath? home?).filter files.hasEntry) := by
    cases hp : profilePath? home? with
    | none => rfl
    | some profile =>
      have hsame := hprofile profile hp
      rw [Option.filter_some, Option.filter_some, Files.hasEntry, hsame, ← Files.hasEntry]
      split
      · exact withFile_congr hsame {}
      · rfl
  have hupper : ∀ lower, (overlayPath? files' home? overrides >>= withFile files' lower) =
      overlayPath? files home? overrides >>= withFile files lower := by
    intro lower
    simp only [overlayPath?, h]
    rw [Files.hasEntry, hnamed, ← Files.hasEntry]
    split
    · exact withFile_congr hnamed lower
    · rfl
  rw [load_eq, load_eq, hlower]
  simp only [hupper]

/-- **The first source decides.** If the files can be read, each setting is that of the first source that gives it, and
all that matters is whether these settings are usable; there are settings in no other case. With a file named on the
command line, the local one has no effect. And a document gives just what it states: what it leaves out, or has `null`
for, is left to the sources behind it. All this holds without a home folder too, where the profile gives nothing. -/
theorem load_layered (files : Files) (home? : Option Text) (overrides : Overrides) :
    (∀ profile upper, ConfigFile.IsAt files (profilePath? home?) profile → IsUpper files home? overrides upper →
      load files home? overrides = validate (layered overrides upper profile)) ∧
    (∀ config, load files home? overrides = .ok config ↔
      ∃ profile upper, ConfigFile.IsAt files (profilePath? home?) profile ∧ IsUpper files home? overrides upper ∧
        config = layered overrides upper profile ∧ config.IsUsable) ∧
    (∀ path (files' : Files), overrides.path? = some path →
      (∀ p ∈ (profilePath? home?).toList ++ [Files.expandHome home? path], files'.entry? p = files.entry? p) →
      load files' home? overrides = load files home? overrides) ∧
    ∀ document settings, ConfigFile.ofJson? document = some settings → settings.States document := by
  refine ⟨fun _ _ => load_eq_validate, fun _ => load_eq_ok_iff, fun path files' h hsame => ?_,
    fun _ _ => ConfigFile.states_of_ofJson?⟩
  refine load_congr h (fun p hp => hsame p (List.mem_append_left _ (Option.mem_toList.mpr hp))) ?_
  exact hsame _ (List.mem_append_right _ List.mem_cons_self)

/-- Files that contradict each other: in the profile stands no value that could be used, and what `custom.json` has
`null` for is in the profile. The local file has the given text. -/
def contradicting (text : Text) : Files := .ofEntries
  [("/home/me/.apiquery/apiquery.json", .file
      "\x7b\"query\":\x7b\"verified_seal_ids\":[1],\"default_order\":\" \",\"max_limit\":0,\"max_filters\":0\x7d\x7d"),
    ("custom.json", .file "\x7b\"query\":\x7b\"verified_seal_ids\":null,\"max_limit\":20,\"max_filters\":7\x7d\x7d"),
    ("apiquery.json", .file text)]

/-- Each of the three sources gives something, and the defaults the rest; without any files and without a home folder the
defaults give everything. -/
theorem load_layered_contradicting :
    load (contradicting "no JSON") (some "/home/me") { path? := some "custom.json", defaultOrder? := some "name ASC" } =
      .ok { verifiedSeals := [1], defaultOrder := "name ASC", implicitSelect := ["publicLocation"],
            maxLimit? := some 20, maxFilters := 7 } ∧
    load (contradicting "[]") (some "/home/me") { path? := some "custom.json", defaultOrder? := some "name ASC" } =
      load (contradicting "no JSON") (some "/home/me") { path? := some "custom.json", defaultOrder? := some "name ASC" } ∧
    (∃ document, Json.ofText? "\x7b\"query\":\x7b\"max_limit\":null,\"max_filters\":7\x7d\x7d" = some document ∧
      ConfigFile.States document { maxFilters? := some 7 }) ∧
    load (.ofEntries []) none {} = .ok {} := by
  have hprofile : ConfigFile.IsAt (contradicting "no JSON") (profilePath? (some "/home/me"))
      { verifiedSeals? := some [1], defaultOrder? := some " ", maxLimit? := some 0, maxFilters? := some 0 } :=
    .file rfl (by decide +kernel)
  have hupper : IsUpper (contradicting "no JSON") (some "/home/me")
      { path? := some "custom.json", defaultOrder? := some "name ASC" }
      { maxLimit? := some 20, maxFilters? := some 7 } :=
    .named rfl (by decide) (.file rfl (by decide +kernel))
  have hnull : (Json.ofText? "\x7b\"query\":\x7b\"max_limit\":null,\"max_filters\":7\x7d\x7d").bind ConfigFile.ofJson? =
      some { maxFilters? := some 7 } := by decide +kernel
  refine ⟨?_, ?_, ?_, ?_⟩
  · rw [(load_layered (contradicting "no JSON") (some "/home/me") _).1 _ _ hprofile hupper]
    decide
  · refine (load_layered _ (some "/home/me") _).2.2.1 "custom.json" _ rfl fun p hp => ?_
    rcases List.mem_pair.mp hp with rfl | rfl
    · rfl
    · rfl
  · obtain ⟨document, ht, hs⟩ := Option.bind_eq_some_iff.mp hnull
    exact ⟨document, ht, (load_layered (.ofEntries []) none {}).2.2.2 document _ hs⟩
  · rw [(load_layered (.ofEntries []) none {}).1 {} {} .nowhere (.unnamed rfl (.missing rfl))]
    decide

end Config

end FilterPlan
