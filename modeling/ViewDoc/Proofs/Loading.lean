import ViewDoc.Proofs.DefaultEngine
import ViewDoc.Proofs.TomlReading

/-!
How the loading of a manifest ends.

What is wrong with a manifest is told apart from what merely keeps it from being loaded. Main
statement: loading gives a manifest where neither is the case, reports the one as a fault of the
manifest and lets the other through as it is; and an engine that is not made leaves nothing behind.
-/

namespace ViewDoc

namespace Manifest

def partNames : List String := ["renderer", "variables", "styles"]

/-- Whether a part of a document is a table, or left out. -/
def IsTable (data : Entries) (name : String) : Prop :=
  ∀ v, data.get? name = some v → ∃ entries, v = .map entries

/-- The log level that a document asks for. -/
def levelOf (data : Entries) : Value :=
  match data.get? "renderer" with
  | some (.map table) => (Table.get? table "log_level").getD (.text "WARNING")
  | _ => .text "WARNING"

def levelName (data : Entries) : String := String.ofList (Text.upper (levelOf data).plain.toList)

/-- Whether a file is the text of a document. -/
def Holds (file : Option ByteArray) (data : Entries) : Prop :=
  ∃ text : String, file = some text.toByteArray ∧ Toml.read text.toList = .ok data

/-- What can be wrong with a file as a manifest. -/
inductive Malformed (file : Option ByteArray) : ManifestFault → Prop
  | missing (hfile : file = none) : Malformed file .missing
  | invalid {text : String} (hfile : file = some text.toByteArray)
      (hread : Toml.read text.toList = .error .invalid) : Malformed file .invalid
  | notTable {data : Entries} {name : String} (hdata : Holds file data)
      (hname : name ∈ partNames) (htable : ¬ IsTable data name) : Malformed file (.notTable name)

/-- What keeps a file from being loaded and is not told as a fault of the manifest: bytes that are
no text, a number too long to be read, or a log level with a number too long to be written. -/
inductive Breaks (file : Option ByteArray) : Failure → Prop
  | notUnicode {bytes : ByteArray} (hfile : file = some bytes) (hbytes : ¬ bytes.IsValidUTF8) :
      Breaks file .notUnicode
  | longNumber {text : String} (hfile : file = some text.toByteArray)
      (hread : Toml.read text.toList = .error .tooManyDigits)
      (hlong : Toml.HasLong text.toList) : Breaks file .tooManyDigits
  | longLevel {data : Entries} (hdata : Holds file data)
      (hlevel : (levelOf data).isQuotable = false) : Breaks file .tooManyDigits

/-- What keeps an engine from being made: also a log level that there is not. -/
inductive BreaksEngine (file : Option ByteArray) : Failure → Prop
  | load {f : Failure} (h : Breaks file f) : BreaksEngine file f
  | level {data : Entries} (hdata : Holds file data) (hsound : ∀ fault, ¬ Malformed file fault)
      (hwhole : ∀ f, ¬ Breaks file f) (hlevel : levelName data ∉ LogLevel.names.map (·.1)) :
      BreaksEngine file .unknownLogLevel

/-- The ways in which loading a file can end, given what keeps it from being loaded. -/
inductive EndsAs {α : Type} (file : Option ByteArray) (breaks : Failure → Prop) :
    Except Failure α → Prop
  | ok (a : α) (hsound : ∀ fault, ¬ Malformed file fault) (hwhole : ∀ f, ¬ breaks f) :
      EndsAs file breaks (.ok a)
  | fault {fault : ManifestFault} (hfault : Malformed file fault) (hwhole : ∀ f, ¬ breaks f) :
      EndsAs file breaks (.error (.manifest fault))
  | other {f : Failure} (hbreaks : breaks f) (hother : ∀ fault, f ≠ .manifest fault) :
      EndsAs file breaks (.error f)

section Documents

variable {data : Entries} {name : String}

theorem part_of_isTable (h : IsTable data name) : ∃ entries, part data name = .ok entries := by
  unfold part
  split
  · exact ⟨_, rfl⟩
  · exact ⟨_, rfl⟩
  · next v hmap hv =>
    obtain ⟨entries, rfl⟩ := h v hv
    exact absurd rfl (hmap entries)

theorem part_of_not_isTable (h : ¬ IsTable data name) :
    part data name = .error (.manifest (.notTable name)) := by
  unfold part
  split
  · next hnone => exact absurd (fun v hv => by rw [hnone] at hv; cases hv) h
  · next entries hmap =>
    exact absurd (fun v hv => ⟨entries, Option.some.inj (hv.symm.trans hmap)⟩) h
  · rfl

theorem levelOf_of_part {table : Entries} (h : part data "renderer" = .ok table) :
    levelOf data = (table.get? "log_level").getD Config.standard.logLevel := by
  unfold part at h
  unfold levelOf
  split at h
  · next hnone =>
    cases h
    rw [hnone]
    rfl
  · next hmap =>
    cases h
    rw [hmap]
    rfl
  · cases h

theorem isQuotable_levelOf (h : ¬ IsTable data "renderer") : (levelOf data).isQuotable := by
  unfold levelOf
  split
  · next table hmap =>
    exact absurd (fun v hv => ⟨table, Option.some.inj (hv.symm.trans hmap)⟩) h
  · rfl

theorem config_ofEntries {table : Entries} (htable : part data "renderer" = .ok table) :
    if (levelOf data).isQuotable then ∃ config, Config.ofEntries table = .ok config ∧
      config.logLevel = .text (levelName data)
    else Config.ofEntries table = .error .tooManyDigits := by
  rw [Config.ofEntries, ← levelOf_of_part htable]
  split
  · exact ⟨_, rfl, rfl⟩
  · rfl

/-- The parts are looked at in order, and the log level behind the first of them. -/
theorem ofEntries_ends (data : Entries) :
    (∃ m, ofEntries data = .ok m ∧ m.config.logLevel = .text (levelName data) ∧
      (∀ name ∈ partNames, IsTable data name) ∧ (levelOf data).isQuotable) ∨
    (∃ name ∈ partNames, ofEntries data = .error (.manifest (.notTable name)) ∧
      ¬ IsTable data name ∧ (levelOf data).isQuotable) ∨
    (ofEntries data = .error .tooManyDigits ∧ (levelOf data).isQuotable = false) := by
  by_cases hr : IsTable data "renderer"
  case neg =>
    refine .inr (.inl ⟨"renderer", by decide, ?_, hr, isQuotable_levelOf hr⟩)
    simp only [ofEntries, part_of_not_isTable hr, bind, error_bind]
  obtain ⟨table, htable⟩ := part_of_isTable hr
  have hconfig := config_ofEntries htable
  cases hlevel : (levelOf data).isQuotable with
  | false =>
    rw [hlevel, if_neg Bool.false_ne_true] at hconfig
    refine .inr (.inr ⟨?_, rfl⟩)
    simp only [ofEntries, htable, hconfig, bind, ok_bind, error_bind]
  | true =>
    rw [hlevel, if_pos rfl] at hconfig
    obtain ⟨config, hconfig, hname⟩ := hconfig
    by_cases hv : IsTable data "variables"
    case neg =>
      refine .inr (.inl ⟨"variables", by decide, ?_, hv, rfl⟩)
      simp only [ofEntries, htable, hconfig, part_of_not_isTable hv, bind, ok_bind, error_bind]
    obtain ⟨roots, hroots⟩ := part_of_isTable hv
    by_cases hs : IsTable data "styles"
    case neg =>
      refine .inr (.inl ⟨"styles", by decide, ?_, hs, rfl⟩)
      simp only [ofEntries, htable, hconfig, hroots, part_of_not_isTable hs, bind, ok_bind,
        error_bind]
    obtain ⟨styles, hstyles⟩ := part_of_isTable hs
    refine .inl ⟨⟨config, roots, styles⟩, ?_, hname, by simp [partNames, hr, hv, hs], rfl⟩
    simp only [ofEntries, htable, hconfig, hroots, hstyles, bind, ok_bind]
    rfl

end Documents

section Files

theorem fromUTF8?_toByteArray (text : String) : String.fromUTF8? text.toByteArray = some text :=
  dif_pos text.isValidUTF8

/-- A file is missing, or it is no text, or it is one. -/
theorem file_cases (file : Option ByteArray) : file = none ∨
    (∃ bytes, file = some bytes ∧ ¬ bytes.IsValidUTF8) ∨
      ∃ text : String, file = some text.toByteArray := by
  cases file with
  | none => exact .inl rfl
  | some bytes =>
    by_cases hbytes : bytes.IsValidUTF8
    · exact .inr (.inr ⟨String.fromUTF8 bytes hbytes, rfl⟩)
    · exact .inr (.inl ⟨bytes, rfl, hbytes⟩)

variable {text : String} {data : Entries} {f : Failure} {fault : ManifestFault}

theorem text_inj {other : String} (h : some text.toByteArray = some other.toByteArray) :
    text = other :=
  String.toByteArray_inj.1 (Option.some.inj h)

theorem holds_text_iff : Holds (some text.toByteArray) data ↔ Toml.read text.toList = .ok data := by
  constructor
  · rintro ⟨other, hfile, hread⟩
    rwa [text_inj hfile]
  · exact fun hread => ⟨text, rfl, hread⟩

theorem Holds.unique {file : Option ByteArray} {data other : Entries} (h : Holds file data)
    (h' : Holds file other) : data = other := by
  obtain ⟨text, rfl, hread⟩ := h
  exact Except.ok.inj (hread.symm.trans (holds_text_iff.1 h'))

theorem malformed_text_iff : Malformed (some text.toByteArray) fault ↔
    (fault = .invalid ∧ Toml.read text.toList = .error .invalid) ∨
      ∃ data, Toml.read text.toList = .ok data ∧
        ∃ name ∈ partNames, ¬ IsTable data name ∧ fault = .notTable name := by
  constructor
  · intro h
    cases h with
    | missing hfile => cases hfile
    | invalid hfile hread => exact .inl ⟨rfl, text_inj hfile ▸ hread⟩
    | notTable hdata hname htable =>
      exact .inr ⟨_, holds_text_iff.1 hdata, _, hname, htable, rfl⟩
  · rintro (⟨rfl, hread⟩ | ⟨data, hread, name, hname, htable, rfl⟩)
    · exact .invalid rfl hread
    · exact .notTable (holds_text_iff.2 hread) hname htable

theorem breaks_text_iff : Breaks (some text.toByteArray) f ↔
    f = .tooManyDigits ∧ (Toml.read text.toList = .error .tooManyDigits ∨
      ∃ data, Toml.read text.toList = .ok data ∧ (levelOf data).isQuotable = false) := by
  constructor
  · intro h
    cases h with
    | notUnicode hfile hbytes =>
      rw [← Option.some.inj hfile] at hbytes
      exact absurd text.isValidUTF8 hbytes
    | longNumber hfile hread hlong => exact ⟨rfl, .inl (text_inj hfile ▸ hread)⟩
    | longLevel hdata hlevel => exact ⟨rfl, .inr ⟨_, holds_text_iff.1 hdata, hlevel⟩⟩
  · rintro ⟨rfl, hread | ⟨data, hread, hlevel⟩⟩
    · exact .longNumber rfl hread (Toml.hasLong_of_read hread)
    · exact .longLevel (holds_text_iff.2 hread) hlevel

theorem not_breaks_none : ¬ Breaks none f := by
  intro h
  cases h with
  | notUnicode hfile hbytes => cases hfile
  | longNumber hfile hread hlong => cases hfile
  | longLevel hdata hlevel =>
    obtain ⟨text, hfile, -⟩ := hdata
    cases hfile

theorem read_of_not_valid {bytes : ByteArray} (h : ¬ bytes.IsValidUTF8) :
    read (some bytes) = .error .notUnicode := by
  rw [read, String.fromUTF8?, dif_neg h]

theorem read_text (text : String) :
    read (some text.toByteArray) = (readToml text).bind ofEntries := by
  rw [read, fromUTF8?_toByteArray]
  rfl

theorem readToml_eq_ok_iff : readToml text = .ok data ↔ Toml.read text.toList = .ok data := by
  unfold readToml
  split
  · next hread => rw [hread, Except.ok.injEq, Except.ok.injEq]
  · next hread => simp [hread]
  · next hread => simp [hread]

theorem endsAs_text (text : String) :
    EndsAs (some text.toByteArray) (Breaks (some text.toByteArray))
      (read (some text.toByteArray)) := by
  rw [read_text, readToml]
  cases hread : Toml.read text.toList with
  | error fault =>
    cases fault with
    | invalid =>
      refine .fault (.invalid rfl hread) fun f hf => ?_
      simp [breaks_text_iff, hread] at hf
    | tooManyDigits => exact .other (breaks_text_iff.2 ⟨rfl, .inl hread⟩) nofun
  | ok data =>
    rw [ok_bind]
    rcases ofEntries_ends data with ⟨m, hm, -, htables, hlevel⟩ |
        ⟨name, hname, hm, htable, hlevel⟩ | ⟨hm, hlevel⟩
    · rw [hm]
      refine .ok m (fun fault hfault => ?_) fun f hf => ?_
      · simp only [malformed_text_iff, hread] at hfault
        obtain ⟨-, hfault⟩ | ⟨_, hdata, name, hname, htable, -⟩ := hfault
        · cases hfault
        · cases hdata
          exact htable (htables name hname)
      · simp [breaks_text_iff, hread, hlevel] at hf
    · rw [hm]
      refine .fault (.notTable (holds_text_iff.2 hread) hname htable) fun f hf => ?_
      simp [breaks_text_iff, hread, hlevel] at hf
    · rw [hm]
      exact .other (breaks_text_iff.2 ⟨rfl, .inr ⟨data, hread, hlevel⟩⟩) nofun

theorem read_endsAs (file : Option ByteArray) : EndsAs file (Breaks file) (read file) := by
  rcases file_cases file with rfl | ⟨bytes, rfl, hbytes⟩ | ⟨text, rfl⟩
  · exact .fault (.missing rfl) fun _ => not_breaks_none
  · rw [read_of_not_valid hbytes]
    exact .other (.notUnicode rfl hbytes) nofun
  · exact endsAs_text text

/-- A manifest has the level of its document, in capitals. -/
theorem exists_holds_of_read {file : Option ByteArray} {m : Manifest} (h : read file = .ok m) :
    ∃ data, Holds file data ∧ m.config.logLevel = .text (levelName data) := by
  rcases file_cases file with rfl | ⟨bytes, rfl, hbytes⟩ | ⟨text, rfl⟩
  · cases h
  · cases (read_of_not_valid hbytes).symm.trans h
  · rw [read_text] at h
    obtain ⟨data, hdata, hm⟩ := bind_eq_ok_iff.1 h
    refine ⟨data, holds_text_iff.2 (readToml_eq_ok_iff.1 hdata), ?_⟩
    rcases ofEntries_ends data with ⟨m', hm', hname, -⟩ | ⟨_, -, herror, -⟩ | ⟨herror, -⟩
    · rwa [Except.ok.inj (hm.symm.trans hm')]
    · cases hm.symm.trans herror
    · cases hm.symm.trans herror

end Files

theorem result_load (path : String) (file : Option ByteArray) :
    (load path file).result = read file := by
  simp only [load, Outcome.result_bind, Outcome.result_liftM]
  cases read file <;> rfl

theorem EndsAs.map {α β : Type} {file : Option ByteArray} {breaks : Failure → Prop}
    {r : Except Failure α} (h : EndsAs file breaks r) (f : α → β) :
    EndsAs file breaks (r.map f) := by
  cases h with
  | ok a hsound hwhole => exact .ok (f a) hsound hwhole
  | fault hfault hwhole => exact .fault hfault hwhole
  | other hbreaks hother => exact .other hbreaks hother

end Manifest

namespace LogLevel

variable {name : String}

theorem mem_names_of_ofName {level : Int} (h : ofName name = .ok level) :
    (name, level) ∈ names := by
  unfold ofName at h
  split at h
  · next found level' hfind =>
    cases h
    have hname : found = name := by simpa using List.find?_some hfind
    exact hname ▸ List.mem_of_find?_eq_some hfind
  · cases h

theorem exists_ofName (h : name ∈ names.map (·.1)) : ∃ level, ofName name = .ok level := by
  unfold ofName
  split
  · exact ⟨_, rfl⟩
  · next hfind =>
    obtain ⟨entry, hentry, rfl⟩ := List.mem_map.1 h
    exact absurd (List.find?_eq_none.1 hfind entry hentry) (by simp)

theorem ofName_of_not_mem (h : name ∉ names.map (·.1)) : ofName name = .error .unknownLogLevel := by
  cases hlevel : ofName name with
  | ok level => exact absurd (List.mem_map.2 ⟨_, mem_names_of_ofName hlevel, rfl⟩) h
  | error f =>
    unfold ofName at hlevel
    split at hlevel
    · cases hlevel
    · exact hlevel.symm

end LogLevel

namespace Workspace

open Manifest

variable (asTransform : Value → Transform) (w : Workspace) (path : String)
  (file : Option ByteArray) (now : Option DateTime)

/-- Making an engine and merging maps into it never fails, and leaves the log level as it is. -/
theorem createFresh_setup (config : Config) (roots styles : Entries) :
    let done := andThen (w.createFresh .empty config now) fun id w =>
      andThen (w.setup asTransform id ⟨.map roots, .map styles, [], []⟩) fun _ w =>
        (return id, w)
    done.1.result = .ok w.engines.length ∧ done.2.logLevel = w.logLevel := by
  intro done
  have hfresh : (w.createFresh .empty config now).1.result = .ok w.engines.length := rfl
  have hsetup (w : Workspace) (id : Nat) :
      (w.setup asTransform id ⟨.map roots, .map styles, [], []⟩).1.result = .ok () := by
    rw [result_setup]
    exact (Registries.merge_of_isData asTransform _ (.inr ⟨roots, rfl⟩) (.inr ⟨styles, rfl⟩) []).1
  refine ⟨?_, ?_⟩
  · rw [result_andThen, hfresh, ok_bind, result_andThen, hsetup]
    rfl
  · rw [andThen_snd_of_ok _ _ hfresh, andThen_snd_of_ok _ _ (hsetup _ _)]
    rfl

/-- What is done with a manifest that was read: its level is set, then the engine is made. -/
theorem createFromManifest_of_ok {m : Manifest} (h : Manifest.read file = .ok m) :
    let level := LogLevel.ofValue m.config.logLevel
    (w.createFromManifest asTransform path file now).1.result =
        level.map (fun _ => w.engines.length) ∧
      (∀ f, level = .error f → (w.createFromManifest asTransform path file now).2 = w) ∧
      ∀ n, level = .ok n → (w.createFromManifest asTransform path file now).2.logLevel = n := by
  intro level
  have hload : (w.keepRecords (Manifest.load path file)).result = .ok m :=
    (Manifest.result_load path file).trans h
  rw [createFromManifest, result_andThen, andThen_snd_of_ok _ _ hload, hload, ok_bind]
  cases hlevel : level with
  | error f =>
    have hset : w.configureLogging m.config.logLevel = (.fail f, w) := by
      rw [configureLogging, show LogLevel.ofValue m.config.logLevel = .error f from hlevel]
    rw [hset]
    exact ⟨rfl, fun _ _ => rfl, nofun⟩
  | ok n =>
    have hset : w.configureLogging m.config.logLevel = (return (), { w with logLevel := n }) := by
      rw [configureLogging, show LogLevel.ofValue m.config.logLevel = .ok n from hlevel]
    rw [hset]
    obtain ⟨hresult, hsame⟩ := createFresh_setup asTransform { w with logLevel := n } now m.config
      m.roots m.styles
    refine ⟨?_, nofun, ?_⟩
    · rw [result_andThen]
      exact hresult
    · intro n' hn
      cases hn
      rw [andThen_snd_of_ok _ _ rfl]
      exact hsame

theorem createFromManifest_of_error {f : Failure} (h : Manifest.read file = .error f) :
    (w.createFromManifest asTransform path file now).1.result = .error f ∧
      (w.createFromManifest asTransform path file now).2 = w := by
  have hload : (w.keepRecords (Manifest.load path file)).result = .error f :=
    (Manifest.result_load path file).trans h
  refine ⟨?_, andThen_snd_of_error _ _ hload⟩
  rw [createFromManifest, result_andThen, hload, error_bind]

theorem createFromManifest_endsAs : EndsAs file (BreaksEngine file)
    (w.createFromManifest asTransform path file now).1.result := by
  have hends := read_endsAs file
  cases hread : Manifest.read file with
  | error f =>
    rw [(createFromManifest_of_error asTransform w path file now hread).1]
    rw [hread] at hends
    cases hends with
    | fault hfault hwhole =>
      refine .fault hfault fun f hf => ?_
      cases hf with
      | load h => exact hwhole f h
      | level hdata hsound => exact hsound _ hfault
    | other hbreaks hother => exact .other (.load hbreaks) hother
  | ok m =>
    rw [(createFromManifest_of_ok asTransform w path file now hread).1]
    obtain ⟨data, hdata, hname⟩ := exists_holds_of_read hread
    rw [hread] at hends
    cases hends with
    | ok m hsound hwhole =>
      rw [hname, LogLevel.ofValue]
      by_cases hlevel : levelName data ∈ LogLevel.names.map (·.1)
      · obtain ⟨level, hofName⟩ := LogLevel.exists_ofName hlevel
        rw [hofName]
        refine .ok _ hsound fun f hf => ?_
        cases hf with
        | load h => exact hwhole f h
        | level hdata' _ _ hlevel' => exact hlevel' (hdata.unique hdata' ▸ hlevel)
      · rw [LogLevel.ofName_of_not_mem hlevel]
        exact .other (.level hdata hsound hwhole hlevel) nofun

/-- An engine that is not made leaves nothing behind. -/
theorem createFromManifest_snd_of_error {f : Failure}
    (h : (w.createFromManifest asTransform path file now).1.result = .error f) :
    (w.createFromManifest asTransform path file now).2 = w := by
  cases hread : Manifest.read file with
  | error e => exact (createFromManifest_of_error asTransform w path file now hread).2
  | ok m =>
    obtain ⟨hresult, hsame, -⟩ := createFromManifest_of_ok asTransform w path file now hread
    exact hsame f (map_eq_error_iff.1 (hresult ▸ h))

theorem logLevel_createFromManifest {id : Nat}
    (h : (w.createFromManifest asTransform path file now).1.result = .ok id) :
    ∃ data level, Holds file data ∧ (levelName data, level) ∈ LogLevel.names ∧
      (w.createFromManifest asTransform path file now).2.logLevel = .int level := by
  cases hread : Manifest.read file with
  | error e =>
    rw [(createFromManifest_of_error asTransform w path file now hread).1] at h
    cases h
  | ok m =>
    obtain ⟨hresult, -, hset⟩ := createFromManifest_of_ok asTransform w path file now hread
    obtain ⟨data, hdata, hname⟩ := exists_holds_of_read hread
    obtain ⟨n, hn, -⟩ := map_eq_ok_iff.1 (hresult ▸ h)
    have hofName := hn
    rw [hname, LogLevel.ofValue] at hofName
    obtain ⟨level, hlevel, rfl⟩ := map_eq_ok_iff.1 hofName
    exact ⟨data, level, hdata, LogLevel.mem_names_of_ofName hlevel, hset _ hn⟩

/-- Loading gives a manifest, or a fault that is in the file, but where something breaks it, which
is then what it fails with; so does the making of an engine, which a level with an unknown name
breaks as well. An engine that is not made leaves all as it was, the log level too. -/
theorem loading_ends :
    EndsAs file (Breaks file) (Manifest.load path file).result ∧
      EndsAs file (Breaks file) (Manifest.loadConfig path file).result ∧
      EndsAs file (BreaksEngine file) (w.createFromManifest asTransform path file now).1.result ∧
      (∀ f, (w.createFromManifest asTransform path file now).1.result = .error f →
        (w.createFromManifest asTransform path file now).2 = w) ∧
      ∀ id, (w.createFromManifest asTransform path file now).1.result = .ok id →
        ∃ data level, Holds file data ∧ (levelName data, level) ∈ LogLevel.names ∧
          (w.createFromManifest asTransform path file now).2.logLevel = .int level := by
  refine ⟨?_, ?_, createFromManifest_endsAs asTransform w path file now,
    fun _ => createFromManifest_snd_of_error asTransform w path file now,
    fun _ => logLevel_createFromManifest asTransform w path file now⟩
  · rw [Manifest.result_load]
    exact read_endsAs file
  · rw [Manifest.loadConfig, Outcome.result_map, Manifest.result_load]
    exact (read_endsAs file).map _

/-- An unknown level keeps an engine from being made, and the level from being set. -/
theorem loading_ends_loud :
    let text := "[renderer]\nlog_level = \"LOUD\"\n"
    let made := (start 30).createFromManifest (fun _ => Transform.identity) "m.toml"
      (some text.toByteArray) none
    made.1.result = .error .unknownLogLevel ∧ made.2 = start 30 := by
  intro text made
  have hlevel : ((Manifest.read (some text.toByteArray)).toOption.bind fun m =>
      m.config.logLevel.text?) = some "LOUD" := by
    rw [read_text]
    decide +kernel
  obtain ⟨m, hm, htext⟩ := Option.bind_eq_some_iff.1 hlevel
  have hread : Manifest.read (some text.toByteArray) = .ok m := by
    cases h : Manifest.read (some text.toByteArray) with
    | ok read =>
      rw [h] at hm
      exact congrArg _ (Option.some.inj hm)
    | error f =>
      rw [h] at hm
      cases hm
  have hunknown : LogLevel.ofValue m.config.logLevel = .error .unknownLogLevel := by
    obtain ⟨data, -, hname⟩ := exists_holds_of_read hread
    rw [hname] at htext ⊢
    rw [LogLevel.ofValue, Option.some.inj htext, LogLevel.ofName_of_not_mem (by decide)]
    rfl
  have hfails : made.1.result = .error .unknownLogLevel := by
    rw [(createFromManifest_of_ok _ (start 30) "m.toml" _ none hread).1, hunknown]
    rfl
  obtain ⟨-, -, -, hsame, -⟩ := loading_ends (fun _ => Transform.identity) (start 30) "m.toml"
    (some text.toByteArray) none
  exact ⟨hfails, hsame _ hfails⟩

/-- A file that is no text is neither loaded nor reported as a fault of the manifest. -/
theorem load_of_no_text :
    let loaded := (Manifest.load "m.toml" (some ⟨#[0xff]⟩)).result
    loaded = .error .notUnicode ∧
      ¬ ((∃ m, loaded = .ok m) ∨ ∃ fault, loaded = .error (.manifest fault)) := by
  intro loaded
  have hfails : loaded = .error .notUnicode := rfl
  simp [hfails]

end Workspace
end ViewDoc
