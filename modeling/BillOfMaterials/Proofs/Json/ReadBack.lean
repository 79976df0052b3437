import BillOfMaterials.Json.Schema
import BillOfMaterials.Proofs.Json.Records
import BillOfMaterials.Proofs.Text.Utf8

/-!
# Records read back

For each record that is exchanged as JSON: the texts that tell its fields, and the record of which
some fields are taken. What is written of a record decodes to it, and an object that tells some of
its fields decodes to the record with these fields and the defaults elsewhere.
-/
namespace BillOfMaterials

open Json

section Chosen

variable {α : Type} {name : String} {keys : List String}

/-- The value of a field if its name is among the keys. -/
def chosen (name : String) (keys : List String) (value otherwise : α) : α :=
  if name ∈ keys then value else otherwise

theorem chosen_of_mem (h : name ∈ keys) (value otherwise : α) :
    chosen name keys value otherwise = value := if_pos h

theorem chosen_of_notMem (h : name ∉ keys) (value otherwise : α) :
    chosen name keys value otherwise = otherwise := if_neg h

/-- Choosing twice is choosing among all keys. -/
theorem chosen_append (name : String) (keys keys' : List String) (value otherwise : α) :
    chosen name (keys ++ keys') value otherwise =
      chosen name keys' value (chosen name keys value otherwise) := by
  by_cases here : name ∈ keys'
  · rw [chosen_of_mem here, chosen_of_mem (List.mem_append_right _ here)]
  · simp only [chosen, List.mem_append, here, or_false, if_false]

end Chosen

namespace File

/-- The texts that tell the fields of the file. -/
def told (f : File) : Told :=
  [("id", (StringText · f.id)), ("name", (StringText · f.name)),
    ("file_name", (StringText · f.fileName)), ("source_file", (StringText · f.sourceFile)),
    ("license_concluded", (StringText · f.licenseConcluded)),
    ("license_info_in_file", (StringText · f.licenseInfo)),
    ("copyright_text", (StringText · f.copyrightText)), ("checksum", (MapText · f.checksums))]

/-- The fields with the given keys from the file, the others from `base`. -/
def pick (f : File) (keys : List String) (base : File) : File where
  id := chosen "id" keys f.id base.id
  name := chosen "name" keys f.name base.name
  fileName := chosen "file_name" keys f.fileName base.fileName
  sourceFile := chosen "source_file" keys f.sourceFile base.sourceFile
  licenseConcluded := chosen "license_concluded" keys f.licenseConcluded base.licenseConcluded
  licenseInfo := chosen "license_info_in_file" keys f.licenseInfo base.licenseInfo
  copyrightText := chosen "copyright_text" keys f.copyrightText base.copyrightText
  checksums := chosen "checksum" keys f.checksums base.checksums

theorem understands (f : File) : json.Understands f.told f.pick where
  fields := by
    iterate 7 refine .cons ⟨rfl, fun _ => reads_string fun _ => rfl⟩ ?_
    exact .cons ⟨rfl, fun _ => reads_stringMap fun _ => rfl⟩ .nil
  others keys value h := by
    simp only [told, List.forall_mem_cons] at h
    simp [pick, chosen_of_notMem, h]
  append keys keys' value := by simp only [pick, chosen_append]

theorem writes (f : File) : json.Writes f f.told := by
  iterate 7 refine .cons ⟨rfl, stringText_writeString _⟩ ?_
  exact .cons ⟨rfl, mapText_writeStringMap _⟩ .nil

theorem decode_encode (f : File) : json.decode (json.encode f) = .ok f :=
  f.understands.decode_encode f.writes (by simp [told]) rfl

end File

namespace Party

def told (p : Party) : Told :=
  [("person", (StringText · p.person)), ("organization", (StringText · p.organization))]

def pick (p : Party) (keys : List String) (base : Party) : Party where
  person := chosen "person" keys p.person base.person
  organization := chosen "organization" keys p.organization base.organization

theorem understands (p : Party) : json.Understands p.told p.pick where
  fields := by
    iterate 2 refine .cons ⟨rfl, fun _ => reads_string fun _ => rfl⟩ ?_
    exact .nil
  others keys value h := by
    simp only [told, List.forall_mem_cons] at h
    simp [pick, chosen_of_notMem, h]
  append keys keys' value := by simp only [pick, chosen_append]

theorem writes (p : Party) : json.Writes p p.told := by
  iterate 2 refine .cons ⟨rfl, stringText_writeString _⟩ ?_
  exact .nil

theorem decode_encode (p : Party) : json.decode (json.encode p) = .ok p :=
  p.understands.decode_encode p.writes (by simp [told]) rfl

end Party

namespace GeneralConfig

def told (c : GeneralConfig) : Told :=
  [("log_level", (StringText · c.logLevel)), ("log_format", (StringText · c.logFormat))]

def pick (c : GeneralConfig) (keys : List String) (base : GeneralConfig) : GeneralConfig where
  logLevel := chosen "log_level" keys c.logLevel base.logLevel
  logFormat := chosen "log_format" keys c.logFormat base.logFormat

theorem understands (c : GeneralConfig) : json.Understands c.told c.pick where
  fields := by
    iterate 2 refine .cons ⟨rfl, fun _ => reads_string fun _ => rfl⟩ ?_
    exact .nil
  others keys value h := by
    simp only [told, List.forall_mem_cons] at h
    simp [pick, chosen_of_notMem, h]
  append keys keys' value := by simp only [pick, chosen_append]

theorem writes (c : GeneralConfig) : json.Writes c c.told := by
  iterate 2 refine .cons ⟨rfl, stringText_writeString _⟩ ?_
  exact .nil

theorem decode_encode (c : GeneralConfig) : json.decode (json.encode c) = .ok c :=
  c.understands.decode_encode c.writes (by simp [told]) rfl

end GeneralConfig

namespace SpdxConfig

def told (c : SpdxConfig) : Told := [("work_dir", (StringText · c.workDir))]

def pick (c : SpdxConfig) (keys : List String) (base : SpdxConfig) : SpdxConfig where
  workDir := chosen "work_dir" keys c.workDir base.workDir

theorem understands (c : SpdxConfig) : json.Understands c.told c.pick where
  fields := .cons ⟨rfl, fun _ => reads_string fun _ => rfl⟩ .nil
  others keys value h := by
    simp only [told, List.forall_mem_cons] at h
    simp [pick, chosen_of_notMem, h]
  append keys keys' value := by simp only [pick, chosen_append]

theorem writes (c : SpdxConfig) : json.Writes c c.told :=
  .cons ⟨rfl, stringText_writeString _⟩ .nil

theorem decode_encode (c : SpdxConfig) : json.decode (json.encode c) = .ok c :=
  c.understands.decode_encode c.writes (by simp [told]) rfl

end SpdxConfig

namespace Config

/-- The texts of the two sections, which tell their fields under the given keys. -/
def told (c : Config) (general spdx : List String) : Told :=
  [("general", ObjectText c.general.told general), ("spdx", ObjectText c.spdx.told spdx)]

/-- The sections with the given keys, each with its fields under the keys given for it; the others
from `base`. -/
def pick (c : Config) (general spdx keys : List String) (base : Config) : Config where
  general := chosen "general" keys (c.general.pick general ⟨"info", "json"⟩) base.general
  spdx := chosen "spdx" keys (c.spdx.pick spdx ⟨""⟩) base.spdx

theorem understands (c : Config) (general spdx : List String) :
    json.Understands (c.told general spdx) (c.pick general spdx) where
  fields := .cons ⟨rfl, fun _ => reads_record c.general.understands fun _ => rfl⟩
    (.cons ⟨rfl, fun _ => reads_record c.spdx.understands fun _ => rfl⟩ .nil)
  others keys value h := by
    simp only [told, List.forall_mem_cons] at h
    simp [pick, chosen_of_notMem, h]
  append keys keys' value := by simp only [pick, chosen_append]

theorem writes (c : Config) :
    json.Writes c (c.told ["log_level", "log_format"] ["work_dir"]) :=
  .cons ⟨rfl, c.general.writes.objectText (by simp [GeneralConfig.told])⟩
    (.cons ⟨rfl, c.spdx.writes.objectText (by simp [SpdxConfig.told])⟩ .nil)

theorem decode_encode (c : Config) : json.decode (json.encode c) = .ok c :=
  (c.understands _ _).decode_encode c.writes (by simp [told]) rfl

end Config

namespace Options

/-- The texts that tell the working directory. -/
def told (workDir : String) : Told := [("work_dir", (StringText · workDir))]

def pick (o : Options) (keys : List String) (base : Options) : Options where
  workDir := chosen "work_dir" keys o.workDir base.workDir

variable {o : Options} {workDir : String}

theorem understands (h : o.workDir = Path.ofString workDir) :
    json.Understands (told workDir) o.pick where
  fields := .cons ⟨rfl, fun _ => reads_string fun _ => by rw [← h]; rfl⟩ .nil
  others keys value h := by
    simp only [told, List.forall_mem_cons] at h
    simp [pick, chosen_of_notMem, h]
  append keys keys' value := by simp only [pick, chosen_append]

theorem writes (h : o.workDir = Path.ofString workDir) : json.Writes o (told workDir) := by
  refine .cons ⟨rfl, ?_⟩ .nil
  have shown : o.workDir.display = workDir := by rw [h, Path.display_ofString]
  exact shown ▸ stringText_writeString o.workDir.display

theorem decode_encode (h : o.workDir = Path.ofString workDir) :
    json.decode (json.encode o) = .ok o :=
  (understands h).decode_encode (writes h) (by simp [told]) rfl

/-- A working directory with a text is that of the text. -/
theorem workDir_of_text (h : o.workDirText? = some workDir) : o.workDir = Path.ofString workDir :=
  congrArg Path.mk (Text.Utf8.decode?_eq_some_iff.mp h)

end Options

/-- What is written of a record is read back, and any object that tells some of its fields, each
once, is read as the record with these fields and the defaults elsewhere. A section of a
configuration may be partly told. Options are written if their working directory has a text. -/
theorem json_reads_back :
    (∀ f : File, File.json.decode (File.json.encode f) = .ok f ∧
      File.json.DecodesObjects f.told (f.pick · ⟨"", "", "", "", "", "", "", .empty⟩)) ∧
    (∀ p : Party, Party.json.decode (Party.json.encode p) = .ok p ∧
      Party.json.DecodesObjects p.told (p.pick · ⟨"", ""⟩)) ∧
    (∀ c : GeneralConfig, GeneralConfig.json.decode (GeneralConfig.json.encode c) = .ok c ∧
      GeneralConfig.json.DecodesObjects c.told (c.pick · ⟨"info", "json"⟩)) ∧
    (∀ c : SpdxConfig, SpdxConfig.json.decode (SpdxConfig.json.encode c) = .ok c ∧
      SpdxConfig.json.DecodesObjects c.told (c.pick · ⟨""⟩)) ∧
    (∀ c : Config, Config.json.decode (Config.json.encode c) = .ok c ∧
      ∀ general spdx : List String, Config.json.DecodesObjects (c.told general spdx)
        (c.pick general spdx · ⟨⟨"info", "json"⟩, ⟨""⟩⟩)) ∧
    ∀ (o : Options) (workDir : String), o.workDirText? = some workDir →
      (∃ text, o.toJson? = some text ∧ Options.json.decode text = .ok o) ∧
        Options.json.DecodesObjects (Options.told workDir) (o.pick · ⟨⟨[]⟩⟩) := by
  refine ⟨fun f => ⟨f.decode_encode, f.understands.decodes⟩,
    fun p => ⟨p.decode_encode, p.understands.decodes⟩,
    fun c => ⟨c.decode_encode, c.understands.decodes⟩,
    fun c => ⟨c.decode_encode, c.understands.decodes⟩,
    fun c => ⟨c.decode_encode, fun general spdx => (c.understands general spdx).decodes⟩, ?_⟩
  intro o workDir text
  have same := Options.workDir_of_text text
  refine ⟨⟨Options.json.encode o, ?_, Options.decode_encode same⟩,
    (Options.understands same).decodes⟩
  rw [Options.toJson?, text, Option.isSome_some, if_pos rfl]

/-- A member with a space behind its colon. -/
def Json.Member.spaced (key : String) (value : List Char) : Member where
  key
  keyText := .tight (writeString key)
  value := { before := [' '], inner := value, gapBefore := by simp [Gap, blanks] }
  spelt := stringText_writeString key

/-- A text with one setting, whose value holds an escape, behind a member that is no setting. -/
def oneSetting : Object where
  members := [
    .spaced "note" "[1.5e3,\x7b\"a\":null\x7d]".toList,
    .spaced "general" (Object.tight [("log_level", "\"d\\u0065bug\"".toList)]).text]

def oneSettingText : String :=
  "\x7b\"note\": [1.5e3,\x7b\"a\":null\x7d]," ++
    "\"general\": \x7b\"log_level\":\"d\\u0065bug\"\x7d\x7d"

theorem isValue_note : IsValue "[1.5e3,\x7b\"a\":null\x7d]".toList := by
  have digit (c : Char) (h : c.isDigit = true) : Digits [c] := ⟨by simp, by simpa using h⟩
  have number : IsValue "1.5e3".toList := .number ⟨[], ['1'], ['.', '5'], ['e', '3'], by simp,
    .inr ⟨digit '1' rfl, by decide⟩, .inr ⟨['5'], digit '5' rfl, rfl⟩,
    .inr ⟨'e', [], ['3'], by simp, by simp, digit '3' rfl, rfl⟩, rfl⟩
  have key : IsQuoted "\"a\"".toList :=
    ⟨[['a']], by simpa using .plain (by decide), rfl⟩
  have object : IsValue "\x7b\"a\":null\x7d".toList :=
    @IsValue.object [] [(.tight "\"a\"".toList, .tight "null".toList)] gap_nil
      (by simpa [Spaced.tight] using key) (by simpa [Spaced.tight] using .word (by simp [words]))
  exact @IsValue.array [] [.tight "1.5e3".toList, .tight "\x7b\"a\":null\x7d".toList] gap_nil
    (by simpa [Spaced.tight] using ⟨number, object⟩)

theorem oneSetting_tells :
    oneSetting.Tells ((⟨⟨"debug", "pretty"⟩, ⟨"src"⟩⟩ : Config).told ["log_level"] []) := by
  have escaped : FourHex "0065".toList 'e'.toNat :=
    .mk (x := 0) (y := 0) (z := 6) (w := 5) (.inl rfl) (.inl rfl) (.inl rfl) (.inl rfl)
  have level : StringText "\"d\\u0065bug\"".toList "debug" := by
    refine ⟨[['d'], "\\u0065".toList, ['b'], ['u'], ['g']], ?_, rfl⟩
    refine .cons (.plain (by decide)) (.cons (.unit escaped) ?_)
    iterate 3 refine .cons (.plain (by decide)) ?_
    exact .nil
  have general : ObjectText (⟨"debug", "pretty"⟩ : GeneralConfig).told ["log_level"]
      (Object.tight [("log_level", "\"d\\u0065bug\"".toList)]).text :=
    ⟨_, ⟨by decide, by
      simpa [Object.tight, Member.tight, Spaced.tight, GeneralConfig.told] using level⟩, rfl, rfl⟩
  refine ⟨by decide, ?_⟩
  simp only [oneSetting, List.forall_mem_cons]
  exact ⟨isValue_note, general, by simp⟩

/-- The other setting has its default, and a section that is not there has all of its. -/
theorem json_reads_back_of_oneSetting :
    oneSetting.Tells ((⟨⟨"debug", "pretty"⟩, ⟨"src"⟩⟩ : Config).told ["log_level"] []) ∧
    Config.json.decode oneSettingText = .ok ⟨⟨"debug", "json"⟩, ⟨""⟩⟩ ∧
    (⟨Path.ofString "src"⟩ : Options).workDirText? = some "src" ∧
    ∃ text, (⟨Path.ofString "src"⟩ : Options).toJson? = some text ∧
      Options.json.decode text = .ok ⟨Path.ofString "src"⟩ := by
  have text : (⟨Path.ofString "src"⟩ : Options).workDirText? = some "src" :=
    Text.Utf8.decode?_encode "src"
  have layout : String.ofList (Spaced.tight oneSetting.text).text = oneSettingText := by
    decide +kernel
  obtain ⟨-, -, -, -, config, options⟩ := json_reads_back
  refine ⟨oneSetting_tells, ?_, text, (options _ _ text).1⟩
  rw [← layout]
  exact (config _).2 _ _ oneSetting _ oneSetting_tells rfl

end BillOfMaterials
