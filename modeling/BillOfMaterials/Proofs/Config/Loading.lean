import BillOfMaterials.Proofs.Config.Validity
import Mathlib

/-!
# What loading a configuration comes to

The file is judged as it stands. What variables hold then replaces settings, and the outcome is
judged again. A variable can therefore spoil a file, but it cannot save one that is not valid by
itself.
-/
namespace BillOfMaterials

/-- The variable is set to the text. -/
def Environment.Holds (env : Environment) (name text : String) : Prop :=
  env name = some (Text.Utf8.encode text)

theorem Environment.text?_eq_some_iff {env : Environment} {name text : String} :
    env.text? name = some text ↔ env.Holds name text := by
  rw [Environment.text?, Option.bind_eq_some_iff, Environment.Holds]
  constructor
  · rintro ⟨bytes, set, decoded⟩
    rw [set, Text.Utf8.decode?_eq_some_iff.mp decoded]
  · exact fun set => ⟨_, set, Text.Utf8.decode?_encode text⟩

namespace Config

/-- A configuration has what the variables hold, and otherwise what the base has. -/
def Merges (env : Environment) (base c : Config) : Prop :=
  ∀ s : Setting, (∀ text, env.Holds s.override text → c.get s = text) ∧
    ((∀ text, ¬ env.Holds s.override text) → c.get s = base.get s)

variable {fs : FileSystem} {env : Environment} {path : Path} {base c : Config} {s : Setting}

theorem get_overriddenBy (c : Config) (env : Environment) (s : Setting) :
    (c.overriddenBy env).get s = (env.text? s.override).getD (c.get s) := by
  cases s <;> rfl

theorem merges_overriddenBy (env : Environment) (base : Config) :
    Merges env base (base.overriddenBy env) := by
  intro s
  rw [get_overriddenBy]
  constructor
  · intro text holds
    rw [Environment.text?_eq_some_iff.mpr holds, Option.getD_some]
  · intro unset
    have none : env.text? s.override = none :=
      Option.eq_none_iff_forall_ne_some.mpr fun text given =>
        unset text (Environment.text?_eq_some_iff.mp given)
    rw [none, Option.getD_none]

theorem Merges.eq (merges : Merges env base c) : c = base.overriddenBy env := by
  refine ext_get fun s => ?_
  by_cases set : ∃ text, env.Holds s.override text
  · obtain ⟨text, holds⟩ := set
    rw [(merges s).1 text holds, (merges_overriddenBy env base s).1 text holds]
  · have unset : ∀ text, ¬ env.Holds s.override text := not_exists.mp set
    rw [(merges s).2 unset, (merges_overriddenBy env base s).2 unset]

theorem Merges.refl_of_unset (unset : ∀ (s : Setting) text, ¬ env.Holds s.override text) :
    Merges env base base :=
  fun s => ⟨fun text holds => absurd holds (unset s text), fun _ => rfl⟩

theorem fromFile_of_parse {text : String} (read : fs.readText path = .ok text)
    (parsed : parse text = .ok base) : fromFile fs path = base.validated := by
  simp only [fromFile, read, parsed, validated]

theorem fromFile_of_valid {text : String} (read : fs.readText path = .ok text)
    (parsed : parse text = .ok base) (valid : base.Valid) : fromFile fs path = .ok base :=
  (fromFile_of_parse read parsed).trans (validated_of_valid valid)

theorem fromFile_of_firstInvalid {text : String} (read : fs.readText path = .ok text)
    (parsed : parse text = .ok base) (invalid : base.FirstInvalid s) :
    fromFile fs path = .error s.failure :=
  (fromFile_of_parse read parsed).trans (validated_of_firstInvalid invalid)

theorem valid_of_fromFile (h : fromFile fs path = .ok c) : c.Valid := by
  cases read : fs.readText path with
  | error e => simp [fromFile, read] at h
  | ok text =>
    cases parsed : parse text with
    | error e => simp [fromFile, read, parsed] at h
    | ok base => exact valid_of_validated (fromFile_of_parse read parsed ▸ h)

theorem load_of_error {e : Failure} (h : fromFile fs path = .error e) :
    (load fs env path).1 = .error e := by
  rw [load, h]

theorem load_of_fromFile (h : fromFile fs path = .ok base) (merges : Merges env base c) :
    (load fs env path).1 = c.validated := by
  rw [load, h, merges.eq, validated]
  dsimp only
  cases (base.overriddenBy env).validate <;> rfl

theorem valid_of_load (h : (load fs env path).1 = .ok c) : c.Valid := by
  cases read : fromFile fs path with
  | error e =>
    rw [load_of_error read] at h
    cases h
  | ok base =>
    rw [load_of_fromFile read (merges_overriddenBy env base)] at h
    exact valid_of_validated h

theorem load_of_unset (unset : ∀ (s : Setting) text, ¬ env.Holds s.override text) :
    (load fs env path).1 = fromFile fs path := by
  cases read : fromFile fs path with
  | error e => exact load_of_error read
  | ok base =>
    rw [load_of_fromFile read (.refl_of_unset unset), validated_of_valid (valid_of_fromFile read)]

/-- Loading fails as the file does. From a file that is fine it gives the merged configuration or
tells the first setting of it that is not allowed. -/
theorem load_decided_by_file_then_merged (fs : FileSystem) (env : Environment) (path : Path) :
    (∀ e, fromFile fs path = .error e → (load fs env path).1 = .error e) ∧
    (∀ base, fromFile fs path = .ok base → ∃ c, Merges env base c ∧
      (c.Valid → (load fs env path).1 = .ok c) ∧
      (∀ s, c.FirstInvalid s → (load fs env path).1 = .error s.failure) ∧
      (c.Valid ∨ ∃ s, c.FirstInvalid s)) ∧
    (∀ c, fromFile fs path = .ok c ∨ (load fs env path).1 = .ok c → c.Valid) ∧
    ((∀ (s : Setting) text, ¬ env.Holds s.override text) →
      (load fs env path).1 = fromFile fs path) := by
  refine ⟨fun e => load_of_error, fun base read => ?_, fun c => ?_, load_of_unset⟩
  · have merges := merges_overriddenBy env base
    rw [load_of_fromFile read merges]
    exact ⟨_, merges, validated_of_valid, fun s => validated_of_firstInvalid,
      valid_or_firstInvalid _⟩
  · rintro (read | loaded)
    · exact valid_of_fromFile read
    · exact valid_of_load loaded

/-- The environment in which the log level alone is overridden. -/
def quieted : Environment := fun name =>
  if name = "SBOMKIT_GENERAL_LOG_LEVEL" then some (Text.Utf8.encode "debug") else none

def quiet : Config where
  general.logLevel := "debug"

theorem quiet_valid : quiet.Valid := by
  decide

def emptyFile : FileSystem :=
  FileSystem.empty.addFile (.ofString "sbomkit.toml") []

theorem fromFile_emptyFile : fromFile emptyFile (.ofString "sbomkit.toml") = .ok {} := by
  have read : emptyFile.readText (.ofString "sbomkit.toml") = .ok "" := rfl
  have parsed : parse "" = .ok {} := by cbv
  exact fromFile_of_valid read parsed (by decide)

theorem load_decided_by_file_then_merged_of_emptyFile :
    fromFile emptyFile (.ofString "sbomkit.toml") = .ok {} ∧
      (load emptyFile quieted (.ofString "sbomkit.toml")).1 = .ok quiet := by
  obtain ⟨c, merges, loaded, -⟩ := (load_decided_by_file_then_merged emptyFile quieted
    (.ofString "sbomkit.toml")).2.1 {} fromFile_emptyFile
  have merged : c = quiet := merges.eq
  exact ⟨fromFile_emptyFile, merged ▸ loaded (merged ▸ quiet_valid)⟩

/-- A valid outcome of merging is loaded exactly if the file gives each setting that a variable
overrides an allowed text too. Otherwise the failure tells of a text that no one would use. -/
theorem load_merged_iff_overridden_allowed {text : String} {merged : Config}
    (read : fs.readText path = .ok text) (parsed : parse text = .ok base)
    (merges : Merges env base merged) (passes : merged.validate = .ok ()) :
    ((load fs env path).1 = .ok merged ↔
      ∀ (s : Setting) given, env.Holds s.override given → s.Allows (base.get s)) ∧
    ∀ s, base.FirstInvalid s →
      (∃ given, env.Holds s.override given) ∧ (load fs env path).1 = .error s.failure := by
  have valid : merged.Valid := validate_eq_ok_iff.mp passes
  have kept : ∀ s : Setting, (∀ given, ¬ env.Holds s.override given) → s.Allows (base.get s) :=
    fun s unset => (merges s).2 unset ▸ valid s
  constructor
  · constructor
    · intro loaded s given holds
      obtain fine | ⟨t, invalid⟩ := base.valid_or_firstInvalid
      · exact fine s
      · rw [load_of_error (fromFile_of_firstInvalid read parsed invalid)] at loaded
        cases loaded
    · intro allowed
      have fine : base.Valid := by
        intro s
        by_cases set : ∃ given, env.Holds s.override given
        · exact allowed s set.choose set.choose_spec
        · exact kept s (not_exists.mp set)
      rw [load_of_fromFile (fromFile_of_valid read parsed fine) merges, validated_of_valid valid]
  · intro s invalid
    have overridden : ∃ given, env.Holds s.override given :=
      Classical.byContradiction fun unset => invalid.1 (kept s (not_exists.mp unset))
    exact ⟨overridden, load_of_error (fromFile_of_firstInvalid read parsed invalid)⟩

/-- A file with a log level that is not allowed. -/
def loudText : String := "[general]\nlog_level = \"loud\"\n"

def loudFile : FileSystem :=
  FileSystem.empty.addFile (.ofString "sbomkit.toml") (Text.Utf8.encode loudText)

def loud : Config where
  general.logLevel := "loud"

theorem readText_loudFile : loudFile.readText (.ofString "sbomkit.toml") = .ok loudText := rfl

theorem parse_loudText : parse loudText = .ok loud := by
  cbv

theorem merges_loud : Merges quieted loud quiet :=
  merges_overriddenBy quieted loud

theorem loud_firstInvalid : loud.FirstInvalid .logLevel :=
  ⟨by decide, [], [.logFormat, .workDir], rfl, by simp⟩

theorem load_merged_iff_overridden_allowed_of_loud :
    quiet.validate = .ok () ∧ loud.FirstInvalid .logLevel ∧
      (∃ given, quieted.Holds Setting.logLevel.override given) ∧
      (load loudFile quieted (.ofString "sbomkit.toml")).1 = .error Setting.logLevel.failure :=
  have passes : quiet.validate = .ok () := validate_eq_ok_iff.mpr quiet_valid
  ⟨passes, loud_firstInvalid,
    (load_merged_iff_overridden_allowed readText_loudFile parse_loudText merges_loud
      passes).2 .logLevel loud_firstInvalid⟩

/-- A variable does not take precedence over a text of the file that is not allowed. -/
theorem loud_file_beats_variable :
    ¬ ∀ (fs : FileSystem) (env : Environment) (path : Path) (text : String)
      (base merged : Config), fs.readText path = .ok text → parse text = .ok base →
      Merges env base merged → merged.validate = .ok () →
        (load fs env path).1 = .ok merged := by
  intro precedence
  have loaded := precedence loudFile quieted (.ofString "sbomkit.toml") loudText loud quiet
    readText_loudFile parse_loudText merges_loud (validate_eq_ok_iff.mpr quiet_valid)
  rw [load_of_error (fromFile_of_firstInvalid readText_loudFile parse_loudText
    loud_firstInvalid)] at loaded
  cases loaded

end Config
end BillOfMaterials
