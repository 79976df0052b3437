import BillOfMaterials.Config.Load
import BillOfMaterials.Proofs.Path.Segments

/-!
# Which configurations are valid

A configuration is a text for each of three settings. Each setting allows some texts, and the first
one in their order that does not is told by its name and by what it demands.
-/
namespace BillOfMaterials.Config

inductive Setting where
  | logLevel
  | logFormat
  | workDir
  deriving DecidableEq

namespace Setting

/-- The order in which settings are judged. -/
def all : List Setting := [.logLevel, .logFormat, .workDir]

theorem mem_all (s : Setting) : s ∈ all := by
  cases s <;> decide

/-- The name that a failure tells. -/
def name : Setting → String
  | .logLevel => "general.log_level"
  | .logFormat => "general.log_format"
  | .workDir => "spdx.work_dir"

/-- The environment variable that overrides the setting. -/
def override : Setting → String
  | .logLevel => "SBOMKIT_GENERAL_LOG_LEVEL"
  | .logFormat => "SBOMKIT_GENERAL_LOG_FORMAT"
  | .workDir => "SBOMKIT_SPDX_WORK_DIR"

def Allows : Setting → String → Prop
  | .logLevel, text => text ∈ ["trace", "debug", "info", "warn", "error"]
  | .logFormat, text => text ∈ ["json", "pretty"]
  | .workDir, text => ".." ∉ Path.parts text

instance : (s : Setting) → (text : String) → Decidable (s.Allows text)
  | .logLevel, text =>
    inferInstanceAs (Decidable (text ∈ ["trace", "debug", "info", "warn", "error"]))
  | .logFormat, text => inferInstanceAs (Decidable (text ∈ ["json", "pretty"]))
  | .workDir, text => inferInstanceAs (Decidable (".." ∉ Path.parts text))

/-- What a failure says about a text that is not allowed. -/
def demand : Setting → String
  | .logLevel => "must be one of: trace, debug, info, warn, error"
  | .logFormat => "must be one of: json, pretty"
  | .workDir => "must not contain path traversal pattern '..'"

def failure (s : Setting) : Failure := .config (.invalidValue s.name s.demand)

end Setting

def get (c : Config) : Setting → String
  | .logLevel => c.general.logLevel
  | .logFormat => c.general.logFormat
  | .workDir => c.spdx.workDir

/-- There is nothing to a configuration but its settings. -/
theorem ext_get {c c' : Config} (same : ∀ s, c.get s = c'.get s) : c = c' := by
  obtain ⟨⟨level, format⟩, ⟨dir⟩⟩ := c
  obtain ⟨⟨level', format'⟩, ⟨dir'⟩⟩ := c'
  have levels : level = level' := same .logLevel
  have formats : format = format' := same .logFormat
  have dirs : dir = dir' := same .workDir
  rw [levels, formats, dirs]

def Valid (c : Config) : Prop := ∀ s : Setting, s.Allows (c.get s)

/-- The setting is not allowed, and all in front of it are. -/
def FirstInvalid (c : Config) (s : Setting) : Prop :=
  ¬ s.Allows (c.get s) ∧
    ∃ front back, Setting.all = front ++ s :: back ∧ ∀ t ∈ front, t.Allows (c.get t)

variable {c : Config} {s : Setting}

def firstInvalid? (c : Config) : Option Setting :=
  Setting.all.find? fun s => ¬ s.Allows (c.get s)

theorem firstInvalid?_eq_none_iff : c.firstInvalid? = none ↔ c.Valid := by
  simp [firstInvalid?, List.find?_eq_none, Setting.mem_all, Valid]

instance (c : Config) : Decidable c.Valid :=
  decidable_of_iff _ firstInvalid?_eq_none_iff

theorem firstInvalid?_eq_some_iff : c.firstInvalid? = some s ↔ c.FirstInvalid s := by
  simp [firstInvalid?, List.find?_eq_some_iff_append, FirstInvalid]

theorem valid_or_firstInvalid (c : Config) : c.Valid ∨ ∃ s, c.FirstInvalid s := by
  cases found : c.firstInvalid? with
  | none => exact .inl (firstInvalid?_eq_none_iff.mp found)
  | some s => exact .inr ⟨s, firstInvalid?_eq_some_iff.mp found⟩

theorem validate_eq (c : Config) :
    c.validate = match c.firstInvalid? with
      | none => .ok ()
      | some s => .error s.failure := by
  have level : logLevels.contains c.general.logLevel =
      decide (Setting.logLevel.Allows (c.get .logLevel)) := List.contains_eq_mem ..
  have format : logFormats.contains c.general.logFormat =
      decide (Setting.logFormat.Allows (c.get .logFormat)) := List.contains_eq_mem ..
  have dir : (Path.ofString c.spdx.workDir).components.contains .parent =
      decide ¬ Setting.workDir.Allows (c.get .workDir) := by
    rw [Bool.eq_iff_iff, List.contains_iff_mem, Path.parent_mem_components_ofString]
    simp [Setting.Allows, get]
  have levelDemand : oneOf logLevels = Setting.logLevel.demand := by decide +kernel
  have formatDemand : oneOf logFormats = Setting.logFormat.demand := by decide +kernel
  rw [validate, level, format, dir, levelDemand, formatDemand, firstInvalid?, Setting.all]
  by_cases levels : Setting.logLevel.Allows (c.get .logLevel)
  · by_cases formats : Setting.logFormat.Allows (c.get .logFormat)
    · by_cases dirs : Setting.workDir.Allows (c.get .workDir)
      · simp [levels, formats, dirs]
      · simp [levels, formats, dirs, invalid, Setting.failure, Setting.name, Setting.demand]
    · simp [levels, formats, invalid, Setting.failure, Setting.name, Setting.demand]
  · simp [levels, invalid, Setting.failure, Setting.name, Setting.demand]

theorem validate_eq_ok_iff : c.validate = .ok () ↔ c.Valid := by
  rw [validate_eq, ← firstInvalid?_eq_none_iff]
  cases c.firstInvalid? <;> simp

/-- The configuration, if it is valid. -/
def validated (c : Config) : Except Failure Config := c.validate.map fun _ => c

theorem validated_of_valid (valid : c.Valid) : c.validated = .ok c := by
  rw [validated, validate_eq_ok_iff.mpr valid]
  rfl

theorem validated_of_firstInvalid (h : c.FirstInvalid s) : c.validated = .error s.failure := by
  rw [validated, validate_eq, firstInvalid?_eq_some_iff.mpr h]
  rfl

theorem valid_of_validated {c' : Config} (h : c.validated = .ok c') : c'.Valid := by
  obtain valid | ⟨s, invalid⟩ := c.valid_or_firstInvalid
  · rw [validated_of_valid valid, Except.ok.injEq] at h
    exact h ▸ valid
  · rw [validated_of_firstInvalid invalid] at h
    cases h

end BillOfMaterials.Config
