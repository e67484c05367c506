-- The laws of layers. A text says some of the settings and leaves the others open. What it
-- leaves open is filled from the defaults, whatever the layers in front gave, so that the
-- settings of a run of layers are those of the last preset or text alone.
import RestContract.Settings.Loading

namespace RestContract

/-! ## Fields that are said -/

namespace Shape

variable {α β : Type}

/-- The value of a field, if there is one. -/
def said (fs : Fields) (name : String) (shape : Shape α) : Option (Option α) :=
  match Entries.get? fs name with
  | some v => (shape v).map some
  | none => some none

theorem withDefault_eq (fs : Fields) (name : String) (default : α) (shape : Shape α) :
    withDefault fs name default shape = (said fs name shape).map (·.getD default) := by
  unfold withDefault said
  cases Entries.get? fs name with
  | none => rfl
  | some v =>
    dsimp only
    cases shape v <;> rfl

theorem said_map (fs : Fields) (name : String) (shape : Shape α) (f : α → β) :
    said fs name (fun v => (shape v).map f) = (said fs name shape).map (·.map f) := by
  unfold said
  cases Entries.get? fs name with
  | none => rfl
  | some v =>
    dsimp only
    cases shape v <;> rfl

end Shape

theorem getD_eq_getD_iff {α : Type} {o : Option α} {a b : α} :
    o.getD a = o.getD b ↔ (o = none → a = b) := by
  cases o <;> simp

/-! ## What a text says -/

open Shape

/-- The settings of an API that a text says. -/
structure ApiSettings.Patch where
  name : Option String := none
  stageName : Option String := none
  validateRequestBody : Option Bool := none
  validateRequestParameters : Option Bool := none
  deriving DecidableEq

namespace ApiSettings.Patch

/-- The settings with what is said in place of their own. -/
def applyTo (p : Patch) (s : ApiSettings) : ApiSettings where
  name := p.name.getD s.name
  stageName := p.stageName.getD s.stageName
  validateRequestBody := p.validateRequestBody.getD s.validateRequestBody
  validateRequestParameters := p.validateRequestParameters.getD s.validateRequestParameters

/-- The settings are the same wherever nothing is said. -/
structure AgreeBeside (p : Patch) (s t : ApiSettings) : Prop where
  name_eq : p.name = none → s.name = t.name
  stageName_eq : p.stageName = none → s.stageName = t.stageName
  body_eq : p.validateRequestBody = none → s.validateRequestBody = t.validateRequestBody
  parameters_eq : p.validateRequestParameters = none →
    s.validateRequestParameters = t.validateRequestParameters

theorem applyTo_eq_applyTo_iff {p : Patch} {s t : ApiSettings} :
    p.applyTo s = p.applyTo t ↔ p.AgreeBeside s t := by
  simp only [applyTo, ApiSettings.mk.injEq, getD_eq_getD_iff]
  constructor
  · rintro ⟨hname, hstage, hbody, hparameters⟩
    exact ⟨hname, hstage, hbody, hparameters⟩
  · rintro ⟨hname, hstage, hbody, hparameters⟩
    exact ⟨hname, hstage, hbody, hparameters⟩

/-- What an object without unknown fields says, or an array. -/
def shape : Shape Patch := fun v => do
  let fs ← fields ["name", "stage_name", "validate_request_body", "validate_request_parameters"]
    true v
  return {
    name := ← said fs "name" text
    stageName := ← said fs "stage_name" text
    validateRequestBody := ← said fs "validate_request_body" flag
    validateRequestParameters := ← said fs "validate_request_parameters" flag }

end ApiSettings.Patch

theorem ApiSettings.shape_eq (v : Json) :
    ApiSettings.shape v = (Patch.shape v).map (·.applyTo {}) := by
  simp only [ApiSettings.shape, Patch.shape, withDefault_eq, Option.bind_eq_bind,
    Option.bind_map, Option.map_bind, Function.comp_def, Option.pure_def, Option.map_some]
  rfl

/-- The settings of the log that a text says. -/
structure LogSettings.Patch where
  enabled : Option Bool := none
  level : Option String := none
  format : Option LogFormat := none
  ansiEnabled : Option Bool := none
  includeLocation : Option Bool := none
  deriving DecidableEq

namespace LogSettings.Patch

/-- The settings with what is said in place of their own. -/
def applyTo (p : Patch) (s : LogSettings) : LogSettings where
  enabled := p.enabled.getD s.enabled
  level := p.level.getD s.level
  format := p.format.getD s.format
  ansiEnabled := p.ansiEnabled.getD s.ansiEnabled
  includeLocation := p.includeLocation.getD s.includeLocation

/-- The settings are the same wherever nothing is said. -/
structure AgreeBeside (p : Patch) (s t : LogSettings) : Prop where
  enabled_eq : p.enabled = none → s.enabled = t.enabled
  level_eq : p.level = none → s.level = t.level
  format_eq : p.format = none → s.format = t.format
  ansi_eq : p.ansiEnabled = none → s.ansiEnabled = t.ansiEnabled
  location_eq : p.includeLocation = none → s.includeLocation = t.includeLocation

theorem applyTo_eq_applyTo_iff {p : Patch} {s t : LogSettings} :
    p.applyTo s = p.applyTo t ↔ p.AgreeBeside s t := by
  simp only [applyTo, LogSettings.mk.injEq, getD_eq_getD_iff]
  constructor
  · rintro ⟨henabled, hlevel, hformat, hansi, hlocation⟩
    exact ⟨henabled, hlevel, hformat, hansi, hlocation⟩
  · rintro ⟨henabled, hlevel, hformat, hansi, hlocation⟩
    exact ⟨henabled, hlevel, hformat, hansi, hlocation⟩

/-- What an object without unknown fields says, or an array. The argument decides which values
say nothing beside the name of a format. -/
def shape (blank : Json → Bool) : Shape Patch := fun v => do
  let fs ← fields ["enabled", "level", "format", "ansi_enabled", "include_location"] true v
  return {
    enabled := ← said fs "enabled" flag
    level := ← said fs "level" text
    format := ← said fs "format" (choice blank LogFormat.names)
    ansiEnabled := ← said fs "ansi_enabled" flag
    includeLocation := ← said fs "include_location" flag }

end LogSettings.Patch

theorem LogSettings.shape_eq (blank : Json → Bool) (v : Json) :
    LogSettings.shape blank v = (Patch.shape blank v).map (·.applyTo {}) := by
  simp only [LogSettings.shape, Patch.shape, withDefault_eq, Option.bind_eq_bind,
    Option.bind_map, Option.map_bind, Function.comp_def, Option.pure_def, Option.map_some]
  rfl

/-- The settings that a text says. It says the CORS options as a whole, and may say that there
are none. -/
structure Settings.Patch where
  api : ApiSettings.Patch := {}
  logging : LogSettings.Patch := {}
  cors : Option (Option CorsOptions) := none
  deriving DecidableEq

namespace Settings.Patch

/-- The settings with what is said in place of their own. -/
def applyTo (p : Patch) (s : Settings) : Settings where
  api := p.api.applyTo s.api
  logging := p.logging.applyTo s.logging
  cors := p.cors.getD s.cors

/-- The settings are the same wherever nothing is said. -/
structure AgreeBeside (p : Patch) (s t : Settings) : Prop where
  api_agree : p.api.AgreeBeside s.api t.api
  logging_agree : p.logging.AgreeBeside s.logging t.logging
  cors_eq : p.cors = none → s.cors = t.cors

theorem applyTo_eq_applyTo_iff {p : Patch} {s t : Settings} :
    p.applyTo s = p.applyTo t ↔ p.AgreeBeside s t := by
  simp only [applyTo, Settings.mk.injEq, getD_eq_getD_iff, ApiSettings.Patch.applyTo_eq_applyTo_iff,
    LogSettings.Patch.applyTo_eq_applyTo_iff]
  constructor
  · rintro ⟨hapi, hlogging, hcors⟩
    exact ⟨hapi, hlogging, hcors⟩
  · rintro ⟨hapi, hlogging, hcors⟩
    exact ⟨hapi, hlogging, hcors⟩

/-- What an object without unknown fields says, or an array. The argument decides which values
say nothing beside the name of a log format. -/
def shape (blank : Json → Bool) : Shape Patch := fun v => do
  let fs ← fields ["api", "logging", "cors"] true v
  return {
    api := (← said fs "api" ApiSettings.Patch.shape).getD {}
    logging := (← said fs "logging" (LogSettings.Patch.shape blank)).getD {}
    cors := ← said fs "cors" (optional CorsOptions.shape) }

/-- What a text in a format says. -/
def ofText? (text : String) : SettingsFormat → Option Patch
  | .toml => (Toml.read? text).bind (shape isEmptyContainer)
  | .json => (Json.read? text).bind (shape isNull)

/-- What a file says. Its extension names the format. -/
def ofFile? (path : String) (found : Found) : Option Patch := do
  let text ← found.text?
  let format ← (FilePath.extension? path).bind SettingsFormat.ofName?
  ofText? text format

theorem isThere_of_ofFile? {path : String} {found : Found} {p : Patch}
    (h : ofFile? path found = some p) : found.isThere = true := by
  cases found with
  | nothing => cases h
  | directory | bytes => rfl

end Settings.Patch

namespace Settings

/-- The settings of a document are what it says over the defaults. -/
theorem shape_eq (blank : Json → Bool) (v : Json) :
    Settings.shape blank v = (Patch.shape blank v).map (·.applyTo {}) := by
  have hapi : ApiSettings.shape = fun v => (ApiSettings.Patch.shape v).map (·.applyTo {}) :=
    funext ApiSettings.shape_eq
  have hlogging : LogSettings.shape blank =
      fun v => (LogSettings.Patch.shape blank v).map (·.applyTo {}) :=
    funext (LogSettings.shape_eq blank)
  have hnoApi (p : Option ApiSettings.Patch) :
      (p.map (·.applyTo {})).getD {} = (p.getD {}).applyTo {} := by cases p <;> rfl
  have hnoLogging (p : Option LogSettings.Patch) :
      (p.map (·.applyTo {})).getD {} = (p.getD {}).applyTo {} := by cases p <;> rfl
  simp only [Settings.shape, Patch.shape, maybe, hapi, hlogging, withDefault_eq, said_map,
    Option.bind_eq_bind, Option.bind_map, Option.map_bind, Function.comp_def, Option.pure_def,
    Option.map_some, hnoApi, hnoLogging]
  rfl

theorem parse_eq (text : String) (format : SettingsFormat) :
    parse text format = match Patch.ofText? text format with
      | some p => .ok (p.applyTo {})
      | none => .error (.malformed format) := by
  cases format with
  | toml =>
    unfold parse Patch.ofText?
    cases Toml.read? text with
    | none => rfl
    | some v =>
      simp only [Option.bind_some, shape_eq]
      cases Patch.shape isEmptyContainer v <;> rfl
  | json =>
    unfold parse Patch.ofText?
    cases Json.read? text with
    | none => rfl
    | some v =>
      simp only [Option.bind_some, shape_eq]
      cases Patch.shape isNull v <;> rfl

end Settings

/-! ## Layers -/

namespace Layer

/-- What a layer with a text says. -/
def patch? (look : String → Found) : Layer → Option Settings.Patch
  | .text content name => (SettingsFormat.ofName? name).bind (Settings.Patch.ofText? content)
  | .file path | .optionalFile path => Settings.Patch.ofFile? path (look path)
  | _ => none

/-- The settings of a layer that has any. -/
def settings? (look : String → Found) : Layer → Option Settings
  | .development => some .development
  | .production => some .production
  | y => (y.patch? look).map (·.applyTo {})

end Layer

namespace Loader

open Settings

variable {look : String → Found} {l l' : Loader}

theorem map_parse_eq_ok_iff {text : String} {format : SettingsFormat} :
    ((parse text format).map fun settings => { l with settings }) = .ok l' ↔
      ∃ p, Patch.ofText? text format = some p ∧ l' = { l with settings := p.applyTo {} } := by
  rw [parse_eq]
  cases Patch.ofText? text format with
  | none => simp [Except.map]
  | some p => simp [Except.map, eq_comm]

theorem withFile_eq_ok_iff {path : String} {found : Found} :
    l.withFile path found = .ok l' ↔
      ∃ p, Patch.ofFile? path found = some p ∧ l' = { l with settings := p.applyTo {} } := by
  unfold withFile Patch.ofFile?
  cases found with
  | nothing => simp [Found.isThere, Found.text?]
  | directory => simp [Found.isThere, Found.text?]
  | bytes content =>
    simp only [Found.isThere, Bool.not_true, Bool.false_eq_true, if_false]
    cases Found.text? (.bytes content) with
    | none => simp
    | some text =>
      cases (FilePath.extension? path).bind SettingsFormat.ofName? with
      | none => simp
      | some format => exact map_parse_eq_ok_iff

theorem readVariables_settings (l : Loader) (found : Found) :
    (l.readVariables found).1.settings = l.settings := by
  cases found <;> rfl

/-- A layer with a text puts what the text says over the defaults, in place of the settings so
far. -/
theorem apply_of_patch? {y : Layer} {p : Patch} (h : y.patch? look = some p) (l : Loader) :
    l.apply look y = .ok { l with settings := p.applyTo {} } := by
  cases y with
  | text content name =>
    obtain ⟨format, hformat, htext⟩ := Option.bind_eq_some_iff.mp h
    simp only [apply, hformat]
    exact map_parse_eq_ok_iff.mpr ⟨p, htext, rfl⟩
  | file path => exact withFile_eq_ok_iff.mpr ⟨p, h, rfl⟩
  | optionalFile path =>
    rw [apply, if_pos (Patch.isThere_of_ofFile? h)]
    exact withFile_eq_ok_iff.mpr ⟨p, h, rfl⟩
  | _ => cases h

/-- A layer either has settings, which come in place of those so far, or keeps them. -/
theorem settings_of_apply {y : Layer} (h : l.apply look y = .ok l') :
    l'.settings = (y.settings? look).getD l.settings := by
  cases y with
  | development | production | overrides beginning =>
    cases h
    rfl
  | text content name =>
    rw [apply] at h
    cases hformat : SettingsFormat.ofName? name with
    | none => simp [hformat] at h
    | some format =>
      simp only [hformat] at h
      obtain ⟨p, hp, rfl⟩ := map_parse_eq_ok_iff.mp h
      simp [Layer.settings?, Layer.patch?, hformat, hp]
  | file path =>
    obtain ⟨p, hp, rfl⟩ := withFile_eq_ok_iff.mp h
    simp [Layer.settings?, Layer.patch?, hp]
  | optionalFile path =>
    rw [apply] at h
    split at h
    · obtain ⟨p, hp, rfl⟩ := withFile_eq_ok_iff.mp h
      simp [Layer.settings?, Layer.patch?, hp]
    · rename_i hthere
      cases h
      have hnone : Patch.ofFile? path (look path) = none :=
        Option.eq_none_iff_forall_ne_some.mpr fun p hp => hthere (Patch.isThere_of_ofFile? hp)
      simp [Layer.settings?, Layer.patch?, hnone]
  | dotenv =>
    cases h
    exact readVariables_settings l (look dotenvPath)
  | dotenvFile path =>
    have hkeeps := readVariables_settings l (look path)
    rw [apply] at h
    rcases hread : l.readVariables (look path) with ⟨l₁, sound⟩
    rw [hread] at h hkeeps
    cases sound with
    | true =>
      cases h
      exact hkeeps
    | false => cases h

/-- The settings of a run of layers are those of the last layer that has any. -/
theorem settings_of_run {ls : List Layer} (h : ls.foldlM (apply look) l = .ok l') :
    l'.settings = (ls.filterMap (Layer.settings? look)).getLast?.getD l.settings := by
  induction ls generalizing l with
  | nil => cases h; rfl
  | cons y ls ih =>
    rw [List.foldlM_cons] at h
    cases hy : l.apply look y with
    | error e =>
      rw [hy] at h
      cases h
    | ok l₁ =>
      rw [hy] at h
      rw [ih h, settings_of_apply hy]
      cases hsettings : y.settings? look with
      | none => rw [List.filterMap_cons_none hsettings, Option.getD_none]
      | some s => rw [List.filterMap_cons_some hsettings, List.getLast?_cons, Option.getD_some,
          Option.getD_some]

/-! ## The law -/

/-- After any run of layers, a text gives the settings it says and takes all others from the
defaults. So it keeps the settings of the layers before it exactly if those had the default
wherever the text says nothing. -/
theorem a_text_falls_back_to_the_defaults (look : String → Found) (environment : Variables)
    (ls : List Layer) (l : Loader) (hrun : ls.foldlM (apply look) { environment } = .ok l)
    (y : Layer) (p : Patch) (hp : y.patch? look = some p) :
    l.settings = (ls.filterMap (Layer.settings? look)).getLast?.getD {} ∧
      ∃ l', l.apply look y = .ok l' ∧ l'.settings = p.applyTo {} ∧
        l'.environment = l.environment ∧ l'.beginning = l.beginning ∧
        (l'.settings = p.applyTo l.settings ↔ p.AgreeBeside {} l.settings) := by
  refine ⟨settings_of_run hrun, _, apply_of_patch? hp l, rfl, rfl, rfl, ?_⟩
  exact Patch.applyTo_eq_applyTo_iff

/-- A text that only says the level of the log. -/
def warnText : String := "[logging]\nlevel = \"warn\"\n"

theorem the_warn_text_falls_back_to_the_defaults :
    ∃ l l', [Layer.development, .overrides "app", .production].foldlM
        (apply fun _ => .nothing) {} = .ok l ∧
      l.settings = .production ∧
      l.apply (fun _ => .nothing) (.text warnText "TOML") = .ok l' ∧
      l'.settings = { logging := { level := "warn" } } ∧ l'.beginning = some "APP" ∧
      l'.settings ≠ Patch.applyTo { logging := { level := some "warn" } } l.settings := by
  have hp : (Layer.text warnText "TOML").patch? (fun _ => .nothing) =
      some { logging := { level := some "warn" } } := by decide +kernel
  have hupper : Text.upper "app" = "APP" := by decide +kernel
  obtain ⟨hsettings, l', happly, hl', -, hbeginning, hkept⟩ :=
    a_text_falls_back_to_the_defaults (fun _ => .nothing) []
      [.development, .overrides "app", .production] _ rfl _ _ hp
  refine ⟨_, l', rfl, hsettings, happly, hl', hbeginning.trans (congrArg some hupper), ?_⟩
  intro h
  have hstage : "dev" = "prod" := (hkept.mp h).api_agree.stageName_eq rfl
  exact absurd hstage (by decide)

/-- The stage of the preset for production does not outlast a text that says nothing of it. -/
theorem the_warn_text_forgets_the_stage_of_production :
    ∃ l l' p, [Layer.production].foldlM (apply fun _ => .nothing) {} = .ok l ∧
      (Layer.text warnText "toml").patch? (fun _ => .nothing) = some p ∧
      p.api.stageName = none ∧
      l.apply (fun _ => .nothing) (.text warnText "toml") = .ok l' ∧
      l.settings.api.stageName = "prod" ∧ l'.settings.api.stageName = "dev" := by
  have hp : (Layer.text warnText "toml").patch? (fun _ => .nothing) =
      some { logging := { level := some "warn" } } := by decide +kernel
  exact ⟨_, _, _, rfl, hp, rfl, apply_of_patch? hp _, rfl, rfl⟩

end Loader

end RestContract
