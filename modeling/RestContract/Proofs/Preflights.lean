-- Preflights and the CORS options behind them. An assembly checks its options before it looks at
-- a route, so every preflight that it attaches answers with headers that browsers accept. Options
-- from settings were checked when the settings were loaded, so they are never in the way.
import RestContract.Proofs.AttachedMethods
import RestContract.Proofs.Probing
import RestContract.Proofs.Spelling
import RestContract.Proofs.UnknownKeys
import RestContract.Samples
import RestContract.Settings.Loading

namespace RestContract

/-! ## Options that browsers accept -/

namespace CorsOptions

variable {c : CorsOptions}

/-- Browsers do not accept the options: there is no origin, or credentials beside a star among the
origins, or an age above the limit. -/
def IsRejected (c : CorsOptions) : Prop :=
  c.allowOrigins = [] ∨ (c.allowCredentials = true ∧ "*" ∈ c.allowOrigins) ∨
    ∃ secs, c.maxAgeSecs = some secs ∧ 86400 < secs

/-- The check lets the options through exactly if browsers accept them. -/
theorem validate_eq_ok_iff : c.validate = .ok () ↔ ¬ c.IsRejected := by
  have horigins : c.allowOrigins.isEmpty = true ↔ c.allowOrigins = [] := List.isEmpty_iff
  have hcredentials : (c.allowCredentials && c.allowsAnyOrigin) = true ↔
      c.allowCredentials = true ∧ "*" ∈ c.allowOrigins := by
    rw [Bool.and_eq_true, allowsAnyOrigin, List.contains_iff_mem]
  simp only [IsRejected, not_or]
  rw [← horigins, ← hcredentials]
  unfold validate maxAgeLimitSecs
  split
  · simp_all
  · split
    · simp_all
    · split
      · rename_i secs hsecs
        by_cases hlimit : 86400 < secs <;> simp_all
      · simp_all

theorem exists_validate_eq_error_iff : (∃ e, c.validate = .error e) ↔ c.IsRejected := by
  rw [← not_iff_not, ← validate_eq_ok_iff]
  cases c.validate <;> simp

end CorsOptions

/-! ## Headers -/

/-- The headers answer a preflight safely: they name an origin, which is no star if credentials
are allowed, and the age they name is within the limit. -/
structure AnswersSafely (headers : Entries String String) : Prop where
  origin : ∃ o, Entries.get? headers "Access-Control-Allow-Origin" = some o
  credentials : ∀ o, Entries.has headers "Access-Control-Allow-Credentials" = true →
    Entries.get? headers "Access-Control-Allow-Origin" = some o → o ≠ "*"
  max_age : ∀ age, Entries.get? headers "Access-Control-Max-Age" = some age →
    ∃ secs : Nat, secs ≤ 86400 ∧ age = toString secs

namespace CorsOptions

/-- The headers by name. The only origin that is named is the first one. -/
theorem get?_preflightHeaders (c : CorsOptions) :
    Entries.get? c.preflightHeaders "Access-Control-Allow-Origin" = c.allowOrigins.head? ∧
      Entries.has c.preflightHeaders "Access-Control-Allow-Credentials" = c.allowCredentials ∧
      Entries.get? c.preflightHeaders "Access-Control-Max-Age" = c.maxAgeSecs.map toString := by
  unfold preflightHeaders
  cases c.allowOrigins.head? <;> cases c.allowCredentials <;> cases c.exposeHeaders.isEmpty <;>
    cases c.maxAgeSecs <;> simp [Entries.get?, Entries.has, List.lookup_cons]

theorem answersSafely_of_valid {c : CorsOptions} (h : c.validate = .ok ()) :
    AnswersSafely c.preflightHeaders := by
  obtain ⟨horigin, hcredentials, hage⟩ := c.get?_preflightHeaders
  have haccepted := validate_eq_ok_iff.mp h
  constructor
  · obtain ⟨o, rest, ho⟩ := List.exists_cons_of_ne_nil fun hnil => haccepted (Or.inl hnil)
    exact ⟨o, by rw [horigin, ho]; rfl⟩
  · rintro o hhas ho rfl
    rw [horigin] at ho
    rw [hcredentials] at hhas
    exact haccepted (Or.inr (Or.inl ⟨hhas, List.mem_of_mem_head? ho⟩))
  · intro age hget
    rw [hage, Option.map_eq_some_iff] at hget
    obtain ⟨secs, hsecs, rfl⟩ := hget
    exact ⟨secs, Nat.not_lt.mp fun hlt => haccepted (Or.inr (Or.inr ⟨secs, hsecs, hlt⟩)), rfl⟩

end CorsOptions

/-! ## Assemblies -/

/-- The method answers with one response, whose headers are safe. -/
def AttachedMethod.AnswersSafely (m : AttachedMethod) : Prop :=
  ∃ r, m.responses = [r] ∧ RestContract.AnswersSafely r.headers

namespace Declaration

variable {d : Declaration}

theorem answersSafely_of_assemble {c : Contract} (hc : d.assemble = .ok c) {am : AttachedMethod}
    (ham : am ∈ ResourceTree.methods c.resources) (hm : am.method = .options) :
    am.AnswersSafely := by
  obtain ⟨_, hgives, -⟩ := assemble_eq_ok_iff.mp hc
  obtain ⟨b, h, -⟩ := holds_of_assemble hc
  obtain ⟨q, hasks⟩ := exists_asks_of_assemble hc ham
  obtain ⟨cors, hcors, -, rfl⟩ := h.eq_preflight hm hasks
  exact ⟨_, rfl, CorsOptions.answersSafely_of_valid (cors_valid_of_gives hgives cors hcors)⟩

/-- An assembly fails for CORS options that browsers do not accept, whatever its routes are, and
for no other options. -/
theorem exists_error_cors_iff :
    (∃ e, d.assemble = .error (.cors e)) ↔ ∃ c, d.policy.cors = some c ∧ c.IsRejected := by
  constructor
  · rintro ⟨e, he⟩
    by_contra hnone
    have hvalid : ∀ c, d.policy.cors = some c → c.validate = .ok () := fun c hc =>
      CorsOptions.validate_eq_ok_iff.mpr fun hrejected => hnone ⟨c, hc, hrejected⟩
    rw [assemble_eq_error_iff, attachRoutes_eq hvalid] at he
    exact (Assembling.serves_routes d.routes).fails d.start _ d.start_holds he
  · rintro ⟨c, hc, hrejected⟩
    obtain ⟨e, he⟩ := CorsOptions.exists_validate_eq_error_iff.mpr hrejected
    exact ⟨e, assemble_of_invalid hc he⟩

end Declaration

/-! ## Settings and manifests -/

/-- Settings that were loaded have no CORS options that browsers reject. -/
theorem Loader.accepted_of_load {l : Loader} {s : Settings} (h : l.load = .ok s) {c : CorsOptions}
    (hc : s.cors = some c) : ¬ c.IsRejected := by
  have hvalid : s.validate = .ok () := by
    unfold load at h
    obtain ⟨s', -, h⟩ := ResourceDefinition.bind_eq_ok h
    obtain ⟨_, hvalid, h⟩ := ResourceDefinition.bind_eq_ok h
    cases h
    exact hvalid
  rw [← CorsOptions.validate_eq_ok_iff]
  unfold Settings.validate at hvalid
  rw [hc] at hvalid
  cases he : c.validate with
  | ok _ => rfl
  | error e =>
    simp only [he] at hvalid
    repeat' (split at hvalid; · cases hvalid)
    cases hvalid

/-- The result of reading is the value that the reading comes to. -/
theorem Reading.ComesTo.eq_some_of_outcome {α : Type} {r : Reading α} {x : Option α} {a : α}
    (hr : ComesTo r x) (h : r.outcome.1 = .ok a) : x = some a := by
  cases x with
  | none =>
    obtain ⟨e, he⟩ := hr.exists_outcome_eq
    rw [h] at he
    cases he
  | some y =>
    rw [hr.outcome_eq] at h
    cases h
    rfl

/-- A manifest has CORS options exactly if its global section says something about them. -/
theorem Manifest.cors_eq_none_iff_of_ofOutline {o : Outline} {m : Manifest}
    (h : (ofOutline o).outcome.1 = .ok m) : m.policy.cors = none ↔ o.cors = none := by
  obtain ⟨authorizer?, hauth⟩ := exists_comesTo_readAuth o.auth
  obtain ⟨cors?, hcors⟩ := exists_comesTo_readCors o.cors
  have hmanifest := (comesTo_ofOutline hauth hcors).eq_some_of_outcome h
  simp only [Option.bind_eq_some_iff, Option.some.injEq] at hmanifest
  obtain ⟨authorizer, -, cors, rfl, routes, -, rfl⟩ := hmanifest
  have hread := hcors.outcome_eq
  revert hread
  unfold readCors
  cases o.cors with
  | none =>
    intro hread
    cases hread
    exact iff_of_true rfl rfl
  | some v =>
    dsimp only
    cases CorsOptions.shape v with
    | none => nofun
    | some c =>
      intro hread
      cases hread
      exact iff_of_false nofun nofun

/-- No assembly sends a preflight that browsers reject, whatever its CORS options come from, and
only options that browsers reject are in its way. Options from settings never are, once the
settings were loaded. -/
theorem preflights_are_safe_and_loaded_settings_never_break_assembly :
    (∀ (d : Declaration) (c : Contract), d.assemble = .ok c →
      ∀ am ∈ ResourceTree.methods c.resources, am.method = .options → am.AnswersSafely) ∧
    (∀ d : Declaration, (∃ e, d.assemble = .error (.cors e)) ↔
      ∃ c, d.policy.cors = some c ∧ c.IsRejected) ∧
    (∀ (d : Declaration) (s : Settings), (∃ e, (d.completedBy s).assemble = .error (.cors e)) ↔
      ∃ c, (d.policy.cors <|> s.cors) = some c ∧ c.IsRejected) ∧
    (∀ (m : Manifest) (s : Settings), (∃ e, (m.declaration s).assemble = .error (.cors e)) ↔
      ∃ c, (m.policy.cors <|> s.cors) = some c ∧ c.IsRejected) ∧
    (∀ (o : Outline) (m : Manifest), (Manifest.ofOutline o).outcome.1 = .ok m →
      (m.policy.cors = none ↔ o.cors = none)) ∧
    ∀ (l : Loader) (s : Settings), l.load = .ok s → ∀ m : Manifest, m.policy.cors = none →
      ∀ e, (m.declaration s).assemble ≠ .error (.cors e) := by
  have hmanifest : ∀ (m : Manifest) (s : Settings),
      (∃ e, (m.declaration s).assemble = .error (.cors e)) ↔
        ∃ c, (m.policy.cors <|> s.cors) = some c ∧ c.IsRejected :=
    fun _ _ => Declaration.exists_error_cors_iff
  refine ⟨fun d c hc am ham hm => d.answersSafely_of_assemble hc ham hm,
    fun d => Declaration.exists_error_cors_iff, fun d s => Declaration.exists_error_cors_iff,
    hmanifest, fun o m => Manifest.cors_eq_none_iff_of_ofOutline, ?_⟩
  intro l s hs m hm e he
  obtain ⟨c, hc, hrejected⟩ := (hmanifest m s).mp ⟨e, he⟩
  rw [hm] at hc
  exact Loader.accepted_of_load hs hc hrejected

/-- Settings without a log that allow every origin. -/
def quietSettings : Settings := { logging := { enabled := false }, cors := some {} }

/-- The preflights of the user API, and loaded settings for a manifest without options. -/
theorem the_preflights_of_the_user_api_are_safe :
    (∃ c, Samples.userApi.assemble = .ok c ∧
      ∃ am ∈ ResourceTree.methods c.resources, am.method = .options ∧ am.AnswersSafely) ∧
    (∃ m, (Manifest.ofOutline {}).outcome.1 = .ok m ∧ m.policy.cors = none) ∧
    Loader.load { settings := quietSettings } = .ok quietSettings ∧
      ∀ e, (Manifest.declaration {} quietSettings).assemble ≠ .error (.cors e) := by
  obtain ⟨hsafe, -, -, -, hread, hloaded⟩ :=
    preflights_are_safe_and_loaded_settings_never_break_assembly
  have hassembled : ∃ c, Samples.userApi.assemble = .ok c ∧
      ∃ am ∈ ResourceTree.methods c.resources, am.method = .options := ⟨_, rfl, by decide⟩
  obtain ⟨c, hc, am, ham, hm⟩ := hassembled
  have hmanifest : ∃ m, (Manifest.ofOutline {}).outcome.1 = .ok m := ⟨_, rfl⟩
  obtain ⟨m, hm'⟩ := hmanifest
  have hsettings : Loader.load { settings := quietSettings } = .ok quietSettings := by
    decide +kernel
  exact ⟨⟨c, hc, am, ham, hm, hsafe _ c hc am ham hm⟩, ⟨m, hm', (hread _ m hm').mpr rfl⟩,
    hsettings, hloaded _ _ hsettings {} rfl⟩

end RestContract
