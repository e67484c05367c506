-- Handles and settings that are written and read again. Each record comes back as it was, field
-- by field: what was left out is restored by its default, and an empty list of origins, which is
-- not left out, stays empty. An integration that comes back is a definition of its own.
import RestContract.Policy.Effective
import RestContract.Proofs.Records
import RestContract.Settings.Basic

namespace RestContract

/-! ## Fields that come back -/

namespace Shape

variable {α : Type} {fs : Fields} {name : String} {shape : Shape α}

/-- The fields of a record that was written are found as they stand in its slots. -/
theorem exists_fields_of_written {v : Json} {slots : Entries String (Option Json)}
    (hv : v = .obj (written slots)) (names : List String) (hnames : Entries.keys slots = names)
    (honce : names.Nodup) (closed : Bool) :
    ∃ fs, fields names closed v = some fs ∧
      ∀ name, Entries.get? fs name = (Entries.get? slots name).join := by
  subst hv hnames
  exact ⟨written slots, fields_written honce closed, get?_written honce⟩

theorem required_of_found {raw : Json} {a : α} (hfound : Entries.get? fs name = some raw)
    (hread : shape raw = some a) : required fs name shape = some a := by
  rw [required, hfound, Option.bind_some, hread]

theorem withDefault_of_found {raw : Json} {a : α} (hfound : Entries.get? fs name = some raw)
    (hread : shape raw = some a) (default : α) : withDefault fs name default shape = some a := by
  rw [withDefault, hfound]
  exact hread

theorem withDefault_text_of_found {t : String} (hfound : Entries.get? fs name = some (.str t))
    (default : String) : withDefault fs name default text = some t := by
  rw [withDefault, hfound]
  rfl

theorem withDefault_flag_of_found {b : Bool} (hfound : Entries.get? fs name = some (.bool b))
    (default : Bool) : withDefault fs name default flag = some b := by
  rw [withDefault, hfound]
  rfl

theorem maybe_of_found {o : Option α} (write : α → Json)
    (hfound : Entries.get? fs name = o.map write)
    (hread : ∀ a, o = some a → write a ≠ .null ∧ shape (write a) = some a) :
    maybe fs name shape = some o := by
  have hmaybe : maybe fs name shape = some (o.map id) := maybe_of_given hfound hread
  rwa [Option.map_id] at hmaybe

/-- An optional number that fits is no `null`, and is read as it is. -/
theorem maybe_upTo_of_found {o : Option Nat} {limit : Nat}
    (hfound : Entries.get? fs name = o.map Json.nat) (hfits : ∀ n, o = some n → n ≤ limit) :
    maybe fs name (upTo limit) = some o := by
  refine maybe_of_found .nat hfound fun n hn => ⟨Json.noConfusion, ?_⟩
  have hle := hfits n hn
  simp [upTo, Json.nat, hle]

theorem maybe_text_of_found {o : Option String} (hfound : Entries.get? fs name = o.map Json.str) :
    maybe fs name text = some o :=
  maybe_of_found .str hfound fun _ _ => ⟨Json.noConfusion, rfl⟩

theorem list_text_strings (ss : List String) : list text (Json.strings ss) = some ss := by
  have hitems := mapM_eq_some_map (g := text ∘ Json.str) (f := id) (l := ss) fun _ _ => rfl
  rw [List.map_id] at hitems
  rw [Json.strings, list, List.mapM_map]
  exact hitems

theorem map_text_textMap {es : Entries String String} (honce : (Entries.keys es).Nodup) :
    map text (Json.textMap es) = some es := by
  have hkeys : (Entries.keys (es.map fun e => (e.1, Json.str e.2))).Nodup := by
    rwa [Entries.keys_map_values]
  refine (map_obj_eq_some_iff hkeys).mpr ?_
  rw [List.forall₂_map_left_iff, List.forall₂_same]
  exact fun e _ => ⟨rfl, rfl⟩

/-- A map of texts that was left out comes back empty, and any other one as it was. -/
theorem withDefault_textMap_of_found {es : Entries String String}
    (hfound : Entries.get? fs name = filled (.textMap es)) (honce : (Entries.keys es).Nodup) :
    withDefault fs name [] (map text) = some es := by
  cases es with
  | nil => rw [withDefault, hfound]; rfl
  | cons e es => exact withDefault_of_found hfound (map_text_textMap honce) _

end Shape

open Shape

/-! ## Compute units and authorizers -/

namespace ComputeUnit

theorem toJson_eq (u : ComputeUnit) : u.toJson = .obj (written
    [("functionName", some (.str u.functionName)), ("arn", u.arn.map .str)]) := by
  rw [toJson, given_eq]
  rfl

/-- A compute unit comes back with its identifier, if it has one. -/
theorem shape_toJson (u : ComputeUnit) : shape u.toJson = some u := by
  obtain ⟨fs, hfs, hfound⟩ := exists_fields_of_written u.toJson_eq ["functionName", "arn"] rfl
    (by decide) false
  have hname : required fs "functionName" text = some u.functionName :=
    required_of_found (hfound "functionName") rfl
  have harn : maybe fs "arn" text = some u.arn := maybe_text_of_found (hfound "arn")
  rw [toJson, fields] at hfs
  rw [toJson, shape, hfs]
  simp [hname, harn]

end ComputeUnit

namespace Authorizer

theorem toJson_eq (a : Authorizer) : a.toJson = .obj (written
    [("id", some (.str a.id)), ("kind", some (.str a.kind.name)),
      ("identitySource", a.identitySource.map .str)]) := by
  rw [toJson, given_eq]
  rfl

theorem shape_toJson (a : Authorizer) : shape a.toJson = some a := by
  obtain ⟨fs, hfs, hfound⟩ := exists_fields_of_written a.toJson_eq
    ["id", "kind", "identitySource"] rfl (by decide) false
  have hid : required fs "id" text = some a.id :=
    required_of_found (hfound "id") rfl
  have hkind : withDefault fs "kind" .cognitoUserPools (choice isNull AuthorizerKind.names) =
      some a.kind :=
    withDefault_of_found (hfound "kind") (by cases a.kind <;> decide) _
  have hsource : maybe fs "identitySource" text = some a.identitySource :=
    maybe_text_of_found (hfound "identitySource")
  rw [shape, hfs]
  simp [hid, hkind, hsource]

end Authorizer

/-! ## Integrations -/

namespace IntegrationOptions

/-- What holds of options in memory: the timeout is a number of 64 bits. -/
def Proper (o : IntegrationOptions) : Prop := ∀ n, o.timeoutMs = some n → n ≤ maxUInt64

theorem toJson_eq (o : IntegrationOptions) : o.toJson = .obj (written
    [("proxy", o.proxy.map .bool), ("timeoutMs", o.timeoutMs.map .nat)]) := by
  rw [toJson, given_eq, given_eq, written_append]
  rfl

theorem shape_toJson {o : IntegrationOptions} (h : o.Proper) : shape o.toJson = some o := by
  obtain ⟨fs, hfs, hfound⟩ := exists_fields_of_written o.toJson_eq ["proxy", "timeoutMs"] rfl
    (by decide) false
  have hproxy : maybe fs "proxy" flag = some o.proxy :=
    maybe_of_found .bool (hfound "proxy") fun _ _ => ⟨Json.noConfusion, rfl⟩
  have htimeout : maybe fs "timeoutMs" (upTo maxUInt64) = some o.timeoutMs :=
    maybe_upTo_of_found (hfound "timeoutMs") h
  rw [shape, hfs]
  simp [hproxy, htimeout]

end IntegrationOptions

namespace LambdaIntegration

/-- What holds of an invocation in memory: the timeout is a number of 64 bits, and the maps have
distinct keys. -/
structure Proper (l : LambdaIntegration) : Prop where
  fits : ∀ n, l.timeoutMs = some n → n ≤ maxUInt64
  parameters_once : (Entries.keys l.requestParameters).Nodup
  templates_once : (Entries.keys l.requestTemplates).Nodup

/-- The fields with their values, where they are not left out. -/
def slots (l : LambdaIntegration) : Entries String (Option Json) :=
  [("function", some l.function.toJson), ("proxy", some (.bool l.proxy)),
    ("timeoutMs", l.timeoutMs.map .nat),
    ("requestParameters", filled (.textMap l.requestParameters)),
    ("requestTemplates", filled (.textMap l.requestTemplates))]

theorem entries_eq (l : LambdaIntegration) : l.entries = written l.slots := by
  have hfirst : [("function", l.function.toJson), ("proxy", Json.bool l.proxy)] =
      written [("function", some l.function.toJson), ("proxy", some (.bool l.proxy))] := rfl
  rw [entries, hfirst, given_eq, unlessEmpty_eq, unlessEmpty_eq]
  simp only [written_append]
  rfl

theorem shape_toJson {l : LambdaIntegration} (h : l.Proper) : shape l.toJson = some l := by
  obtain ⟨fs, hfs, hfound⟩ := exists_fields_of_written (congrArg Json.obj l.entries_eq)
    ["function", "proxy", "timeoutMs", "requestParameters", "requestTemplates"] rfl (by decide)
    false
  have hfunction : required fs "function" ComputeUnit.shape = some l.function :=
    required_of_found (hfound "function") l.function.shape_toJson
  have hproxy : withDefault fs "proxy" true flag = some l.proxy :=
    withDefault_flag_of_found (hfound "proxy") _
  have htimeout : maybe fs "timeoutMs" (upTo maxUInt64) = some l.timeoutMs :=
    maybe_upTo_of_found (hfound "timeoutMs") h.fits
  have hparameters : withDefault fs "requestParameters" [] (map text) = some l.requestParameters :=
    withDefault_textMap_of_found (hfound "requestParameters") h.parameters_once
  have htemplates : withDefault fs "requestTemplates" [] (map text) = some l.requestTemplates :=
    withDefault_textMap_of_found (hfound "requestTemplates") h.templates_once
  rw [shape, toJson, hfs]
  simp [hfunction, hproxy, htimeout, hparameters, htemplates]

end LambdaIntegration

namespace HttpIntegration

theorem entries_eq (h : HttpIntegration) : h.entries = written
    [("uri", some (.str h.uri)), ("httpMethod", some (.str h.httpMethod.name)),
      ("proxy", some (.bool h.proxy))] := rfl

theorem shape_obj_entries (h : HttpIntegration) : shape (.obj h.entries) = some h := by
  obtain ⟨fs, hfs, hfound⟩ := exists_fields_of_written (congrArg Json.obj h.entries_eq)
    ["uri", "httpMethod", "proxy"] rfl (by decide) false
  have huri : required fs "uri" text = some h.uri :=
    required_of_found (hfound "uri") rfl
  have hmethod : withDefault fs "httpMethod" .any (choice saysNothing Method.names) =
      some h.httpMethod :=
    withDefault_of_found (hfound "httpMethod") (by cases h.httpMethod <;> decide) _
  have hproxy : withDefault fs "proxy" true flag = some h.proxy :=
    withDefault_flag_of_found (hfound "proxy") _
  rw [shape, hfs]
  simp [huri, hmethod, hproxy]

end HttpIntegration

namespace MockIntegration

/-- What holds of an answer in memory: its templates have distinct content types. -/
def Proper (m : MockIntegration) : Prop := (Entries.keys m.requestTemplates).Nodup

/-- The templates are not left out if there are none. -/
theorem entries_eq (m : MockIntegration) :
    m.entries = written [("requestTemplates", some (.textMap m.requestTemplates))] := rfl

theorem shape_obj_entries {m : MockIntegration} (h : m.Proper) :
    shape (.obj m.entries) = some m := by
  obtain ⟨fs, hfs, hfound⟩ := exists_fields_of_written (congrArg Json.obj m.entries_eq)
    ["requestTemplates"] rfl (by decide) false
  have htemplates : withDefault fs "requestTemplates" [] (map text) = some m.requestTemplates :=
    withDefault_of_found (hfound "requestTemplates") (map_text_textMap h) _
  rw [shape, hfs]
  simp [htemplates]

end MockIntegration

namespace Integration

/-- What holds of an integration in memory. -/
def Proper : Integration → Prop
  | lambda l => l.Proper
  | http _ => True
  | mock m => m.Proper

/-- Fields of which none is a tag are what is left of a tagged object. -/
theorem tagged_type_cons {entries : List (String × Json)} (name : Json)
    (h : "type" ∉ Entries.keys entries) :
    tagged "type" (.obj (("type", name) :: entries)) = some (name, .obj entries) := by
  have hnone : ∀ e ∈ entries, e.1 ≠ "type" := by
    rintro e he htag
    exact h (htag ▸ List.mem_map_of_mem he)
  have htags : entries.filter (·.1 == "type") = [] := by simpa using hnone
  have hrest : entries.filter (·.1 != "type") = entries := by simpa using hnone
  rw [tagged, List.filter_cons_of_pos (by rfl), htags, List.filter_cons_of_neg (by simp), hrest]

theorem shape_toJson {i : Integration} (h : i.Proper) : shape i.toJson = some i := by
  cases i with
  | lambda l =>
    have htag : "type" ∉ Entries.keys l.entries := by
      rw [LambdaIntegration.entries_eq]
      exact fun hmem => absurd ((keys_written_sublist l.slots).subset hmem) (by
        show "type" ∉ ["function", "proxy", "timeoutMs", "requestParameters", "requestTemplates"]
        decide)
    have hread : LambdaIntegration.shape (.obj l.entries) = some l :=
      LambdaIntegration.shape_toJson h
    simp only [shape, toJson, typeName, tagged_type_cons _ htag, hread, Option.map_some]
  | http c =>
    have htag : "type" ∉ Entries.keys c.entries := by
      show "type" ∉ ["uri", "httpMethod", "proxy"]
      decide
    simp only [shape, toJson, typeName, tagged_type_cons _ htag,
      HttpIntegration.shape_obj_entries, Option.map_some]
  | mock m =>
    have htag : "type" ∉ Entries.keys m.entries := by
      show "type" ∉ ["requestTemplates"]
      decide
    simp only [shape, toJson, typeName, tagged_type_cons _ htag,
      MockIntegration.shape_obj_entries h, Option.map_some]

end Integration

/-! ## Policies -/

namespace CorsOptions

/-- What holds of CORS options in memory: the age is a number of 64 bits. -/
def Proper (c : CorsOptions) : Prop := ∀ n, c.maxAgeSecs = some n → n ≤ maxUInt64

theorem toJson_eq (c : CorsOptions) : c.toJson = .obj (written
    [("allowOrigins", some (.strings c.allowOrigins)),
      ("allowMethods", some (.strings c.allowMethods)),
      ("allowHeaders", some (.strings c.allowHeaders)),
      ("exposeHeaders", filled (.strings c.exposeHeaders)),
      ("allowCredentials", some (.bool c.allowCredentials)),
      ("maxAgeSecs", c.maxAgeSecs.map .nat)]) := by
  rw [toJson, unlessEmpty_eq, given_eq]
  cases c.exposeHeaders <;> rfl

/-- CORS options come back with their lists, empty ones included. -/
theorem shape_toJson {c : CorsOptions} (h : c.Proper) : shape c.toJson = some c := by
  obtain ⟨fs, hfs, hfound⟩ := exists_fields_of_written c.toJson_eq ["allowOrigins", "allowMethods",
    "allowHeaders", "exposeHeaders", "allowCredentials", "maxAgeSecs"] rfl (by decide) true
  have hlist : ∀ {name : String} {ss : List String}, Entries.get? fs name = some (.strings ss) →
      ∀ default, withDefault fs name default (list text) = some ss :=
    fun hss => withDefault_of_found hss (list_text_strings _)
  have horigins := hlist (hfound "allowOrigins")
  have hmethods := hlist (hfound "allowMethods")
  have hheaders := hlist (hfound "allowHeaders")
  have hexposed : withDefault fs "exposeHeaders" [] (list text) = some (c.exposeHeaders.map id) :=
    withDefault_of_list (hfound "exposeHeaders") fun _ _ => rfl
  have hcredentials : withDefault fs "allowCredentials" false flag = some c.allowCredentials :=
    withDefault_flag_of_found (hfound "allowCredentials") _
  have hage : maybe fs "maxAgeSecs" (upTo maxUInt64) = some c.maxAgeSecs :=
    maybe_upTo_of_found (hfound "maxAgeSecs") h
  rw [shape, hfs]
  simp [horigins, hmethods, hheaders, hexposed, hcredentials, hage]

end CorsOptions

namespace GlobalPolicy

/-- What holds of a policy in memory. -/
def Proper (p : GlobalPolicy) : Prop := ∀ c, p.cors = some c → c.Proper

theorem toJson_eq (p : GlobalPolicy) : p.toJson = .obj (written
    [("authorizer", p.authorizer.map Authorizer.toJson),
      ("cors", p.cors.map CorsOptions.toJson)]) := by
  rw [toJson, given_eq, given_eq, written_append]
  rfl

theorem shape_toJson {p : GlobalPolicy} (h : p.Proper) : shape p.toJson = some p := by
  obtain ⟨fs, hfs, hfound⟩ := exists_fields_of_written p.toJson_eq ["authorizer", "cors"] rfl
    (by decide) false
  have hauthorizer : maybe fs "authorizer" Authorizer.shape = some p.authorizer :=
    maybe_of_found _ (hfound "authorizer") fun a _ => ⟨Json.noConfusion, a.shape_toJson⟩
  have hcors : maybe fs "cors" CorsOptions.shape = some p.cors :=
    maybe_of_found _ (hfound "cors") fun c hc =>
      ⟨Json.noConfusion, CorsOptions.shape_toJson (h c hc)⟩
  rw [shape, hfs]
  simp [hauthorizer, hcors]

end GlobalPolicy

namespace EffectivePolicy

theorem toJson_eq (p : EffectivePolicy) : p.toJson = .obj (written
    [("authorizer", p.authorizer.map Authorizer.toJson),
      ("authorizationScopes", p.authorizationScopes.map Json.strings)]) := by
  rw [toJson, given_eq, given_eq, written_append]
  rfl

theorem shape_toJson (p : EffectivePolicy) : shape p.toJson = some p := by
  obtain ⟨fs, hfs, hfound⟩ := exists_fields_of_written p.toJson_eq
    ["authorizer", "authorizationScopes"] rfl (by decide) false
  have hauthorizer : maybe fs "authorizer" Authorizer.shape = some p.authorizer :=
    maybe_of_found _ (hfound "authorizer") fun a _ => ⟨Json.noConfusion, a.shape_toJson⟩
  have hscopes : maybe fs "authorizationScopes" (list text) = some p.authorizationScopes :=
    maybe_of_found _ (hfound "authorizationScopes") fun ss _ =>
      ⟨Json.noConfusion, list_text_strings ss⟩
  rw [shape, hfs]
  simp [hauthorizer, hscopes]

end EffectivePolicy

/-! ## Settings -/

namespace ApiSettings

theorem toJson_eq (s : ApiSettings) : s.toJson = .obj (written
    [("name", some (.str s.name)), ("stage_name", some (.str s.stageName)),
      ("validate_request_body", some (.bool s.validateRequestBody)),
      ("validate_request_parameters", some (.bool s.validateRequestParameters))]) := rfl

theorem shape_toJson (s : ApiSettings) : shape s.toJson = some s := by
  obtain ⟨fs, hfs, hfound⟩ := exists_fields_of_written s.toJson_eq
    ["name", "stage_name", "validate_request_body", "validate_request_parameters"] rfl (by decide)
    true
  have hname := withDefault_text_of_found (hfound "name")
  have hstage := withDefault_text_of_found (hfound "stage_name")
  have hbody := withDefault_flag_of_found (hfound "validate_request_body")
  have hparameters := withDefault_flag_of_found (hfound "validate_request_parameters")
  rw [shape, hfs]
  simp [hname, hstage, hbody, hparameters]

end ApiSettings

namespace LogSettings

theorem toJson_eq (s : LogSettings) : s.toJson = .obj (written
    [("enabled", some (.bool s.enabled)), ("level", some (.str s.level)),
      ("format", some (.str s.format.name)), ("ansi_enabled", some (.bool s.ansiEnabled)),
      ("include_location", some (.bool s.includeLocation))]) := rfl

theorem shape_toJson (blank : Json → Bool) (s : LogSettings) : shape blank s.toJson = some s := by
  obtain ⟨fs, hfs, hfound⟩ := exists_fields_of_written s.toJson_eq
    ["enabled", "level", "format", "ansi_enabled", "include_location"] rfl (by decide) true
  have henabled := withDefault_flag_of_found (hfound "enabled")
  have hlevel := withDefault_text_of_found (hfound "level")
  have hformat : withDefault fs "format" .json (choice blank LogFormat.names) = some s.format :=
    withDefault_of_found (hfound "format") (by cases s.format <;> rfl) _
  have hansi := withDefault_flag_of_found (hfound "ansi_enabled")
  have hlocation := withDefault_flag_of_found (hfound "include_location")
  rw [shape, hfs]
  simp [henabled, hlevel, hformat, hansi, hlocation]

end LogSettings

namespace Settings

/-- What holds of settings in memory. -/
def Proper (s : Settings) : Prop := ∀ c, s.cors = some c → c.Proper

theorem toJson_eq (s : Settings) : s.toJson = .obj (written
    [("api", some s.api.toJson), ("logging", some s.logging.toJson),
      ("cors", s.cors.map CorsOptions.toJson)]) := by
  rw [toJson, given_eq]
  rfl

theorem shape_toJson (blank : Json → Bool) {s : Settings} (h : s.Proper) :
    shape blank s.toJson = some s := by
  obtain ⟨fs, hfs, hfound⟩ := exists_fields_of_written s.toJson_eq ["api", "logging", "cors"] rfl
    (by decide) true
  have hapi : withDefault fs "api" {} ApiSettings.shape = some s.api :=
    withDefault_of_found (hfound "api") s.api.shape_toJson _
  have hlogging : withDefault fs "logging" {} (LogSettings.shape blank) = some s.logging :=
    withDefault_of_found (hfound "logging") (s.logging.shape_toJson blank) _
  have hcors : maybe fs "cors" CorsOptions.shape = some s.cors :=
    maybe_of_found _ (hfound "cors") fun c hc =>
      ⟨Json.noConfusion, CorsOptions.shape_toJson (h c hc)⟩
  rw [shape, hfs]
  simp [hapi, hlogging, hcors]

end Settings

end RestContract
