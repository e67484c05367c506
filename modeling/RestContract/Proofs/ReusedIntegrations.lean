-- Integrations that are used again. What a definition resolves to is as proper as the definition,
-- and every definition that was read is proper. So every integration of a contract can be written,
-- probed as a definition, and resolved to itself.
import RestContract.Proofs.AttachedMethods
import RestContract.Proofs.Probing
import RestContract.Proofs.WrittenHandles
import RestContract.Samples

namespace RestContract

open Shape

/-! ## What is read -/

namespace Shape

variable {fs : Fields} {name : String}

/-- A map that was read has distinct keys. -/
theorem keys_nodup_of_withDefault {α : Type} {item : Shape α} {es : Entries String α}
    (h : withDefault fs name [] (map item) = some es) : (Entries.keys es).Nodup := by
  unfold withDefault at h
  split at h
  · rename_i v _
    cases v with
    | obj entries =>
      obtain ⟨ps, -, rfl⟩ := Option.map_eq_some_iff.mp h
      exact Entries.keys_ofPairs_nodup ps
    | _ => cases h
  · cases h
    exact List.nodup_nil

theorem le_of_upTo {limit n : Nat} {v : Json} (h : upTo limit v = some n) : n ≤ limit := by
  unfold upTo at h
  split at h
  · split at h
    · rename_i k hk
      simp only [Bool.and_eq_true, decide_eq_true_eq] at hk
      cases h
      omega
    · cases h
  · cases h

/-- An optional number that was read fits. -/
theorem le_of_maybe_upTo {limit : Nat} {o : Option Nat}
    (h : maybe fs name (upTo limit) = some o) (n : Nat) (hn : o = some n) : n ≤ limit := by
  subst hn
  unfold maybe withDefault optional at h
  split at h
  · split at h
    · cases h
    · obtain ⟨k, hk, hkn⟩ := Option.map_eq_some_iff.mp h
      cases hkn
      exact le_of_upTo hk
  · cases h

end Shape

theorem LambdaIntegration.proper_of_shape {v : Json} {l : LambdaIntegration}
    (h : shape v = some l) : l.Proper := by
  simp only [shape, Option.bind_eq_bind, Option.bind_eq_some_iff, Option.pure_def,
    Option.some.injEq] at h
  obtain ⟨fs, -, function, -, proxy, -, timeoutMs, htimeout, parameters, hparameters, templates,
    htemplates, rfl⟩ := h
  exact ⟨le_of_maybe_upTo htimeout, keys_nodup_of_withDefault hparameters,
    keys_nodup_of_withDefault htemplates⟩

theorem MockIntegration.proper_of_shape {v : Json} {m : MockIntegration}
    (h : shape v = some m) : m.Proper := by
  simp only [shape, Option.bind_eq_bind, Option.bind_eq_some_iff, Option.pure_def,
    Option.some.injEq] at h
  obtain ⟨fs, -, templates, htemplates, rfl⟩ := h
  exact keys_nodup_of_withDefault htemplates

theorem Integration.proper_of_shape {v : Json} {i : Integration} (h : shape v = some i) :
    i.Proper := by
  unfold shape at h
  split at h
  · obtain ⟨l, hl, rfl⟩ := Option.map_eq_some_iff.mp h
    exact LambdaIntegration.proper_of_shape hl
  · obtain ⟨c, -, rfl⟩ := Option.map_eq_some_iff.mp h
    exact trivial
  · obtain ⟨m, hm, rfl⟩ := Option.map_eq_some_iff.mp h
    exact MockIntegration.proper_of_shape hm
  · cases h

/-! ## Definitions -/

namespace ResourceDefinition

/-- What holds of a definition in memory: its integration or its options are proper. -/
def Proper : ResourceDefinition → Prop
  | integration i | wrapped i _ => i.Proper
  | compute c => c.options.Proper

/-- Every definition that was read is proper. -/
theorem proper_of_probe {v : Json} {d : ResourceDefinition} (h : probe v = .ok d) : d.Proper := by
  unfold probe Probe.of at h
  split at h
  · rename_i i hi
    cases h
    exact Integration.proper_of_shape hi
  · split at h
    · rename_i i hi
      obtain ⟨m, -, hd⟩ := bind_eq_ok h
      cases hd
      obtain ⟨raw, -, hraw⟩ := Option.bind_eq_some_iff.mp hi
      exact Integration.proper_of_shape hraw
    · split at h
      · obtain ⟨proxy, -, h⟩ := bind_eq_ok h
        obtain ⟨timeoutMs, htimeout, h⟩ := bind_eq_ok h
        obtain ⟨queryParams, -, h⟩ := bind_eq_ok h
        obtain ⟨m, -, hd⟩ := bind_eq_ok h
        cases hd
        rintro n (rfl : timeoutMs = some n)
        rcases field_cases htimeout with ⟨hnone, -⟩ | ⟨raw, k, -, -, hk, hn⟩
        · cases hnone
        · cases hn
          exact le_of_upTo hk
      · cases h

/-- An integration is probed as the definition that it is. -/
theorem probe_toJson {i : Integration} (h : i.Proper) : probe i.toJson = .ok (integration i) := by
  rw [probe, Probe.of, Integration.shape_toJson h]
  rfl

/-- A proper definition resolves to a proper integration. -/
theorem proper_resolve {d : ResourceDefinition} (h : d.Proper) (context : ResolveContext) :
    (d.resolve context).Proper := by
  cases d with
  | integration i => exact h
  | wrapped i m => exact h
  | compute c =>
    have hfits : ∀ n, (c.options.timeoutMs <|> none) = some n → n ≤ maxUInt64 := by
      have hnone : (c.options.timeoutMs <|> none) = c.options.timeoutMs := by
        cases c.options.timeoutMs <;> rfl
      rw [hnone]
      exact h
    cases context with
    | pathParams names =>
      exact ⟨hfits, Entries.keys_ofPairs_nodup _, List.nodup_singleton _⟩
    | skipTemplating => exact ⟨hfits, List.nodup_nil, List.nodup_nil⟩

end ResourceDefinition

namespace Declaration

/-- What holds of a declaration in memory: the definitions that it declares are proper. -/
def Proper (d : Declaration) : Prop :=
  (∀ e ∈ d.endpoints, e.definition.Proper) ∧ ∀ p ∈ d.proxies, p.definition.Proper

/-- The integrations of a contract are proper. -/
theorem proper_of_assemble {d : Declaration} (hd : d.Proper) {c : Contract}
    (hc : d.assemble = .ok c) {am : AttachedMethod} (ham : am ∈ ResourceTree.methods c.resources) :
    am.integration.Proper := by
  obtain ⟨q, hasks⟩ := exists_asks_of_assemble hc ham
  cases hasks with
  | @endpoint e he hq =>
    rw [e.integration_attached]
    exact ResourceDefinition.proper_resolve (hd.1 e he) _
  | preflight => exact List.nodup_singleton _
  | @proxy p hp hq => exact ResourceDefinition.proper_resolve (hd.2 p hp) _

end Declaration

/-- Handles and settings come back as they were when they are written and read again, and so does
an integration that is probed as a definition. No context changes it. Whatever is probed is
proper, and so is every integration of a contract. -/
theorem what_is_written_is_read_back :
    (∀ i : Integration, i.Proper → Integration.shape i.toJson = some i) ∧
    (∀ u : ComputeUnit, ComputeUnit.shape u.toJson = some u) ∧
    (∀ a : Authorizer, Authorizer.shape a.toJson = some a) ∧
    (∀ o : IntegrationOptions, o.Proper → IntegrationOptions.shape o.toJson = some o) ∧
    (∀ c : CorsOptions, c.Proper → CorsOptions.shape c.toJson = some c) ∧
    (∀ p : GlobalPolicy, p.Proper → GlobalPolicy.shape p.toJson = some p) ∧
    (∀ p : EffectivePolicy, EffectivePolicy.shape p.toJson = some p) ∧
    (∀ (blank : Json → Bool) (s : Settings), s.Proper → Settings.shape blank s.toJson = some s) ∧
    (∀ i : Integration, i.Proper → ResourceDefinition.probe i.toJson = .ok (.integration i) ∧
      ∀ context, (ResourceDefinition.integration i).resolve context = i) ∧
    (∀ v d, ResourceDefinition.probe v = .ok d → d.Proper) ∧
    ∀ (d : Declaration) (c : Contract), d.Proper → d.assemble = .ok c →
      ∀ am ∈ ResourceTree.methods c.resources,
        ResourceDefinition.probe am.integration.toJson = .ok (.integration am.integration) ∧
          ∀ context, (ResourceDefinition.integration am.integration).resolve context =
            am.integration := by
  have hprobed : ∀ i : Integration, i.Proper →
      ResourceDefinition.probe i.toJson = .ok (.integration i) ∧
        ∀ context, (ResourceDefinition.integration i).resolve context = i :=
    fun i hi => ⟨ResourceDefinition.probe_toJson hi, fun _ => rfl⟩
  exact ⟨fun _ => Integration.shape_toJson, ComputeUnit.shape_toJson, Authorizer.shape_toJson,
    fun _ => IntegrationOptions.shape_toJson, fun _ => CorsOptions.shape_toJson,
    fun _ => GlobalPolicy.shape_toJson, EffectivePolicy.shape_toJson,
    fun blank _ => Settings.shape_toJson blank, hprobed,
    fun _ _ => ResourceDefinition.proper_of_probe,
    fun d c hd hc am ham => hprobed am.integration (d.proper_of_assemble hd hc ham)⟩

/-- The user API in memory is as it has to be, and every integration of its contract is probed as
it was. So is the open definition, once it is probed. An empty list of origins is not read as the
default. -/
theorem the_integrations_of_the_user_api_are_read_back :
    (∃ c, Samples.userApi.assemble = .ok c ∧ (∃ am, am ∈ ResourceTree.methods c.resources) ∧
      ∀ am ∈ ResourceTree.methods c.resources,
        ResourceDefinition.probe am.integration.toJson = .ok (.integration am.integration)) ∧
    Integration.shape Samples.httpBackend.toJson = some Samples.httpBackend ∧
    ResourceDefinition.probe (Integration.invoking Samples.templateFunction).toJson =
      .ok (.integration (.invoking Samples.templateFunction)) ∧
    (∃ definition, ResourceDefinition.probe Samples.openDefinitionJson = .ok definition ∧
      definition.Proper) ∧
    IntegrationOptions.shape (IntegrationOptions.toJson { timeoutMs := some 29000 }) =
      some { timeoutMs := some 29000 } ∧
    CorsOptions.shape (CorsOptions.toJson { allowOrigins := [], maxAgeSecs := some 600 }) =
      some { allowOrigins := [], maxAgeSecs := some 600 } ∧
    GlobalPolicy.shape Samples.globalPolicy.toJson = some Samples.globalPolicy ∧
    Settings.shape isNull (Settings.toJson { cors := some {} }) = some { cors := some {} } := by
  obtain ⟨hintegration, -, -, hoptions, hcors, hpolicy, -, hsettings, hprobed, hread, hassembled⟩ :=
    what_is_written_is_read_back
  have hplain : CorsOptions.Proper {} := nofun
  have hinvoking : LambdaIntegration.Proper { function := Samples.templateFunction } :=
    ⟨nofun, List.nodup_nil, List.nodup_nil⟩
  have hd : Samples.userApi.Proper := by
    have hcompute : ∀ c : ComputeDefinition, c.options = {} →
        ResourceDefinition.Proper (.compute c) := by
      rintro c hc n hn
      rw [hc] at hn
      cases hn
    have hendpoints : Samples.userApi.endpoints =
        [⟨.post, "/users", Samples.createUserDefinition⟩,
          ⟨.get, "/users/\x7bid\x7d", Samples.getUserDefinition⟩] := rfl
    have hproxies : Samples.userApi.proxies = [⟨"/backend", .integration Samples.httpBackend⟩] :=
      rfl
    constructor
    · rw [hendpoints]
      intro e he
      rcases List.mem_pair.mp he with rfl | rfl
      · exact hcompute _ rfl
      · exact hcompute _ rfl
    · rw [hproxies]
      intro p hp
      cases List.mem_singleton.mp hp
      exact trivial
  have hexists : ∃ c, Samples.userApi.assemble = .ok c ∧
      ∃ am, am ∈ ResourceTree.methods c.resources := ⟨_, rfl, _, List.mem_cons_self⟩
  obtain ⟨c, hc, am, ham⟩ := hexists
  refine ⟨⟨c, hc, ⟨am, ham⟩, fun am ham => (hassembled _ c hd hc am ham).1⟩,
    hintegration _ trivial, (hprobed (.lambda _) hinvoking).1,
    ⟨_, rfl, hread Samples.openDefinitionJson _ rfl⟩,
    hoptions _ ?_, hcors _ ?_, hpolicy _ ?_, hsettings _ _ ?_⟩
  · rintro n ⟨⟩
    decide
  · rintro n ⟨⟩
    decide
  · rintro c ⟨⟩
    exact hplain
  · rintro c ⟨⟩
    exact hplain

end RestContract
