-- Who may call the methods of an assembled contract. Every declared method is guarded as the
-- precedence table says, and what is open was declared to be open. A definition that was
-- read says so only with the value `false` under its key.
import RestContract.Proofs.Probing
import RestContract.Proofs.References

namespace RestContract

/-! ## The precedence table -/

/-- The table: who guards a method of a definition and with which scopes, under a global
authorizer. -/
inductive ResourceDefinition.GuardedBy (g : Option Authorizer) :
    ResourceDefinition → Option Authorizer → Option (List String) → Prop
  /-- An integration alone has nothing to say. -/
  | integration {i : Integration} : GuardedBy g (.integration i) g none
  | disabled {d : ResourceDefinition} {m : RouteMetadata} (hm : d.metadata? = some m)
    (ha : m.auth = .disabled) : GuardedBy g d none none
  | authorizer {d : ResourceDefinition} {m : RouteMetadata} {a : Authorizer}
    (hm : d.metadata? = some m) (ha : m.auth = .authorizer a) :
    GuardedBy g d (some a) m.authorizationScopes
  | inherit {d : ResourceDefinition} {m : RouteMetadata} (hm : d.metadata? = some m)
    (ha : m.auth = .inherit) : GuardedBy g d g m.authorizationScopes

theorem ResourceDefinition.exists_of_metadata?_eq_none {d : ResourceDefinition}
    (h : d.metadata? = none) : ∃ i, d = .integration i := by
  cases d with
  | integration i => exact ⟨i, rfl⟩
  | wrapped i m => cases h
  | compute c => cases h

/-- With a global authorizer, only the second row leaves a method without one. -/
theorem ResourceDefinition.GuardedBy.disabled_of_none {g : Option Authorizer}
    {d : ResourceDefinition} {a : Option Authorizer} {scopes : Option (List String)}
    (h : d.GuardedBy g a scopes) (hg : g ≠ none) (ha : a = none) :
    ∃ m, d.metadata? = some m ∧ m.auth = .disabled := by
  cases h with
  | integration => exact absurd ha hg
  | disabled hm hd => exact ⟨_, hm, hd⟩
  | authorizer hm hd => cases ha
  | inherit hm hd => exact absurd ha hg

/-! ## The policy of a method -/

namespace AttachedMethod

/-- Anyone may call the method. -/
structure IsOpen (am : AttachedMethod) : Prop where
  type_eq : am.authorizationType = "NONE"
  authorizer_eq : am.authorizer = none
  scopes_eq : am.authorizationScopes = none

/-- The authorization type tells the kind of the authorizer, and nothing else. -/
structure TypeAgrees (am : AttachedMethod) : Prop where
  none_iff : am.authorizationType = "NONE" ↔ am.authorizer = none
  pools_iff : am.authorizationType = "COGNITO_USER_POOLS" ↔
    ∃ a, am.authorizer = some a ∧ a.kind = .cognitoUserPools
  custom_iff : am.authorizationType = "CUSTOM" ↔
    ∃ a, am.authorizer = some a ∧ a.kind ≠ .cognitoUserPools

theorem typeAgrees_of_eq {am : AttachedMethod}
    (h : am.authorizationType = authorizationTypeOf am.authorizer) : am.TypeAgrees := by
  cases ha : am.authorizer with
  | none =>
    rw [ha] at h
    constructor <;> rw [h, ha] <;> simp [authorizationTypeOf]
  | some a =>
    rw [ha] at h
    constructor <;> rw [h, ha] <;> cases hk : a.kind <;>
      simp [authorizationTypeOf, AuthorizerKind.authorizationType, hk]

end AttachedMethod

/-! ## Binding -/

/-- A definition is bound as its row of the table says. -/
theorem GlobalPolicy.guardedBy_bind (policy : GlobalPolicy) (d : ResourceDefinition) :
    d.GuardedBy policy.authorizer ((policy.bind d).bind (·.authorizer))
      ((policy.bind d).bind (·.authorizationScopes)) := by
  unfold GlobalPolicy.bind
  cases hm : d.metadata? with
  | none =>
    obtain ⟨i, rfl⟩ := ResourceDefinition.exists_of_metadata?_eq_none hm
    exact .integration
  | some m =>
    simp only
    cases ha : m.auth with
    | inherit => exact .inherit hm ha
    | disabled => exact .disabled hm ha
    | authorizer a => exact .authorizer hm ha

namespace Endpoint

variable (e : Endpoint) (policy : GlobalPolicy)

theorem authorizer_attached :
    (e.attached policy).authorizer = (policy.bind e.definition).bind (·.authorizer) := by
  unfold attached AttachedMethod.guardedBy
  cases policy.bind e.definition <;> rfl

theorem scopes_attached : (e.attached policy).authorizationScopes =
    (policy.bind e.definition).bind (·.authorizationScopes) := by
  unfold attached AttachedMethod.guardedBy
  cases policy.bind e.definition <;> rfl

/-- Without a policy, the type keeps its default, which is that of no authorizer. -/
theorem authorizationType_attached : (e.attached policy).authorizationType =
    authorizationTypeOf (e.attached policy).authorizer := by
  unfold attached AttachedMethod.guardedBy
  cases policy.bind e.definition <;> rfl

theorem guardedBy_attached : e.definition.GuardedBy policy.authorizer
    (e.attached policy).authorizer (e.attached policy).authorizationScopes := by
  rw [authorizer_attached, scopes_attached]
  exact policy.guardedBy_bind e.definition

end Endpoint

theorem Demand.Asks.typeAgrees {D : Demand} {policy : GlobalPolicy} {q : List String}
    {am : AttachedMethod} (h : D.Asks policy q am) : am.TypeAgrees := by
  apply AttachedMethod.typeAgrees_of_eq
  cases h with
  | endpoint he hq => exact Endpoint.authorizationType_attached _ policy
  | preflight he hq hc => rfl
  | proxy hp hq => rfl

/-! ## The policies of a contract -/

/-- Every method of the contract is guarded as it was declared. -/
structure Contract.GuardedAsDeclared (c : Contract) (d : Declaration) : Prop where
  /-- Preflights and the methods of proxies are open. -/
  others_open : ∀ id m am, c.Attached id m am → m = .options ∨ m = .any → am.IsOpen
  /-- Every other method has its row from the one definition that is declared for it. -/
  route_guarded : ∀ id m am, c.Attached id m am → m ≠ .options → m ≠ .any →
    ∃ e, d.endpointsAt (c.resources.segmentsOf id) m = [e] ∧
      e.definition.GuardedBy d.policy.authorizer am.authorizer am.authorizationScopes
  type_agrees : ∀ id m am, c.Attached id m am → am.TypeAgrees
  /-- With a global authorizer, only what was declared to be open is open. -/
  open_only : d.policy.authorizer ≠ none → ∀ id m am, c.Attached id m am →
    am.authorizer = none → m = .options ∨ m = .any ∨
      ∃ e, d.endpointsAt (c.resources.segmentsOf id) m = [e] ∧
        (∃ metadata, e.definition.metadata? = some metadata ∧ metadata.auth = .disabled) ∧
        ∀ v, ResourceDefinition.probe v = .ok e.definition → v.get? "auth" = some (.bool false)

/-- What a definition says about authorization is what its value has under the key. -/
structure ResourceDefinition.AuthReadFrom (d : ResourceDefinition) (v : Json) : Prop where
  disabled_iff : ∀ m, d.metadata? = some m →
    (m.auth = .disabled ↔ v.get? "auth" = some (.bool false))
  inherit_iff : ∀ m, d.metadata? = some m →
    (m.auth = .inherit ↔ v.get? "auth" = none ∨ v.get? "auth" = some .null ∨
      v.get? "auth" = some (.bool true))

theorem ResourceDefinition.authReadFrom_of_probe {v : Json} {d : ResourceDefinition}
    (h : probe v = .ok d) : d.AuthReadFrom v := by
  constructor
  · intro m hm
    exact auth_eq_disabled_iff h hm
  · intro m hm
    exact auth_eq_inherit_iff h hm

namespace Build.Holds

variable {b : Build} {d : Declaration} {id : NodeId} {m : Method} {am : AttachedMethod}

theorem isOpen_of_other (h : b.Holds d d.demand) (hat : (b.contract d).Attached id m am)
    (hm : m = .options ∨ m = .any) : am.IsOpen := by
  obtain ⟨-, rfl, hasks⟩ := h.attached_contract_iff.mp hat
  cases hasks with
  | @endpoint e he hq =>
    obtain ⟨hopt, hany⟩ := Method.isRouteMethod_iff.mp (h.route_methods e he)
    rw [e.method_attached] at hm
    rcases hm with hm | hm
    · exact absurd hm hopt
    · exact absurd hm hany
  | preflight he hq hc => exact ⟨rfl, rfl, rfl⟩
  | proxy hp hq => exact ⟨rfl, rfl, rfl⟩

theorem guardedBy_of_attached (h : b.Holds d d.demand) (hat : (b.contract d).Attached id m am)
    (hopt : m ≠ .options) (hany : m ≠ .any) :
    ∃ e, d.endpointsAt (b.resources.segmentsOf id) m = [e] ∧
      e.definition.GuardedBy d.policy.authorizer am.authorizer am.authorizationScopes := by
  have hroute := Method.isRouteMethod_iff.mpr ⟨hopt, hany⟩
  obtain ⟨e, he, hq, rfl, rfl⟩ := h.endpoint_of_attached hat (Or.inl hroute)
  refine ⟨e, ?_, e.guardedBy_attached d.policy⟩
  rw [← hq]
  exact Declaration.endpointsAt_eq_singleton h.compatible he

end Build.Holds

namespace Declaration

theorem guardedAsDeclared_of_assemble {d : Declaration} {c : Contract}
    (hc : d.assemble = .ok c) : c.GuardedAsDeclared d := by
  obtain ⟨b, h, rfl⟩ := holds_of_assemble hc
  constructor
  · intro id m am hat hm
    exact h.isOpen_of_other hat hm
  · intro id m am hat hopt hany
    exact h.guardedBy_of_attached hat hopt hany
  · intro id m am hat
    obtain ⟨-, -, hasks⟩ := h.attached_contract_iff.mp hat
    exact hasks.typeAgrees
  · intro hg id m am hat hnone
    by_cases hopt : m = .options
    · exact Or.inl hopt
    by_cases hany : m = .any
    · exact Or.inr (Or.inl hany)
    obtain ⟨e, he, hrow⟩ := h.guardedBy_of_attached hat hopt hany
    obtain ⟨metadata, hm, hauth⟩ := hrow.disabled_of_none hg hnone
    refine Or.inr (Or.inr ⟨e, he, ⟨metadata, hm, hauth⟩, ?_⟩)
    intro v hv
    exact (ResourceDefinition.auth_eq_disabled_iff hv hm).mp hauth

/-- Every method of a contract follows the precedence table, and a definition that was read is
open exactly if it says `false`. -/
theorem every_method_follows_the_precedence_table :
    (∀ (d : Declaration) (c : Contract), d.assemble = .ok c → c.GuardedAsDeclared d) ∧
      ∀ (v : Json) (definition : ResourceDefinition),
        ResourceDefinition.probe v = .ok definition → definition.AuthReadFrom v := by
  constructor
  · intro d c hc
    exact guardedAsDeclared_of_assemble hc
  · intro v definition h
    exact ResourceDefinition.authReadFrom_of_probe h

theorem the_report_api_follows_the_precedence_table :
    ∃ c, Samples.reportApi.assemble = .ok c ∧ c.GuardedAsDeclared Samples.reportApi ∧
      ∃ definition, ResourceDefinition.probe Samples.openDefinitionJson = .ok definition ∧
        definition.AuthReadFrom Samples.openDefinitionJson := by
  have hok : ∃ c, Samples.reportApi.assemble = .ok c := ⟨_, rfl⟩
  obtain ⟨c, hc⟩ := hok
  obtain ⟨hguarded, hread⟩ := every_method_follows_the_precedence_table
  have hprobe : ∃ definition,
      ResourceDefinition.probe Samples.openDefinitionJson = .ok definition := ⟨_, rfl⟩
  obtain ⟨definition, hv⟩ := hprobe
  exact ⟨c, hc, hguarded _ c hc, definition, hv, hread _ definition hv⟩

end Declaration

end RestContract
