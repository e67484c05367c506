-- The references of an assembled contract. A method names its artifacts in slots: one for
-- the validator, one for the model of the request and one for each response. No name leads
-- nowhere, no artifact is without a slot, and no two slots share one.
import RestContract.Proofs.AssembledTree

namespace RestContract

/-! ## Slots -/

/-- A place in a method that names a model. -/
inductive ModelSlot where
  | request
  /-- The response with a place in the order of the responses. -/
  | response (i : Nat)

/-- The method names a model in a slot, for some content type. -/
def AttachedMethod.Names (am : AttachedMethod) : ModelSlot → String → Prop
  | .request, name => name ∈ Entries.values am.requestModels
  | .response i, name => ∃ r, am.responses[i]? = some r ∧ name ∈ Entries.values r.models

namespace ResourceDefinition

/-- What a definition declares in a slot: the role of the model and its schema. -/
def slot? (d : ResourceDefinition) : ModelSlot → Option (Naming.Role × TypeSchema)
  | .request => d.request?.map fun s => (.requestModel, s)
  | .response i => d.responses[i]?.map (·.2)

/-- The schema that a definition declares in a slot. -/
def schemaIn? (d : ResourceDefinition) (slot : ModelSlot) : Option TypeSchema :=
  (d.slot? slot).map (·.2)

variable {d : ResourceDefinition}

theorem slot?_response_eq {i : Nat} {role : Naming.Role} {s : TypeSchema}
    (h : d.slot? (.response i) = some (role, s)) :
    (d.responses.map (·.2.1))[i]? = some role := by
  obtain ⟨x, hx, hrole⟩ := Option.map_eq_some_iff.mp h
  rw [List.getElem?_map, hx, Option.map_some, hrole]

/-- The roles of a servable definition tell its slots apart. -/
theorem slot_unique (h : d.Servable) {slot slot' : ModelSlot} {role : Naming.Role}
    {s s' : TypeSchema} (hs : d.slot? slot = some (role, s))
    (hs' : d.slot? slot' = some (role, s')) : slot = slot' := by
  have hrequest : ∀ {s}, d.slot? .request = some (role, s) → role = .requestModel := by
    intro s hreq
    obtain ⟨_, -, heq⟩ := Option.map_eq_some_iff.mp hreq
    exact (Prod.mk.inj heq).1.symm
  have hresponse : ∀ {i s}, d.slot? (.response i) = some (role, s) → role ≠ .requestModel :=
    fun hres => (d.responses_roles_ne (List.mem_of_getElem? (slot?_response_eq hres))).2
  cases slot with
  | request =>
    cases slot' with
    | request => rfl
    | response j => exact absurd (hrequest hs) (hresponse hs')
  | response i =>
    cases slot' with
    | request => exact absurd (hrequest hs') (hresponse hs)
    | response j =>
      have honce := d.responses_roles_nodup_iff.mpr h.statuses_once
      have hi := slot?_response_eq hs
      have hlt := (List.getElem?_eq_some_iff.mp hi).1
      rw [(List.getElem?_inj hlt honce).mp (hi.trans (slot?_response_eq hs').symm)]

end ResourceDefinition

namespace Endpoint

variable {e : Endpoint} {policy : GlobalPolicy}

theorem validator_attached (e : Endpoint) (policy : GlobalPolicy) :
    (e.attached policy).validator = some (e.artifact .requestValidator) := by
  unfold attached AttachedMethod.guardedBy
  split <;> rfl

theorem requestModels_attached (e : Endpoint) (policy : GlobalPolicy) :
    (e.attached policy).requestModels = (e.definition.request?.map fun _ =>
      (contentTypeJson, e.artifact .requestModel)).toList := by
  unfold attached AttachedMethod.guardedBy
  split <;> rfl

theorem responses_attached (e : Endpoint) (policy : GlobalPolicy) :
    (e.attached policy).responses = e.definition.responses.map fun r =>
      { statusCode := r.1, models := [(contentTypeJson, e.artifact r.2.1)] } := by
  unfold attached AttachedMethod.guardedBy
  split <;> rfl

/-- A method names in each slot the artifact with the role that is declared there. -/
theorem names_attached_iff {slot : ModelSlot} {name : String} :
    (e.attached policy).Names slot name ↔
      ∃ role s, e.definition.slot? slot = some (role, s) ∧ name = e.artifact role := by
  cases slot with
  | request =>
    unfold AttachedMethod.Names ResourceDefinition.slot?
    rw [requestModels_attached]
    cases e.definition.request? <;> simp [Entries.values, eq_comm]
  | response i =>
    simp only [AttachedMethod.Names, ResourceDefinition.slot?, responses_attached,
      List.getElem?_map]
    cases e.definition.responses[i]? with
    | none => simp
    | some r => simp [Entries.values, Prod.ext_iff, eq_comm]

theorem mem_models_iff {m : String × TypeSchema} : m ∈ e.models ↔
    ∃ slot role, e.definition.slot? slot = some (role, m.2) ∧ m.1 = e.artifact role := by
  obtain ⟨name, s⟩ := m
  simp only [models, List.mem_append, Option.mem_toList, Option.map_eq_some_iff, List.mem_map,
    Prod.mk.injEq]
  constructor
  · rintro (⟨_, hreq, rfl, rfl⟩ | ⟨⟨status, role, _⟩, hmem, rfl, rfl⟩)
    · exact ⟨.request, .requestModel, by simp [ResourceDefinition.slot?, hreq], rfl⟩
    · obtain ⟨i, hi⟩ := List.mem_iff_getElem?.mp hmem
      exact ⟨.response i, role, by simp [ResourceDefinition.slot?, hi], rfl⟩
  · rintro ⟨slot, role, hslot, rfl⟩
    cases slot with
    | request =>
      obtain ⟨_, hreq, heq⟩ := Option.map_eq_some_iff.mp hslot
      cases heq
      exact Or.inl ⟨s, hreq, rfl, rfl⟩
    | response i =>
      obtain ⟨⟨status, _⟩, hres, rfl⟩ := Option.map_eq_some_iff.mp hslot
      exact Or.inr ⟨(status, role, s), List.mem_of_getElem? hres, rfl, rfl⟩

theorem mem_modelList_iff {model : Model} : model ∈ e.modelList ↔
    ∃ slot role s, e.definition.slot? slot = some (role, s) ∧
      ∃ document, s.convertModel = .ok document ∧
        model = { name := e.artifact role, document } := by
  have hof : ∀ m : String × TypeSchema, Model.ofSchema? m = some model ↔
      ∃ document, m.2.convertModel = .ok document ∧ model = { name := m.1, document } := by
    intro m
    unfold Model.ofSchema?
    cases m.2.convertModel <;> simp [Except.toOption, eq_comm]
  simp only [modelList, List.mem_filterMap, mem_models_iff, hof]
  constructor
  · rintro ⟨⟨_, s⟩, ⟨slot, role, hslot, rfl⟩, document, hdoc, rfl⟩
    exact ⟨slot, role, s, hslot, document, hdoc, rfl⟩
  · rintro ⟨slot, role, s, hslot, document, hdoc, rfl⟩
    exact ⟨(e.artifact role, s), ⟨slot, role, hslot, rfl⟩, document, hdoc, rfl⟩

end Endpoint

/-! ## The artifacts of a build -/

/-- What is asked for comes from an endpoint or refers to nothing. -/
theorem Demand.asks_cases {D : Demand} {policy : GlobalPolicy} {q : List String}
    {am : AttachedMethod} (hasks : D.Asks policy q am) :
    (∃ e ∈ D.endpoints, e.segments = q ∧ e.method = am.method ∧ am = e.attached policy) ∨
      (am.method.isRouteMethod = false ∧ am.validator = none ∧
        ∀ slot name, ¬ am.Names slot name) := by
  cases hasks with
  | @endpoint e he hq => exact Or.inl ⟨e, he, hq, (e.method_attached policy).symm, rfl⟩
  | @preflight e c he hq hc =>
    refine Or.inr ⟨rfl, rfl, ?_⟩
    rintro (_ | i) name hname
    · cases hname
    · obtain ⟨r, hr, hmem⟩ := hname
      rw [List.mem_singleton.mp (List.mem_of_getElem? hr)] at hmem
      cases hmem
  | proxy =>
    refine Or.inr ⟨rfl, rfl, ?_⟩
    rintro (_ | i) name hname
    · cases hname
    · obtain ⟨r, hr, -⟩ := hname
      cases hr

theorem Endpoint.Apart.symm {e e' : Endpoint} (h : e.Apart e') : e'.Apart e := fun hm =>
  ⟨(h hm.symm).1.symm, (h hm.symm).2.symm⟩

/-- Endpoints that are apart are told apart by their methods and the words of their paths. -/
theorem Demand.Compatible.endpoint_unique {D : Demand} (h : D.Compatible) {e e' : Endpoint}
    (he : e ∈ D.endpoints) (he' : e' ∈ D.endpoints) (hm : e.method = e'.method)
    (hp : Naming.alphanumeric e.path = Naming.alphanumeric e'.path) : e = e' := by
  by_contra hne
  have : Std.Symm Endpoint.Apart := ⟨fun _ _ => Endpoint.Apart.symm⟩
  exact (h.endpoints_apart.forall he he' hne hm).2 hp

namespace Build.Holds

variable {b : Build} {d : Declaration} {D : Demand}

theorem has_validators_iff (h : b.Holds d D) (name : String) :
    Entries.has b.validators name = true ↔
      ∃ e ∈ D.endpoints, name = e.artifact .requestValidator := by
  rw [← Entries.mem_keys_iff, h.validators_eq]
  simp [Entries.keys, eq_comm]

theorem mem_models_iff (h : b.Holds d D) (name : String) (model : Model) :
    (name, model) ∈ b.models ↔ ∃ e ∈ D.endpoints, model ∈ e.modelList ∧ model.name = name := by
  rw [h.models_eq]
  simp only [List.mem_map, List.mem_flatMap, Prod.mk.injEq]
  constructor
  · rintro ⟨_, ⟨e, he, hmem⟩, rfl, rfl⟩
    exact ⟨e, he, hmem, rfl⟩
  · rintro ⟨e, he, hmem, rfl⟩
    exact ⟨model, ⟨e, he, hmem⟩, rfl, rfl⟩

theorem has_models_iff (h : b.Holds d D) (name : String) : Entries.has b.models name = true ↔
    ∃ e ∈ D.endpoints, ∃ slot role s, e.definition.slot? slot = some (role, s) ∧
      name = e.artifact role := by
  rw [← Entries.mem_keys_iff, Entries.keys, List.mem_map]
  constructor
  · rintro ⟨⟨_, model⟩, hmem, rfl⟩
    obtain ⟨e, he, hmodel, rfl⟩ := (h.mem_models_iff _ _).mp hmem
    obtain ⟨slot, role, s, hslot, document, -, rfl⟩ := Endpoint.mem_modelList_iff.mp hmodel
    exact ⟨e, he, slot, role, s, hslot, rfl⟩
  · rintro ⟨e, he, slot, role, s, hslot, rfl⟩
    have hmem : (e.artifact role, s) ∈ e.models :=
      Endpoint.mem_models_iff.mpr ⟨slot, role, hslot, rfl⟩
    obtain ⟨document, hdoc⟩ :=
      Endpoint.models_convert (h.compatible.endpoints_servable e he) _ hmem
    have hmodel := Endpoint.mem_modelList_iff.mpr ⟨slot, role, s, hslot, document, hdoc, rfl⟩
    exact ⟨_, (h.mem_models_iff _ _).mpr ⟨e, he, hmodel, rfl⟩, rfl⟩

/-- No two artifacts of a build have one name. -/
theorem names_nodup (h : b.Holds d D) :
    (Entries.keys b.validators ++ Entries.keys b.models).Nodup := by
  have hmodels : Entries.keys b.models = D.endpoints.flatMap fun e => e.models.map (·.1) := by
    have hnames : ∀ e ∈ D.endpoints, e.modelList.map (·.name) = e.models.map (·.1) :=
      fun e he => Endpoint.names_modelList (h.compatible.endpoints_servable e he)
    rw [h.models_eq, Entries.keys, List.map_map, List.map_flatMap]
    exact List.flatMap_congr hnames
  have hvalidators : Entries.keys b.validators =
      D.endpoints.map fun e => e.artifact .requestValidator := by
    rw [h.validators_eq, Entries.keys, List.map_map]
    rfl
  rw [hmodels, hvalidators, (List.map_append_flatMap_perm _ _ _).nodup_iff]
  refine List.nodup_flatMap.mpr ⟨?_, ?_⟩
  · intro e he
    exact e.artifactNames_nodup_iff.mpr (h.compatible.endpoints_servable e he).statuses_once
  · refine h.compatible.endpoints_apart.imp fun hapart => ?_
    exact Endpoint.artifactNames_disjoint_iff.mpr fun hm => (hapart hm).2

end Build.Holds

/-! ## The references of a contract -/

/-- The method stands on a node of the contract. -/
def Contract.Attached (c : Contract) (id : NodeId) (m : Method) (am : AttachedMethod) : Prop :=
  id < c.resources.size ∧ Entries.get? (c.resources.attachments id).methods m = some am

/-- The references of the contract are in order: they are to artifacts that are there, and each
artifact is the subject of one. -/
structure Contract.WellReferenced (c : Contract) (d : Declaration) : Prop where
  /-- Every method of a route names a validator that is there. -/
  validator_there : ∀ id m am, c.Attached id m am → m.isRouteMethod = true →
    ∃ name, am.validator = some name ∧ Entries.has c.validators name = true
  /-- Every model that a method names is there. -/
  models_there : ∀ id m am, c.Attached id m am →
    ∀ slot name, am.Names slot name → Entries.has c.models name = true
  /-- Every validator is named by exactly one method. -/
  validator_once : ∀ name, Entries.has c.validators name = true →
    ∃! x : NodeId × Method, ∃ am, c.Attached x.1 x.2 am ∧ am.validator = some name
  /-- Every model is named in exactly one slot. -/
  model_once : ∀ name, Entries.has c.models name = true →
    ∃! x : NodeId × Method × ModelSlot,
      ∃ am, c.Attached x.1 x.2.1 am ∧ am.Names x.2.2 name
  /-- No two artifacts have one name, whatever they are. -/
  names_once : (Entries.keys c.validators ++ Entries.keys c.models).Nodup
  validator_named : ∀ x ∈ c.validators, x.2.name = x.1
  model_named : ∀ x ∈ c.models, x.2.name = x.1
  /-- A model is the document of the schema that is declared in the slot that names it. -/
  document_declared : ∀ id m am, c.Attached id m am → ∀ slot name, am.Names slot name →
    ∃ e s model, d.endpointsAt (c.resources.segmentsOf id) m = [e] ∧
      e.definition.schemaIn? slot = some s ∧ Entries.get? c.models name = some model ∧
      s.convertModel = .ok model.document
  /-- Preflights and proxies name nothing. -/
  others_bare : ∀ id m am, c.Attached id m am → m.isRouteMethod = false →
    am.validator = none ∧ ∀ slot name, ¬ am.Names slot name

namespace Build.Holds

variable {b : Build} {d : Declaration}

theorem attached_contract_iff (h : b.Holds d d.demand) {id : NodeId} {m : Method}
    {am : AttachedMethod} : (b.contract d).Attached id m am ↔ id < b.resources.size ∧
      am.method = m ∧ d.demand.Asks d.policy (b.resources.segmentsOf id) am := by
  refine and_congr_right fun hid => ?_
  rw [← h.attached_iff, ← attachments_eq_valueAt h.wellFormed hid]
  rfl

/-- A method that names something is that of an endpoint. -/
theorem endpoint_of_attached (h : b.Holds d d.demand) {id : NodeId} {m : Method}
    {am : AttachedMethod} (hat : (b.contract d).Attached id m am)
    (hnames : m.isRouteMethod = true ∨ am.validator ≠ none ∨ ∃ slot name, am.Names slot name) :
    ∃ e ∈ d.endpoints, e.segments = b.resources.segmentsOf id ∧ e.method = m ∧
      am = e.attached d.policy := by
  obtain ⟨-, rfl, hasks⟩ := h.attached_contract_iff.mp hat
  rcases Demand.asks_cases hasks with hendpoint | ⟨hmethod, hvalidator, hmodels⟩
  · exact hendpoint
  · rcases hnames with hm | hv | ⟨slot, name, hname⟩
    · rw [hm] at hmethod
      cases hmethod
    · exact absurd hvalidator hv
    · exact absurd hname (hmodels slot name)

theorem exists_attached (h : b.Holds d d.demand) {e : Endpoint} (he : e ∈ d.endpoints) :
    ∃ id, b.resources.segmentsOf id = e.segments ∧
      (b.contract d).Attached id e.method (e.attached d.policy) := by
  have hasks : d.demand.Asks d.policy e.segments (e.attached d.policy) := .endpoint he rfl
  have hhas := (h.has_iff e.segments e.method).mpr ⟨_, e.method_attached d.policy, hasks⟩
  obtain ⟨id, hid, hq⟩ := PathTree.mem_addresses.mp (h.mem_addresses_of_has hhas)
  exact ⟨id, hq, h.attached_contract_iff.mpr ⟨hid, e.method_attached d.policy, hq ▸ hasks⟩⟩

/-- Two attached endpoints with the names of one artifact are one endpoint on one node. -/
theorem node_unique (h : b.Holds d d.demand) {e e' : Endpoint} (he : e ∈ d.endpoints)
    (he' : e' ∈ d.endpoints) {role role' : Naming.Role}
    (hname : e.artifact role = e'.artifact role') {id id' : NodeId} (hid : id < b.resources.size)
    (hid' : id' < b.resources.size) (hq : e.segments = b.resources.segmentsOf id)
    (hq' : e'.segments = b.resources.segmentsOf id') : e = e' ∧ role = role' ∧ id = id' := by
  obtain ⟨hm, hrole, hp⟩ := Endpoint.artifact_eq_iff.mp hname
  have heq := h.compatible.endpoint_unique he he' hm hp
  subst heq
  exact ⟨rfl, hrole, h.wellFormed.segmentsOf_inj hid hid' (hq.symm.trans hq')⟩

/-- A slot that names a model names the document of what is declared there. -/
theorem slot_of_names (h : b.Holds d d.demand) {id : NodeId} {m : Method} {am : AttachedMethod}
    (hat : (b.contract d).Attached id m am) {slot : ModelSlot} {name : String}
    (hname : am.Names slot name) :
    ∃ e ∈ d.endpoints, e.segments = b.resources.segmentsOf id ∧ e.method = m ∧
      ∃ role s document, e.definition.slot? slot = some (role, s) ∧ name = e.artifact role ∧
        s.convertModel = .ok document ∧ (name, { name, document }) ∈ b.models := by
  obtain ⟨e, he, hq, hm, rfl⟩ := h.endpoint_of_attached hat (Or.inr (Or.inr ⟨slot, name, hname⟩))
  obtain ⟨role, s, hslot, rfl⟩ := Endpoint.names_attached_iff.mp hname
  have hmem : (e.artifact role, s) ∈ e.models :=
    Endpoint.mem_models_iff.mpr ⟨slot, role, hslot, rfl⟩
  obtain ⟨document, hdoc⟩ := Endpoint.models_convert (h.compatible.endpoints_servable e he) _ hmem
  have hmodel := Endpoint.mem_modelList_iff.mpr ⟨slot, role, s, hslot, document, hdoc, rfl⟩
  exact ⟨e, he, hq, hm, role, s, document, hslot, rfl, hdoc,
    (h.mem_models_iff _ _).mpr ⟨e, he, hmodel, rfl⟩⟩

theorem existsUnique_validator (h : b.Holds d d.demand) {name : String}
    (hname : Entries.has b.validators name = true) : ∃! x : NodeId × Method,
      ∃ am, (b.contract d).Attached x.1 x.2 am ∧ am.validator = some name := by
  obtain ⟨e, he, rfl⟩ := (h.has_validators_iff name).mp hname
  obtain ⟨id, hq, hat⟩ := h.exists_attached he
  refine ⟨(id, e.method), ⟨_, hat, e.validator_attached d.policy⟩, ?_⟩
  rintro ⟨id', m'⟩ ⟨am', hat', hvalidator⟩
  have hsome : am'.validator ≠ none := by simp [hvalidator]
  obtain ⟨e', he', hq', hm', rfl⟩ := h.endpoint_of_attached hat' (Or.inr (Or.inl hsome))
  rw [e'.validator_attached, Option.some.injEq] at hvalidator
  obtain ⟨rfl, -, hid⟩ := h.node_unique he' he hvalidator hat'.1 hat.1 hq' hq.symm
  exact Prod.ext hid hm'.symm

theorem existsUnique_slot (h : b.Holds d d.demand) {name : String}
    (hname : Entries.has b.models name = true) : ∃! x : NodeId × Method × ModelSlot,
      ∃ am, (b.contract d).Attached x.1 x.2.1 am ∧ am.Names x.2.2 name := by
  obtain ⟨e, he, slot, role, s, hslot, rfl⟩ := (h.has_models_iff name).mp hname
  obtain ⟨id, hq, hat⟩ := h.exists_attached he
  refine ⟨(id, e.method, slot),
    ⟨_, hat, Endpoint.names_attached_iff.mpr ⟨role, s, hslot, rfl⟩⟩, ?_⟩
  rintro ⟨id', m', slot'⟩ ⟨am', hat', hname'⟩
  obtain ⟨e', he', hq', hm', role', s', _, hslot', heq, -⟩ := h.slot_of_names hat' hname'
  obtain ⟨rfl, rfl, hid⟩ := h.node_unique he' he heq.symm hat'.1 hat.1 hq' hq.symm
  have hservable := h.compatible.endpoints_servable _ he
  exact Prod.ext hid (Prod.ext hm'.symm (ResourceDefinition.slot_unique hservable hslot' hslot))

end Build.Holds

namespace Declaration

/-- In an assembled contract every reference leads to an artifact and every artifact is referred
to once, and the models say what was declared. -/
theorem an_assembled_contract_is_well_referenced (d : Declaration) (c : Contract)
    (hc : d.assemble = .ok c) : c.WellReferenced d := by
  obtain ⟨b, h, rfl⟩ := holds_of_assemble hc
  constructor
  · intro id m am hat hm
    obtain ⟨e, he, -, -, rfl⟩ := h.endpoint_of_attached hat (Or.inl hm)
    exact ⟨_, e.validator_attached d.policy, (h.has_validators_iff _).mpr ⟨e, he, rfl⟩⟩
  · intro id m am hat slot name hname
    obtain ⟨e, he, -, -, role, s, _, hslot, rfl, -⟩ := h.slot_of_names hat hname
    exact (h.has_models_iff _).mpr ⟨e, he, slot, role, s, hslot, rfl⟩
  · intro name hname
    exact h.existsUnique_validator hname
  · intro name hname
    exact h.existsUnique_slot hname
  · exact h.names_nodup
  · intro x hx
    change x ∈ b.validators at hx
    rw [h.validators_eq] at hx
    obtain ⟨e, -, rfl⟩ := List.mem_map.mp hx
    rfl
  · intro x hx
    obtain ⟨e, -, -, hname⟩ := (h.mem_models_iff x.1 x.2).mp hx
    exact hname
  · intro id m am hat slot name hname
    obtain ⟨e, he, hq, rfl, role, s, document, hslot, rfl, hdoc, hmem⟩ := h.slot_of_names hat hname
    have hkeys := (List.nodup_append.mp h.names_nodup).2.1
    refine ⟨e, s, { name := e.artifact role, document }, ?_, ?_, ?_, hdoc⟩
    · show d.endpointsAt (b.resources.segmentsOf id) e.method = [e]
      rw [← hq]
      exact endpointsAt_eq_singleton h.compatible he
    · rw [ResourceDefinition.schemaIn?, hslot, Option.map_some]
    · exact (Entries.get?_eq_some_iff hkeys).mpr hmem
  · intro id m am hat hm
    obtain ⟨-, rfl, hasks⟩ := h.attached_contract_iff.mp hat
    rcases Demand.asks_cases hasks with ⟨e, he, -, hmethod, -⟩ | ⟨-, hbare⟩
    · rw [← hmethod, h.route_methods e he] at hm
      cases hm
    · exact hbare

/-- The references of the contract of users, and those of the method that creates one: to its
validator, to the model of its request and to the model of its second response. -/
theorem the_contract_of_the_user_api_is_well_referenced :
    ∃ c, Samples.userApi.assemble = .ok c ∧ c.WellReferenced Samples.userApi ∧
      ∃ id am, c.Attached id .post am ∧
        (am.validator = some "PostUsersRequestValidator" ∧
          Entries.has c.validators "PostUsersRequestValidator" = true) ∧
        (am.Names .request "PostUsersRequestModel" ∧
          Entries.has c.models "PostUsersRequestModel" = true) ∧
        am.Names (.response 1) "PostUsersResponseModel400" ∧
          Entries.has c.models "PostUsersResponseModel400" = true := by
  have hpost : ∃ c, Samples.userApi.assemble = .ok c ∧ ∃ am, c.Attached 1 .post am ∧
      am.validator = some "PostUsersRequestValidator" ∧
      am.Names .request "PostUsersRequestModel" ∧
      am.Names (.response 1) "PostUsersResponseModel400" :=
    ⟨_, rfl, _, ⟨by decide, rfl⟩, rfl, List.mem_cons_self, _, rfl, List.mem_cons_self⟩
  obtain ⟨c, hc, am, hat, hvalidator, hrequest, hresponse⟩ := hpost
  have hwell := an_assembled_contract_is_well_referenced _ c hc
  obtain ⟨name, hname, hthere⟩ := hwell.validator_there 1 .post am hat rfl
  cases hvalidator.symm.trans hname
  exact ⟨c, hc, hwell, 1, am, hat, ⟨hvalidator, hthere⟩,
    ⟨hrequest, hwell.models_there 1 .post am hat _ _ hrequest⟩,
    hresponse, hwell.models_there 1 .post am hat _ _ hresponse⟩

end Declaration

end RestContract
