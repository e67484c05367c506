-- What it takes to attach one declared method, one proxy route or one path, and what
-- build is left behind. A step is described by the conditions it checks and by the
-- changes it makes, so nothing else needs to look into the steps again.
import RestContract.Proofs.AssemblySteps

namespace RestContract

/-! ## Single steps -/

namespace Assembling

theorem gives_attach {id : NodeId} {m : AttachedMethod} {b b' : Build} :
    Gives (attach id m) b () b' ↔
      (b.attachments id).has m.method = false ∧ b' = b.withMethod id m := by
  simp [attach, gives_unless]

theorem fails_attach {id : NodeId} {m : AttachedMethod} {b : Build} {e : AssemblyError} :
    Fails (attach id m) b e ↔ (b.attachments id).has m.method = true ∧
      e = .duplicateMethod m.method (b.resources.pathOf id) := by
  simp [attach, fails_unless]

theorem gives_addValidator {v : RequestValidator} {b b' : Build} :
    Gives (addValidator v) b () b' ↔ b.hasArtifact v.name = false ∧ b' = b.withValidator v := by
  simp [addValidator, gives_unless]

theorem fails_addValidator {v : RequestValidator} {b : Build} {e : AssemblyError} :
    Fails (addValidator v) b e ↔ b.hasArtifact v.name = true ∧ e = .duplicateArtifact v.name := by
  simp [addValidator, fails_unless]

theorem gives_addModel {name : String} {s : TypeSchema} {b b' : Build} :
    Gives (addModel name s) b () b' ↔ b.hasArtifact name = false ∧
      ∃ document, s.convertModel = .ok document ∧ b' = b.withModel { name, document } := by
  simp only [addModel, gives_bind, gives_get, gives_unless]
  cases s.convertModel <;> simp

theorem fails_addModel {name : String} {s : TypeSchema} {b : Build} {e : AssemblyError} :
    Fails (addModel name s) b e ↔ (b.hasArtifact name = true ∧ e = .duplicateArtifact name) ∨
      (b.hasArtifact name = false ∧ ∃ se, s.convertModel = .error se ∧ e = .schema se) := by
  simp only [addModel, fails_bind, fails_get, gives_get, fails_unless]
  cases s.convertModel <;> simp

theorem gives_reach {start id : NodeId} {path : String} {b b' : Build} :
    Gives (reach start path) b id b' ↔
      id = (b.reach start path).1 ∧ b' = (b.reach start path).2 := by
  simp [reach, and_comm]

theorem fails_reach {start : NodeId} {path : String} {b : Build} {e : AssemblyError} :
    ¬ Fails (reach start path) b e := by
  simp [reach]

theorem gives_tell {es : List Event} {b b' : Build} :
    Gives (tell es) b () b' ↔ b' = b.tell es := by
  have hrun : (tell es).run b = .ok () (b.tell es) := rfl
  simp [Gives, hrun, eq_comm]

theorem fails_tell {es : List Event} {b : Build} {e : AssemblyError} : ¬ Fails (tell es) b e := by
  have hrun : (tell es).run b = .ok () (b.tell es) := rfl
  simp [Fails, hrun]

end Assembling

/-! ## The models of an endpoint -/

/-- The model of a schema under a name, if the schema has a document. -/
def Model.ofSchema? (m : String × TypeSchema) : Option Model :=
  m.2.convertModel.toOption.map fun document => { name := m.1, document }

theorem Model.ofSchema?_of_ok {m : String × TypeSchema} {document : Document}
    (h : m.2.convertModel = .ok document) :
    Model.ofSchema? m = some { name := m.1, document } := by
  simp [Model.ofSchema?, h, Except.toOption]

namespace Assembling

theorem gives_addModels {ms : List (String × TypeSchema)} {b b' : Build} :
    Gives (ms.forM fun m => addModel m.1 m.2) b () b' ↔
      (∀ m ∈ ms, b.hasArtifact m.1 = false) ∧ (ms.map (·.1)).Nodup ∧
      (∀ m ∈ ms, ∃ document, m.2.convertModel = .ok document) ∧
      b' = b.withModels (ms.filterMap Model.ofSchema?) := by
  induction ms generalizing b with
  | nil => simp [Build.withModels]
  | cons m ms ih =>
    simp only [gives_forM_cons, gives_addModel, ih]
    constructor
    · rintro ⟨c, ⟨hm, document, hdoc, rfl⟩, hfree, honce, hconv, rfl⟩
      simp only [Build.hasArtifact_withModel, Bool.or_eq_false_iff, beq_eq_false_iff_ne] at hfree
      refine ⟨?_, ?_, ?_, ?_⟩
      · exact List.forall_mem_cons.mpr ⟨hm, fun x hx => (hfree x hx).1⟩
      · rw [List.map_cons, List.nodup_cons, List.mem_map]
        exact ⟨fun ⟨x, hx, hxm⟩ => (hfree x hx).2 hxm.symm, honce⟩
      · exact List.forall_mem_cons.mpr ⟨⟨document, hdoc⟩, hconv⟩
      · rw [List.filterMap_cons_some (Model.ofSchema?_of_ok hdoc)]
        rfl
    · rintro ⟨hfree, honce, hconv, rfl⟩
      obtain ⟨⟨document, hdoc⟩, hconv⟩ := List.forall_mem_cons.mp hconv
      obtain ⟨hm, hfree⟩ := List.forall_mem_cons.mp hfree
      rw [List.map_cons, List.nodup_cons, List.mem_map] at honce
      refine ⟨_, ⟨hm, document, hdoc, rfl⟩, ?_, honce.2, hconv, ?_⟩
      · intro x hx
        rw [Build.hasArtifact_withModel, hfree x hx, Bool.false_or, beq_eq_false_iff_ne]
        exact fun hxm => honce.1 ⟨x, hx, hxm.symm⟩
      · rw [List.filterMap_cons_some (Model.ofSchema?_of_ok hdoc)]
        rfl

theorem fails_addModels {ms : List (String × TypeSchema)} {b : Build} {e : AssemblyError}
    (h : Fails (ms.forM fun m => addModel m.1 m.2) b e) :
    (∃ name, e = .duplicateArtifact name) ∨ ∃ se, e = .schema se := by
  induction ms generalizing b with
  | nil => exact absurd h fails_forM_nil
  | cons m ms ih =>
    rw [fails_forM_cons, fails_addModel] at h
    rcases h with (⟨-, rfl⟩ | ⟨-, se, -, rfl⟩) | ⟨c, -, hrest⟩
    · exact Or.inl ⟨_, rfl⟩
    · exact Or.inr ⟨_, rfl⟩
    · exact ih hrest

end Assembling

/-! ## The preflight of a node -/

/-- The attachments after a preflight was asked for: the first one stays. -/
def Attachments.preflighted (a : Attachments) (c : CorsOptions) : Attachments :=
  if a.cors.isNone then { a with cors := some c }.attach c.preflight else a

namespace Build

/-- The build after a preflight was asked for on a node. -/
def preflighted (b : Build) (id : NodeId) (c : CorsOptions) : Build :=
  let r := CorsOptions.register (b.attachments id).cors c
  if r.isNew then ((b.withPreflight id r).measure .preflightRegistered).withMethod id c.preflight
  else b.withPreflight id r

@[simp] theorem models_preflighted (b : Build) (id : NodeId) (c : CorsOptions) :
    (b.preflighted id c).models = b.models := by
  simp only [preflighted]
  split <;> rfl

@[simp] theorem validators_preflighted (b : Build) (id : NodeId) (c : CorsOptions) :
    (b.preflighted id c).validators = b.validators := by
  simp only [preflighted]
  split <;> rfl

/-- Asking for a preflight changes the attachments of the node and nothing else in the tree. -/
theorem alters_preflighted {b : Build} (h : b.resources.WellFormed) {id : NodeId}
    (hid : id < b.resources.size) (c : CorsOptions) :
    PathTree.Alters b.resources (b.preflighted id c).resources (b.resources.segmentsOf id)
      (·.preflighted c) := by
  have hslot := h.alters_modifyPayload hid fun a : Attachments =>
    { a with cors := some (CorsOptions.register (b.attachments id).cors c).slot }
  simp only [preflighted]
  rw [attachments_eq_valueAt h hid] at hslot ⊢
  cases hc : (b.resources.valueAt (b.resources.segmentsOf id)).cors with
  | none =>
    rw [hc] at hslot
    have hattach := hslot.wellFormed.alters_modifyPayload (hslot.size_eq.symm ▸ hid)
      (·.attach c.preflight)
    rw [hslot.segmentsOf_eq] at hattach
    refine (hslot.trans hattach).congr ?_
    simp [Attachments.preflighted, hc, CorsOptions.register]
  | some first =>
    rw [hc] at hslot
    refine hslot.congr ?_
    rw [Attachments.preflighted, hc, Option.isNone_some, if_neg Bool.false_ne_true]
    simp only [CorsOptions.register]
    rw [← hc]

end Build

theorem Build.has_withPreflight {b : Build} (h : b.resources.WellFormed) {id : NodeId}
    (hid : id < b.resources.size) (r : CorsOptions.Registration) (m : Method) :
    ((b.withPreflight id r).attachments id).has m = (b.attachments id).has m := by
  have hslot := h.alters_modifyPayload hid fun a : Attachments => { a with cors := some r.slot }
  rw [attachments_eq_valueAt (b := b.withPreflight id r) hslot.wellFormed
    (hslot.size_eq.symm ▸ hid), resources_withPreflight, hslot.segmentsOf_eq, hslot.valueAt_eq,
    if_pos rfl, attachments_eq_valueAt h hid]
  rfl

namespace Assembling

theorem gives_requestPreflight {b b' : Build} (h : b.resources.WellFormed) {id : NodeId}
    (hid : id < b.resources.size) {c : CorsOptions} :
    Gives (requestPreflight id c) b () b' ↔
      ((b.attachments id).cors = none → (b.attachments id).has .options = false) ∧
        b' = b.preflighted id c := by
  have hhas := Build.has_withPreflight h hid
    (CorsOptions.register (b.attachments id).cors c) .options
  rw [requestPreflight, gives_get_bind, Build.preflighted]
  by_cases hnew : (CorsOptions.register (b.attachments id).cors c).isNew = true
  · have hnone : (b.attachments id).cors = none := by
      cases hc : (b.attachments id).cors with
      | none => rfl
      | some first => simp [hc, CorsOptions.register] at hnew
    simp only [if_pos hnew]
    rw [gives_set_bind, gives_attach]
    have hmethod : c.preflight.method = .options := rfl
    rw [hmethod]
    exact and_congr_left fun _ => ⟨fun hb _ => hhas.symm.trans hb, fun hb => hhas.trans (hb hnone)⟩
  · have hsome : (b.attachments id).cors ≠ none := by
      intro hc
      rw [hc] at hnew
      exact hnew rfl
    simp only [if_neg hnew]
    rw [gives_set]
    exact (and_iff_right fun hc => absurd hc hsome).symm

theorem fails_requestPreflight {b : Build} (h : b.resources.WellFormed) {id : NodeId}
    (hid : id < b.resources.size) {c : CorsOptions}
    (hfree : (b.attachments id).cors = none → (b.attachments id).has .options = false)
    {e : AssemblyError} : ¬ Fails (requestPreflight id c) b e := by
  rintro ⟨b₁, hb₁⟩
  have hok := (gives_requestPreflight h hid (c := c)).mpr ⟨hfree, rfl⟩
  rw [Gives, hb₁] at hok
  cases hok

end Assembling

/-! ## One endpoint -/

namespace Attachments

theorem get?_attach (a : Attachments) (am : AttachedMethod) (m : Method) :
    Entries.get? (a.attach am).methods m =
      if m == am.method then some am else Entries.get? a.methods m :=
  Entries.get?_put a.methods am.method m am

theorem has_attach (a : Attachments) (am : AttachedMethod) (m : Method) :
    (a.attach am).has m = (a.has m || am.method == m) :=
  Entries.has_put a.methods am.method m am

theorem has_preflighted {m : Method} (hm : m ≠ .options) (a : Attachments) (c : CorsOptions) :
    (a.preflighted c).has m = a.has m := by
  have hne : (c.preflight.method == m) = false := beq_eq_false_iff_ne.mpr (Ne.symm hm)
  unfold preflighted
  split
  · rw [has_attach, hne, Bool.or_false]
    rfl
  · rfl

/-- The attachments after the preflight that a policy asks for, if any. -/
def answering (a : Attachments) : Option CorsOptions → Attachments
  | none => a
  | some c => a.preflighted c

/-- The attachments after an endpoint was attached: its method, and the preflight of the policy
in front of it if there is none yet. -/
def served (a : Attachments) (policy : GlobalPolicy) (e : Endpoint) : Attachments :=
  (a.answering policy.cors).attach (e.attached policy)

theorem has_answering {m : Method} (hm : m ≠ .options) (a : Attachments)
    (cors : Option CorsOptions) : (a.answering cors).has m = a.has m := by
  cases cors with
  | none => rfl
  | some c => exact has_preflighted hm a c

end Attachments

namespace Endpoint

/-- The names of the artifacts of an endpoint, the validator first. -/
def artifactNames (e : Endpoint) : List String :=
  e.artifact .requestValidator :: e.models.map (·.1)

/-- The models that an endpoint creates. -/
def modelList (e : Endpoint) : List Model := e.models.filterMap Model.ofSchema?

@[simp] theorem method_attached (e : Endpoint) (policy : GlobalPolicy) :
    (e.attached policy).method = e.method := by
  unfold attached AttachedMethod.guardedBy
  split <;> rfl

theorem integration_attached (e : Endpoint) (policy : GlobalPolicy) :
    (e.attached policy).integration =
      e.definition.resolve (.pathParams (Path.params e.path)) := by
  unfold attached AttachedMethod.guardedBy
  split <;> rfl

end Endpoint

namespace Build

/-- The build after the preflight that a policy asks for, if any. -/
def answering (b : Build) (id : NodeId) : Option CorsOptions → Build
  | none => b
  | some c => b.preflighted id c

/-- The build after an endpoint was attached to a node. -/
def served (b : Build) (d : Declaration) (id : NodeId) (e : Endpoint) : Build :=
  (((b.answering id d.policy.cors).withValidator (e.requestValidator d.validation)).withModels
    e.modelList).withMethod id (e.attached d.policy)

/-- What has to hold for an endpoint to be attached to a node. -/
structure Admits (b : Build) (d : Declaration) (id : NodeId) (e : Endpoint) : Prop where
  method_free : (b.attachments id).has e.method = false
  preflight_free : ∀ c, d.policy.cors = some c →
    (b.attachments id).cors = none → (b.attachments id).has .options = false
  names_free : ∀ name ∈ e.artifactNames, b.hasArtifact name = false
  names_once : e.artifactNames.Nodup
  models_convert : ∀ m ∈ e.models, ∃ document, m.2.convertModel = .ok document

variable {b : Build} {id : NodeId}

theorem hasArtifact_answering (b : Build) (id : NodeId) (cors : Option CorsOptions)
    (name : String) : (b.answering id cors).hasArtifact name = b.hasArtifact name := by
  cases cors with
  | none => rfl
  | some c => simp [answering, hasArtifact]

theorem alters_answering (h : b.resources.WellFormed) (hid : id < b.resources.size)
    (cors : Option CorsOptions) :
    PathTree.Alters b.resources (b.answering id cors).resources (b.resources.segmentsOf id)
      (·.answering cors) := by
  cases cors with
  | none => exact ⟨h, rfl, fun _ => rfl, fun _ => by split <;> rfl⟩
  | some c => exact alters_preflighted h hid c

/-- Attaching an endpoint changes the attachments of its node and nothing else in the tree. -/
theorem alters_served (h : b.resources.WellFormed) (hid : id < b.resources.size)
    (d : Declaration) (e : Endpoint) :
    PathTree.Alters b.resources (b.served d id e).resources (b.resources.segmentsOf id)
      (·.served d.policy e) := by
  have hcors := alters_answering h hid d.policy.cors
  have hattach := hcors.wellFormed.alters_modifyPayload (hcors.size_eq.symm ▸ hid)
    (·.attach (e.attached d.policy))
  rw [hcors.segmentsOf_eq] at hattach
  have hsame : (b.served d id e).resources =
      (b.answering id d.policy.cors).resources.modifyPayload id
        (·.attach (e.attached d.policy)) := by
    simp [served]
  rw [hsame]
  exact hcors.trans hattach

end Build

namespace Assembling

variable {b b' : Build} {d : Declaration} {id : NodeId} {e : Endpoint}

/-- The steps behind the preflight of an endpoint. -/
theorem gives_artifacts {b₁ : Build} :
    Gives (do
      addValidator (e.requestValidator d.validation)
      e.models.forM fun m => addModel m.1 m.2
      attach id (e.attached d.policy)) b₁ () b' ↔
    (b₁.attachments id).has e.method = false ∧
    (∀ name ∈ e.artifactNames, b₁.hasArtifact name = false) ∧ e.artifactNames.Nodup ∧
    (∀ m ∈ e.models, ∃ document, m.2.convertModel = .ok document) ∧
    b' = ((b₁.withValidator (e.requestValidator d.validation)).withModels
      e.modelList).withMethod id (e.attached d.policy) := by
  have hname : (e.requestValidator d.validation).name = e.artifact .requestValidator := rfl
  have hattachments : ((b₁.withValidator (e.requestValidator d.validation)).withModels
      e.modelList).attachments id = b₁.attachments id := by
    simp [Build.attachments]
  simp only [gives_seq, gives_addValidator, gives_addModels, gives_attach,
    Endpoint.method_attached]
  constructor
  · rintro ⟨c, ⟨hv, rfl⟩, c', ⟨hfree, honce, hconv, rfl⟩, hmethod, rfl⟩
    simp only [Build.hasArtifact_withValidator, Bool.or_eq_false_iff, beq_eq_false_iff_ne] at hfree
    rw [hname] at hv hfree
    refine ⟨hattachments ▸ hmethod, ?_, ?_, hconv, rfl⟩
    · refine List.forall_mem_cons.mpr ⟨hv, ?_⟩
      exact List.forall_mem_map.mpr fun m hm => (hfree m hm).1
    · refine List.nodup_cons.mpr ⟨?_, honce⟩
      rintro hmem
      obtain ⟨m, hm, heq⟩ := List.mem_map.mp hmem
      exact (hfree m hm).2 heq.symm
  · rintro ⟨hmethod, hfree, honce, hconv, rfl⟩
    obtain ⟨hv, hfree⟩ := List.forall_mem_cons.mp hfree
    obtain ⟨hnew, honce⟩ := List.nodup_cons.mp honce
    refine ⟨_, ⟨hv, rfl⟩, _, ⟨?_, honce, hconv, rfl⟩, ?_, rfl⟩
    · intro m hm
      rw [Build.hasArtifact_withValidator, hname, hfree _ (List.mem_map_of_mem hm),
        Bool.false_or, beq_eq_false_iff_ne]
      exact fun heq => hnew (heq ▸ List.mem_map_of_mem hm)
    · exact hattachments.symm ▸ hmethod

theorem gives_attachEndpoint (h : b.resources.WellFormed) (hid : id < b.resources.size)
    (hm : e.method ≠ .options) :
    Gives (attachEndpoint d id e) b () b' ↔ b.Admits d id e ∧ b' = b.served d id e := by
  have hmethod : ((b.answering id d.policy.cors).attachments id).has e.method =
      (b.attachments id).has e.method := by
    have hcors := Build.alters_answering h hid d.policy.cors
    rw [Build.attachments_eq_valueAt hcors.wellFormed (hcors.size_eq.symm ▸ hid),
      hcors.segmentsOf_eq, hcors.valueAt_eq, if_pos rfl, Attachments.has_answering hm,
      Build.attachments_eq_valueAt h hid]
  have hadmits : b.Admits d id e ↔ (b.attachments id).has e.method = false ∧
      (∀ c, d.policy.cors = some c →
        (b.attachments id).cors = none → (b.attachments id).has .options = false) ∧
      (∀ name ∈ e.artifactNames, b.hasArtifact name = false) ∧ e.artifactNames.Nodup ∧
      ∀ m ∈ e.models, ∃ document, m.2.convertModel = .ok document :=
    ⟨fun ⟨h1, h2, h3, h4, h5⟩ => ⟨h1, h2, h3, h4, h5⟩,
      fun ⟨h1, h2, h3, h4, h5⟩ => ⟨h1, h2, h3, h4, h5⟩⟩
  rw [attachEndpoint, gives_get_bind, gives_unless, hadmits]
  simp only [Build.served]
  cases hc : d.policy.cors with
  | none =>
    simp only [hc, Build.answering] at hmethod ⊢
    rw [gives_artifacts]
    simp [and_assoc]
  | some c =>
    simp only [hc, Build.answering] at hmethod ⊢
    rw [gives_seq]
    simp only [gives_requestPreflight h hid]
    have hart := Build.hasArtifact_answering b id (some c)
    simp only [Build.answering] at hart
    constructor
    · rintro ⟨hfree, b₁, ⟨hpre, rfl⟩, hrest⟩
      rw [gives_artifacts] at hrest
      simp only [hart] at hrest
      obtain ⟨-, hnames, honce, hconv, rfl⟩ := hrest
      exact ⟨⟨hfree, fun c' hc' => hpre, hnames, honce, hconv⟩, rfl⟩
    · rintro ⟨⟨hfree, hpre, hnames, honce, hconv⟩, rfl⟩
      refine ⟨hfree, _, ⟨hpre c rfl, rfl⟩, ?_⟩
      rw [gives_artifacts]
      simp only [hart]
      exact ⟨hmethod.trans hfree, hnames, honce, hconv, trivial⟩

/-- An endpoint only fails on its own method, on the names of its artifacts and on their
schemas. -/
theorem fails_attachEndpoint (h : b.resources.WellFormed) (hid : id < b.resources.size)
    (hfree : ∀ c, d.policy.cors = some c →
      (b.attachments id).cors = none → (b.attachments id).has .options = false)
    {err : AssemblyError} (herr : Fails (attachEndpoint d id e) b err) :
    (∃ path, err = .duplicateMethod e.method path) ∨ (∃ name, err = .duplicateArtifact name) ∨
      ∃ se, err = .schema se := by
  have hartifacts : ∀ b₁, Fails (do
      addValidator (e.requestValidator d.validation)
      e.models.forM fun m => addModel m.1 m.2
      attach id (e.attached d.policy)) b₁ err → (∃ path, err = .duplicateMethod e.method path) ∨
        (∃ name, err = .duplicateArtifact name) ∨ ∃ se, err = .schema se := by
    intro b₁ hb₁
    simp only [fails_seq, fails_addValidator, fails_attach, Endpoint.method_attached] at hb₁
    rcases hb₁ with ⟨-, rfl⟩ | ⟨c, -, hmodels | ⟨c', -, -, rfl⟩⟩
    · exact Or.inr (Or.inl ⟨_, rfl⟩)
    · exact Or.inr (fails_addModels hmodels)
    · exact Or.inl ⟨_, rfl⟩
  rw [attachEndpoint, fails_get_bind, fails_unless] at herr
  rcases herr with ⟨-, rfl⟩ | ⟨-, herr⟩
  · exact Or.inl ⟨_, rfl⟩
  · cases hc : d.policy.cors with
    | none =>
      rw [hc] at herr
      exact hartifacts b herr
    | some c =>
      rw [hc] at herr
      rcases fails_seq.mp herr with hpre | ⟨b₁, -, hrest⟩
      · exact absurd hpre (fails_requestPreflight h hid (hfree c hc))
      · exact hartifacts b₁ hrest

end Assembling

/-! ## One path and one proxy -/

namespace Build

/-- Going to a path leaves the artifacts as they are, and in the tree only adds what is missing
on the way. -/
theorem reaches_reach {b : Build} (h : b.resources.WellFormed) {start : NodeId}
    (hlt : start < b.resources.size) (path : String) :
    PathTree.Arrival.Reaches
      { tree := b.resources, node := start, events := PathTree.namelessEvents path }
      (Path.segments path)
      { tree := (b.reach start path).2.resources, node := (b.reach start path).1,
        events := (b.resources.insertAt start path).events } :=
  h.reaches_insertAt hlt path

/-- The build after a proxy was attached to a node and to the child below it. -/
def proxied (b : Build) (id child : NodeId) (definition : ResourceDefinition) : Build :=
  (b.withMethod id (Assembling.proxyMethod definition)).withMethod child
    (Assembling.proxyMethod definition)

theorem resources_proxied (b : Build) (id child : NodeId) (definition : ResourceDefinition) :
    (b.proxied id child definition).resources =
      (b.resources.modifyPayload id (·.attach (Assembling.proxyMethod definition))).modifyPayload
        child (·.attach (Assembling.proxyMethod definition)) := by
  simp only [proxied, resources_withMethod]

end Build

theorem Path.segments_proxySegment : Path.segments proxySegment = [proxySegment] := by decide

namespace Assembling

theorem gives_attachProxy {b b' : Build} {id : NodeId} {definition : ResourceDefinition} :
    Gives (attachProxy id definition) b () b' ↔
      ((b.reach id proxySegment).2.attachments id).has .any = false ∧
      (((b.reach id proxySegment).2.withMethod id (proxyMethod definition)).attachments
        (b.reach id proxySegment).1).has .any = false ∧
      b' = (b.reach id proxySegment).2.proxied id (b.reach id proxySegment).1 definition := by
  have hmethod : (proxyMethod definition).method = .any := rfl
  rw [attachProxy, gives_bind]
  simp only [gives_reach, gives_seq, gives_attach, hmethod]
  constructor
  · rintro ⟨_, _, ⟨rfl, rfl⟩, _, ⟨hid, rfl⟩, hchild, rfl⟩
    exact ⟨hid, hchild, rfl⟩
  · rintro ⟨hid, hchild, rfl⟩
    exact ⟨_, _, ⟨rfl, rfl⟩, _, ⟨hid, rfl⟩, hchild, rfl⟩

/-- A proxy only fails on its own method. -/
theorem fails_attachProxy {b : Build} {id : NodeId} {definition : ResourceDefinition}
    {err : AssemblyError} (h : Fails (attachProxy id definition) b err) :
    ∃ path, err = .duplicateMethod .any path := by
  have hmethod : (proxyMethod definition).method = .any := rfl
  rw [attachProxy, fails_bind] at h
  simp only [fails_reach, fails_seq, fails_attach, hmethod, false_or] at h
  rcases h with ⟨_, _, -, ⟨-, rfl⟩ | ⟨_, -, -, rfl⟩⟩
  · exact ⟨_, rfl⟩
  · exact ⟨_, rfl⟩

end Assembling

end RestContract
