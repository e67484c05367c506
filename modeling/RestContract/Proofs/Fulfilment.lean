-- The invariant of an assembly: a build holds what has been demanded so far, with every
-- method on its node and every artifact in its place, and nothing else. Each step keeps
-- it for the demand that has grown by what the step is about.
import RestContract.Proofs.Demand

namespace RestContract

/-! ## What a demand puts on a node -/

/-- The methods that a demand puts on the node of some segments. -/
inductive Demand.Asks (D : Demand) (policy : GlobalPolicy) (q : List String) :
    AttachedMethod → Prop
  /-- The endpoints of the node. -/
  | endpoint {e : Endpoint} (he : e ∈ D.endpoints) (hq : e.segments = q) :
    Asks D policy q (e.attached policy)
  /-- The preflight in front of the endpoints. -/
  | preflight {e : Endpoint} {c : CorsOptions} (he : e ∈ D.endpoints) (hq : e.segments = q)
    (hc : policy.cors = some c) : Asks D policy q c.preflight
  /-- The proxies that stand on the node or right above it. -/
  | proxy {p : Proxy} (hp : p ∈ D.proxies) (hq : q ∈ p.addresses) :
    Asks D policy q (Assembling.proxyMethod p.definition)

namespace Demand

variable {D : Demand} {policy : GlobalPolicy} {q : List String} {am : AttachedMethod}

/-- What is demanded of a node is still demanded with more. -/
theorem Asks.mono {D' : Demand} (h : D.Asks policy q am) (he : D.endpoints ⊆ D'.endpoints)
    (hp : D.proxies ⊆ D'.proxies) : D'.Asks policy q am := by
  cases h with
  | endpoint hmem hq => exact .endpoint (he hmem) hq
  | preflight hmem hq hc => exact .preflight (he hmem) hq hc
  | proxy hmem hq => exact .proxy (hp hmem) hq

theorem asks_withPlace_iff {r : List String} :
    (D.withPlace r).Asks policy q am ↔ D.Asks policy q am :=
  ⟨fun h => h.mono (List.Subset.refl _) (List.Subset.refl _),
    fun h => h.mono (List.Subset.refl _) (List.Subset.refl _)⟩

theorem asks_withEndpoints_iff {e : Endpoint} :
    (D.withEndpoints [e]).Asks policy q am ↔ D.Asks policy q am ∨
      q = e.segments ∧ (am = e.attached policy ∨ ∃ c, policy.cors = some c ∧ am = c.preflight) := by
  constructor
  · intro h
    cases h with
    | endpoint he hq =>
      rcases List.mem_append.mp he with he | he
      · exact Or.inl (.endpoint he hq)
      · cases List.mem_singleton.mp he
        exact Or.inr ⟨hq.symm, Or.inl rfl⟩
    | preflight he hq hc =>
      rcases List.mem_append.mp he with he | he
      · exact Or.inl (.preflight he hq hc)
      · cases List.mem_singleton.mp he
        exact Or.inr ⟨hq.symm, Or.inr ⟨_, hc, rfl⟩⟩
    | proxy hp hq => exact Or.inl (.proxy hp hq)
  · have hnew : e ∈ (D.withEndpoints [e]).endpoints :=
      List.mem_append_right _ (List.mem_singleton_self e)
    rintro (h | ⟨rfl, rfl | ⟨c, hc, rfl⟩⟩)
    · exact h.mono (List.subset_append_left _ _) (List.Subset.refl _)
    · exact .endpoint hnew rfl
    · exact .preflight hnew rfl hc

theorem asks_withProxy_iff {p : Proxy} : (D.withProxy p).Asks policy q am ↔
    D.Asks policy q am ∨ q ∈ p.addresses ∧ am = Assembling.proxyMethod p.definition := by
  constructor
  · intro h
    cases h with
    | endpoint he hq => exact Or.inl (.endpoint he hq)
    | preflight he hq hc => exact Or.inl (.preflight he hq hc)
    | proxy hp hq =>
      rcases List.mem_append.mp hp with hp | hp
      · exact Or.inl (.proxy hp hq)
      · cases List.mem_singleton.mp hp
        exact Or.inr ⟨hq, rfl⟩
  · rintro (h | ⟨hq, rfl⟩)
    · exact h.mono (List.Subset.refl _) (List.subset_append_left _ _)
    · exact .proxy (List.mem_append_right _ (List.mem_singleton_self p)) hq

end Demand

/-- A method that a route may declare answers no preflights and does not stand for all others. -/
theorem Method.isRouteMethod_iff {m : Method} :
    m.isRouteMethod = true ↔ m ≠ .options ∧ m ≠ .any := by
  cases m <;> decide

/-! ## The invariant -/

/-- The build holds what is demanded and nothing else. -/
structure Build.Holds (b : Build) (d : Declaration) (D : Demand) : Prop where
  compatible : D.Compatible
  route_methods : ∀ e ∈ D.endpoints, e.method.isRouteMethod = true
  wellFormed : b.resources.WellFormed
  /-- The nodes are the root and what leads to a place. -/
  mem_addresses_iff : ∀ q, q ∈ b.resources.addresses ↔ q = [] ∨ ∃ p ∈ D.places, q <+: p
  /-- Every method is where it is asked for. -/
  attached_iff : ∀ q m am, Entries.get? (b.resources.valueAt q).methods m = some am ↔
    am.method = m ∧ D.Asks d.policy q am
  methods_once : ∀ q, (Entries.keys (b.resources.valueAt q).methods).Nodup
  /-- The nodes of endpoints keep the CORS options. -/
  cors_iff : ∀ q c, (b.resources.valueAt q).cors = some c ↔
    d.policy.cors = some c ∧ ∃ e ∈ D.endpoints, e.segments = q
  validators_eq : b.validators = D.endpoints.map fun e =>
    (e.artifact .requestValidator, e.requestValidator d.validation)
  models_eq : b.models = (D.endpoints.flatMap Endpoint.modelList).map fun m => (m.name, m)

namespace Build.Holds

variable {b : Build} {d : Declaration} {D : Demand}

theorem has_iff (h : b.Holds d D) (q : List String) (m : Method) :
    (b.resources.valueAt q).has m = true ↔ ∃ am, am.method = m ∧ D.Asks d.policy q am := by
  rw [Attachments.has, Entries.has_eq_isSome_get?, Option.isSome_iff_exists]
  exact exists_congr fun am => h.attached_iff q m am

theorem has_routeMethod_iff (h : b.Holds d D) (q : List String) {m : Method}
    (hm : m.isRouteMethod = true) :
    (b.resources.valueAt q).has m = true ↔ ∃ e ∈ D.endpoints, e.segments = q ∧ e.method = m := by
  obtain ⟨hopt, hany⟩ := Method.isRouteMethod_iff.mp hm
  rw [h.has_iff]
  constructor
  · rintro ⟨am, hmeth, hasks⟩
    cases hasks with
    | @endpoint e he hq => exact ⟨e, he, hq, (e.method_attached d.policy).symm.trans hmeth⟩
    | preflight => exact absurd hmeth.symm hopt
    | proxy => exact absurd hmeth.symm hany
  · rintro ⟨e, he, hq, rfl⟩
    exact ⟨_, e.method_attached d.policy, .endpoint he hq⟩

/-- Nothing but a preflight is asked for under its method. -/
theorem eq_preflight (h : b.Holds d D) {q : List String} {am : AttachedMethod}
    (hmeth : am.method = .options) (hasks : D.Asks d.policy q am) :
    ∃ c, d.policy.cors = some c ∧ (∃ e ∈ D.endpoints, e.segments = q) ∧ am = c.preflight := by
  cases hasks with
  | @endpoint e he hq =>
    have hne := (Method.isRouteMethod_iff.mp (h.route_methods e he)).1
    exact absurd ((e.method_attached d.policy).symm.trans hmeth) hne
  | @preflight e c he hq hc => exact ⟨c, hc, ⟨e, he, hq⟩, rfl⟩
  | proxy => cases hmeth

theorem has_options_iff (h : b.Holds d D) (q : List String) :
    (b.resources.valueAt q).has .options = true ↔
      (∃ c, d.policy.cors = some c) ∧ ∃ e ∈ D.endpoints, e.segments = q := by
  rw [h.has_iff]
  constructor
  · rintro ⟨am, hmeth, hasks⟩
    obtain ⟨c, hc, hat, -⟩ := h.eq_preflight hmeth hasks
    exact ⟨⟨c, hc⟩, hat⟩
  · rintro ⟨⟨c, hc⟩, e, he, hq⟩
    exact ⟨c.preflight, rfl, .preflight he hq hc⟩

theorem has_any_iff (h : b.Holds d D) (q : List String) :
    (b.resources.valueAt q).has .any = true ↔ ∃ p ∈ D.proxies, q ∈ p.addresses := by
  rw [h.has_iff]
  constructor
  · rintro ⟨am, hmeth, hasks⟩
    cases hasks with
    | @endpoint e he hq =>
      have hne := (Method.isRouteMethod_iff.mp (h.route_methods e he)).2
      exact absurd ((e.method_attached d.policy).symm.trans hmeth) hne
    | preflight => cases hmeth
    | @proxy p hp hq => exact ⟨p, hp, hq⟩
  · rintro ⟨p, hp, hq⟩
    exact ⟨_, rfl, .proxy hp hq⟩

/-- Where no options are kept yet, no preflight stands in the way of a new one. -/
theorem preflight_free (h : b.Holds d D) {q : List String} {c : CorsOptions}
    (hc : d.policy.cors = some c) (hnone : (b.resources.valueAt q).cors = none) :
    (b.resources.valueAt q).has .options = false := by
  rw [← Bool.not_eq_true, h.has_options_iff]
  rintro ⟨-, hat⟩
  rw [(h.cors_iff q c).mpr ⟨hc, hat⟩] at hnone
  cases hnone

end Build.Holds

/-! ## The names that are taken -/

theorem Model.names_ofSchemas {ms : List (String × TypeSchema)}
    (h : ∀ m ∈ ms, ∃ document, m.2.convertModel = .ok document) :
    (ms.filterMap Model.ofSchema?).map (·.name) = ms.map (·.1) := by
  induction ms with
  | nil => rfl
  | cons m ms ih =>
    obtain ⟨⟨document, hdoc⟩, hrest⟩ := List.forall_mem_cons.mp h
    rw [List.filterMap_cons_some (Model.ofSchema?_of_ok hdoc), List.map_cons, List.map_cons,
      ih hrest]

namespace Endpoint

theorem models_convert {e : Endpoint} (h : e.definition.Servable) :
    ∀ m ∈ e.models, ∃ document, m.2.convertModel = .ok document := fun m hm =>
  h.schemas_convert m.2 (e.schemas_eq ▸ List.mem_map_of_mem hm)

theorem names_modelList {e : Endpoint} (h : e.definition.Servable) :
    e.modelList.map (·.name) = e.models.map (·.1) := Model.names_ofSchemas (models_convert h)

theorem mem_artifactNames_iff {e : Endpoint} (h : e.definition.Servable) {name : String} :
    name ∈ e.artifactNames ↔
      name = e.artifact .requestValidator ∨ ∃ m ∈ e.modelList, m.name = name := by
  rw [artifactNames, List.mem_cons, ← names_modelList h, List.mem_map]

end Endpoint

namespace Build

/-- New models come behind the others. -/
theorem models_withModels {b : Build} {ms : List Model}
    (hfree : ∀ m ∈ ms, Entries.has b.models m.name = false) (honce : (ms.map (·.name)).Nodup) :
    (b.withModels ms).models = b.models ++ ms.map fun m => (m.name, m) := by
  induction ms generalizing b with
  | nil => exact (List.append_nil _).symm
  | cons m ms ih =>
    obtain ⟨hm, hms⟩ := List.forall_mem_cons.mp hfree
    rw [List.map_cons, List.nodup_cons, List.mem_map] at honce
    have hput := Entries.put_of_not_has hm m
    have hnext : ∀ x ∈ ms, Entries.has (b.withModel m).models x.name = false := by
      intro x hx
      rw [models_withModel, Entries.has_put, hms x hx, Bool.false_or, beq_eq_false_iff_ne]
      exact fun heq => honce.1 ⟨x, hx, heq.symm⟩
    have hrest := ih hnext honce.2
    unfold withModels at hrest ⊢
    rw [List.foldl_cons, hrest, models_withModel, hput, List.append_assoc]
    rfl

theorem models_answering (b : Build) (id : NodeId) (cors : Option CorsOptions) :
    (b.answering id cors).models = b.models := by
  cases cors with
  | none => rfl
  | some c => exact b.models_preflighted id c

theorem validators_answering (b : Build) (id : NodeId) (cors : Option CorsOptions) :
    (b.answering id cors).validators = b.validators := by
  cases cors with
  | none => rfl
  | some c => exact b.validators_preflighted id c

theorem Holds.hasArtifact_iff {b : Build} {d : Declaration} {D : Demand} (h : b.Holds d D)
    (name : String) : b.hasArtifact name = true ↔ ∃ e ∈ D.endpoints, name ∈ e.artifactNames := by
  rw [hasArtifact, Bool.or_eq_true, ← Entries.mem_keys_iff, ← Entries.mem_keys_iff, h.models_eq,
    h.validators_eq]
  simp only [Entries.keys, List.map_map, List.mem_map, List.mem_flatMap, Function.comp_def]
  constructor
  · rintro (⟨m, ⟨e, he, hm⟩, rfl⟩ | ⟨e, he, rfl⟩)
    · have hservable := h.compatible.endpoints_servable e he
      exact ⟨e, he, (Endpoint.mem_artifactNames_iff hservable).mpr (Or.inr ⟨m, hm, rfl⟩)⟩
    · exact ⟨e, he, List.mem_cons_self⟩
  · rintro ⟨e, he, hname⟩
    have hservable := h.compatible.endpoints_servable e he
    rcases (Endpoint.mem_artifactNames_iff hservable).mp hname with rfl | ⟨m, hm, rfl⟩
    · exact Or.inr ⟨e, he, rfl⟩
    · exact Or.inl ⟨m, ⟨e, he, hm⟩, rfl⟩

end Build

/-! ## One more endpoint -/

namespace Attachments

/-- What stands in front of endpoints for a preflight: the methods that were there, and the
preflight if the node keeps no options yet. -/
theorem get?_answering (a : Attachments) (cors : Option CorsOptions) (m : Method) :
    Entries.get? (a.answering cors).methods m =
      match cors with
      | none => Entries.get? a.methods m
      | some c => if a.cors.isNone ∧ m = .options then some c.preflight
        else Entries.get? a.methods m := by
  have hmethod : ∀ c : CorsOptions, c.preflight.method = .options := fun _ => rfl
  cases cors with
  | none => rfl
  | some c =>
    simp only [answering, preflighted]
    by_cases hnone : a.cors.isNone = true
    · rw [if_pos hnone, get?_attach, hmethod]
      simp only [beq_iff_eq, hnone, true_and]
    · rw [if_neg hnone, if_neg fun h => hnone h.1]

theorem cors_answering (a : Attachments) (cors : Option CorsOptions) :
    (a.answering cors).cors = (a.cors <|> cors) := by
  cases cors with
  | none => cases hc : a.cors <;> simp [answering, hc]
  | some c =>
    simp only [answering, preflighted]
    cases hc : a.cors with
    | none => rfl
    | some first => simp [hc]

theorem keys_answering_nodup {a : Attachments} (h : (Entries.keys a.methods).Nodup)
    (cors : Option CorsOptions) : (Entries.keys (a.answering cors).methods).Nodup := by
  cases cors with
  | none => exact h
  | some c =>
    simp only [answering, preflighted]
    split
    · exact Entries.keys_put_nodup h _ _
    · exact h

end Attachments

namespace Build.Holds

variable {b : Build} {d : Declaration} {D : Demand} {id : NodeId} {e : Endpoint}

theorem attachments_eq (h : b.Holds d D) (hid : id < b.resources.size) {q : List String}
    (hq : b.resources.segmentsOf id = q) : b.attachments id = b.resources.valueAt q := by
  rw [attachments_eq_valueAt h.wellFormed hid, hq]

/-- An endpoint is let in exactly if it can be served together with all that is there. -/
theorem admits_iff (h : b.Holds d D) (hid : id < b.resources.size)
    (hq : b.resources.segmentsOf id = e.segments) (hm : e.method.isRouteMethod = true) :
    b.Admits d id e ↔ (D.withEndpoints [e]).Compatible := by
  have hmethod : (b.attachments id).has e.method = false ↔
      ∀ e' ∈ D.endpoints, e'.method = e.method → e'.segments ≠ e.segments := by
    rw [h.attachments_eq hid hq, ← Bool.not_eq_true, h.has_routeMethod_iff _ hm]
    constructor
    · intro hno e' he' hm' hseg
      exact hno ⟨e', he', hseg, hm'⟩
    · rintro hno ⟨e', he', hseg, hm'⟩
      exact hno e' he' hm' hseg
  have hnames : (∀ name ∈ e.artifactNames, b.hasArtifact name = false) ↔
      ∀ e' ∈ D.endpoints, e'.method = e.method →
        Naming.alphanumeric e'.path ≠ Naming.alphanumeric e.path := by
    simp only [← Bool.not_eq_true, h.hasArtifact_iff, not_exists, not_and]
    constructor
    · intro hno e' he'
      exact Endpoint.artifactNames_disjoint_iff.mp fun name hname' hname =>
        hno name hname e' he' hname'
    · intro hno name hname e' he' hname'
      exact Endpoint.artifactNames_disjoint_iff.mpr (hno e' he') hname' hname
  rw [h.compatible.withEndpoints_iff]
  constructor
  · rintro ⟨hfree, -, hfree_names, honce, hconv⟩
    refine ⟨fun e' he' hm' => ⟨hmethod.mp hfree e' he' hm', hnames.mp hfree_names e' he' hm'⟩,
      e.artifactNames_nodup_iff.mp honce, ?_⟩
    rw [e.schemas_eq]
    exact List.forall_mem_map.mpr hconv
  · rintro ⟨hapart, hservable⟩
    refine ⟨hmethod.mpr fun e' he' hm' => (hapart e' he' hm').1, ?_,
      hnames.mpr fun e' he' hm' => (hapart e' he' hm').2,
      e.artifactNames_nodup_iff.mpr hservable.statuses_once, Endpoint.models_convert hservable⟩
    intro c hc
    rw [h.attachments_eq hid hq]
    exact h.preflight_free hc

/-- What stands at an address after a preflight was asked for there, in terms of what the
demand asks for. -/
theorem get?_answering_iff (h : b.Holds d D) (q : List String) (m : Method) (am : AttachedMethod) :
    Entries.get? ((b.resources.valueAt q).answering d.policy.cors).methods m = some am ↔
      am.method = m ∧ (D.Asks d.policy q am ∨
        ∃ c, d.policy.cors = some c ∧ am = c.preflight) := by
  rw [Attachments.get?_answering]
  cases hc : d.policy.cors with
  | none => simp [h.attached_iff]
  | some c =>
    simp only [Option.some.injEq, exists_eq_left']
    by_cases hnone : (b.resources.valueAt q).cors = none
    · have hfree := h.preflight_free hc hnone
      by_cases hm : m = .options
      · subst hm
        rw [if_pos ⟨by rw [hnone]; rfl, rfl⟩, Option.some.injEq]
        constructor
        · rintro rfl
          exact ⟨rfl, Or.inr rfl⟩
        · rintro ⟨hmeth, hasks | rfl⟩
          · rw [(h.has_iff q .options).mpr ⟨am, hmeth, hasks⟩] at hfree
            cases hfree
          · rfl
      · rw [if_neg fun hboth => hm hboth.2, h.attached_iff]
        refine and_congr_right fun hmeth => (or_iff_left ?_).symm
        rintro rfl
        exact hm hmeth.symm
    · have hkept : ∃ first, (b.resources.valueAt q).cors = some first :=
        Option.ne_none_iff_exists'.mp hnone
      obtain ⟨first, hfirst⟩ := hkept
      obtain ⟨-, e', he', hseg⟩ := (h.cors_iff q first).mp hfirst
      rw [if_neg fun hboth => hnone (Option.isNone_iff_eq_none.mp hboth.1), h.attached_iff]
      refine and_congr_right fun _ => (or_iff_left_of_imp ?_).symm
      rintro rfl
      exact .preflight he' hseg hc

theorem valueAt_served (h : b.Holds d D) (hid : id < b.resources.size)
    (hq : b.resources.segmentsOf id = e.segments) (q : List String) :
    (b.served d id e).resources.valueAt q =
      if q = e.segments then (b.resources.valueAt q).served d.policy e
      else b.resources.valueAt q := by
  rw [(alters_served h.wellFormed hid d e).valueAt_eq, hq]

theorem get?_served_iff (h : b.Holds d D) (hid : id < b.resources.size)
    (hq : b.resources.segmentsOf id = e.segments) (hm : e.method.isRouteMethod = true)
    (hadmits : b.Admits d id e) (q : List String) (m : Method) (am : AttachedMethod) :
    Entries.get? ((b.served d id e).resources.valueAt q).methods m = some am ↔
      am.method = m ∧ (D.withEndpoints [e]).Asks d.policy q am := by
  have hfree : (b.resources.valueAt e.segments).has e.method = false := by
    rw [← h.attachments_eq hid hq]
    exact hadmits.method_free
  rw [h.valueAt_served hid hq, Demand.asks_withEndpoints_iff]
  by_cases hqe : q = e.segments
  · subst hqe
    rw [if_pos rfl, Attachments.served, Attachments.get?_attach, e.method_attached]
    by_cases hme : m = e.method
    · subst hme
      rw [if_pos (beq_self_eq_true _), Option.some.injEq]
      constructor
      · rintro rfl
        exact ⟨e.method_attached d.policy, Or.inr ⟨rfl, Or.inl rfl⟩⟩
      · rintro ⟨hmeth, hasks | ⟨-, rfl | ⟨c, -, rfl⟩⟩⟩
        · rw [(h.has_iff _ _).mpr ⟨am, hmeth, hasks⟩] at hfree
          cases hfree
        · rfl
        · exact absurd hmeth.symm (Method.isRouteMethod_iff.mp hm).1
    · rw [if_neg (by simpa using hme), h.get?_answering_iff]
      refine and_congr_right fun hmeth => or_congr_right ?_
      have hne : am ≠ e.attached d.policy := by
        rintro rfl
        exact hme (hmeth.symm.trans (e.method_attached d.policy))
      simp only [true_and, hne, false_or]
  · rw [if_neg hqe, h.attached_iff]
    simp only [hqe, false_and, or_false]

theorem cors_served_iff (h : b.Holds d D) (hid : id < b.resources.size)
    (hq : b.resources.segmentsOf id = e.segments) (q : List String) (c : CorsOptions) :
    ((b.served d id e).resources.valueAt q).cors = some c ↔
      d.policy.cors = some c ∧ ∃ e' ∈ (D.withEndpoints [e]).endpoints, e'.segments = q := by
  have hmem : (∃ e' ∈ (D.withEndpoints [e]).endpoints, e'.segments = q) ↔
      (∃ e' ∈ D.endpoints, e'.segments = q) ∨ e.segments = q := by
    simp [Demand.withEndpoints, or_and_right, exists_or]
  rw [h.valueAt_served hid hq, hmem]
  by_cases hqe : q = e.segments
  · subst hqe
    rw [if_pos rfl]
    show ((b.resources.valueAt e.segments).answering d.policy.cors).cors = some c ↔ _
    rw [Attachments.cors_answering]
    cases hc : (b.resources.valueAt e.segments).cors with
    | none => simp
    | some first =>
      obtain ⟨hfirst, -⟩ := (h.cors_iff e.segments first).mp hc
      simp [hfirst]
  · rw [if_neg hqe, h.cors_iff, or_iff_left (Ne.symm hqe)]

theorem validators_served (h : b.Holds d D) (hadmits : b.Admits d id e) :
    (b.served d id e).validators = (D.withEndpoints [e]).endpoints.map fun e =>
      (e.artifact .requestValidator, e.requestValidator d.validation) := by
  have hfree : Entries.has b.validators (e.requestValidator d.validation).name = false :=
    (Bool.or_eq_false_iff.mp (hadmits.names_free _ List.mem_cons_self)).2
  simp only [Build.served, validators_withMethod, validators_withModels,
    validators_withValidator, validators_answering]
  rw [Entries.put_of_not_has hfree, h.validators_eq, Demand.withEndpoints, List.map_append]
  rfl

theorem models_served (h : b.Holds d D) (hadmits : b.Admits d id e)
    (hservable : e.definition.Servable) :
    (b.served d id e).models =
      ((D.withEndpoints [e]).endpoints.flatMap Endpoint.modelList).map fun m => (m.name, m) := by
  have hfree : ∀ m ∈ e.modelList, Entries.has b.models m.name = false := by
    intro m hmem
    have hname := (Endpoint.mem_artifactNames_iff hservable).mpr (Or.inr ⟨m, hmem, rfl⟩)
    exact (Bool.or_eq_false_iff.mp (hadmits.names_free _ hname)).1
  have honce : (e.modelList.map (·.name)).Nodup := by
    rw [Endpoint.names_modelList hservable]
    exact (List.nodup_cons.mp hadmits.names_once).2
  simp only [Build.served, models_withMethod]
  rw [models_withModels]
  · simp only [models_withValidator, models_answering, h.models_eq]
    simp [Demand.withEndpoints]
  · simpa only [models_withValidator, models_answering] using hfree
  · exact honce

/-- Attaching an endpoint that is let in leaves a build that holds it as well. -/
theorem served (h : b.Holds d D) (hid : id < b.resources.size)
    (hq : b.resources.segmentsOf id = e.segments) (hm : e.method.isRouteMethod = true)
    (hadmits : b.Admits d id e) : (b.served d id e).Holds d (D.withEndpoints [e]) := by
  have halters := alters_served h.wellFormed hid d e
  have hcompatible := (h.admits_iff hid hq hm).mp hadmits
  have hservable := ((h.compatible.withEndpoints_iff e).mp hcompatible).2
  refine ⟨hcompatible, ?_, halters.wellFormed, ?_, h.get?_served_iff hid hq hm hadmits, ?_,
    h.cors_served_iff hid hq, h.validators_served hadmits, h.models_served hadmits hservable⟩
  · intro e' he'
    rcases List.mem_append.mp he' with he' | he'
    · exact h.route_methods e' he'
    · rw [List.mem_singleton.mp he']
      exact hm
  · intro q
    rw [halters.addresses_eq]
    exact h.mem_addresses_iff q
  · intro q
    rw [h.valueAt_served hid hq]
    split
    · exact Entries.keys_put_nodup (Attachments.keys_answering_nodup (h.methods_once q) _) _ _
    · exact h.methods_once q

end Build.Holds

/-! ## One more node -/

namespace Build

variable {b : Build} {d : Declaration} {D : Demand}

/-- The build holds a demand, and a node stands at an address. -/
structure HoldsAt (b : Build) (d : Declaration) (D : Demand) (id : NodeId) (q : List String) :
    Prop where
  holds : b.Holds d D
  lt_size : id < b.resources.size
  segmentsOf_eq : b.resources.segmentsOf id = q

theorem HoldsAt.tell {id : NodeId} {q : List String} (h : b.HoldsAt d D id q) (es : List Event) :
    (b.tell es).HoldsAt d D id q := by
  obtain ⟨h, hid, hq⟩ := h
  exact ⟨⟨h.compatible, h.route_methods, h.wellFormed, h.mem_addresses_iff, h.attached_iff,
    h.methods_once, h.cors_iff, h.validators_eq, h.models_eq⟩, hid, hq⟩

/-- Going to a path leaves a build that holds the node of the path as well. -/
theorem HoldsAt.reached {start : NodeId} {q : List String} (h : b.HoldsAt d D start q)
    (path : String) : (b.reach start path).2.HoldsAt d (D.withPlace (q ++ Path.segments path))
      (b.reach start path).1 (q ++ Path.segments path) := by
  obtain ⟨h, hlt, rfl⟩ := h
  have hreach := reaches_reach h.wellFormed hlt path
  have hvalue := hreach.valueAt_eq h.wellFormed
  refine ⟨⟨h.compatible.mono (List.prefix_refl _) (List.prefix_refl _), h.route_methods,
    hreach.wellFormed, ?_, ?_, ?_, ?_, h.validators_eq, h.models_eq⟩, hreach.node_lt,
    hreach.segmentsOf_node⟩
  · intro q
    rw [hreach.mem_addresses_iff, h.mem_addresses_iff, or_assoc]
    simp [Demand.withPlace, or_and_right, exists_or]
  · intro q m am
    rw [hvalue, Demand.asks_withPlace_iff]
    exact h.attached_iff q m am
  · intro q
    rw [hvalue]
    exact h.methods_once q
  · intro q c
    rw [hvalue]
    exact h.cors_iff q c

/-- A node that was there stays where it is when the build goes to a path. -/
theorem HoldsAt.kept {start id : NodeId} {q : List String} (h : b.HoldsAt d D id q)
    (hlt : start < b.resources.size) (path : String) :
    id < (b.reach start path).2.resources.size ∧
      (b.reach start path).2.resources.segmentsOf id = q := by
  have hreach := reaches_reach h.holds.wellFormed hlt path
  exact ⟨Nat.lt_of_lt_of_le h.lt_size hreach.keeps.size_le,
    (hreach.keeps.segmentsOf_eq h.lt_size).trans h.segmentsOf_eq⟩

end Build

/-! ## One more proxy -/

namespace Build

variable {b : Build} {d : Declaration} {D : Demand} {id child : NodeId} {p : Proxy}

theorem valueAt_proxied (h : b.resources.WellFormed) (hid : id < b.resources.size)
    (hq : b.resources.segmentsOf id = p.segments) (hchild : child < b.resources.size)
    (hcq : b.resources.segmentsOf child = p.childSegments) (q : List String) :
    (b.proxied id child p.definition).resources.valueAt q =
      if q ∈ p.addresses then (b.resources.valueAt q).attach (Assembling.proxyMethod p.definition)
      else b.resources.valueAt q := by
  have hfirst := h.alters_modifyPayload hid (·.attach (Assembling.proxyMethod p.definition))
  have hsecond := hfirst.wellFormed.alters_modifyPayload (hfirst.size_eq.symm ▸ hchild)
    (·.attach (Assembling.proxyMethod p.definition))
  rw [hfirst.segmentsOf_eq] at hsecond
  rw [resources_proxied, hsecond.valueAt_eq, hfirst.valueAt_eq, hq, hcq]
  simp only [Proxy.addresses, List.mem_cons, List.not_mem_nil, or_false]
  by_cases hqs : q = p.segments
  · have hqc : q ≠ p.childSegments := fun heq => p.segments_ne_childSegments (hqs ▸ heq)
    rw [if_neg hqc, if_pos hqs, if_pos (Or.inl hqs)]
  · rw [if_neg hqs]
    by_cases hqc : q = p.childSegments
    · rw [if_pos hqc, if_pos (Or.inr hqc)]
    · rw [if_neg hqc, if_neg (not_or.mpr ⟨hqs, hqc⟩)]

/-- A proxy is let in exactly if no other proxy stands on one of its nodes. -/
theorem Holds.proxy_free_iff (h : b.Holds d D) :
    (∀ q ∈ p.addresses, (b.resources.valueAt q).has .any = false) ↔
      (D.withProxy p).Compatible := by
  rw [h.compatible.withProxy_iff]
  simp only [← Bool.not_eq_true, h.has_any_iff, Proxy.apart_iff]
  constructor
  · intro hno p' hp' q hq' hq
    exact hno q hq ⟨p', hp', hq'⟩
  · rintro hno q hq ⟨p', hp', hq'⟩
    exact hno p' hp' hq' hq

/-- Nothing but proxies asks for their method, so with free nodes only the new proxy does. -/
theorem Holds.get?_proxied_iff (h : b.Holds d (D.withPlace p.childSegments))
    (hid : id < b.resources.size) (hq : b.resources.segmentsOf id = p.segments)
    (hchild : child < b.resources.size) (hcq : b.resources.segmentsOf child = p.childSegments)
    (hfree : ∀ q ∈ p.addresses, (b.resources.valueAt q).has .any = false)
    (q : List String) (m : Method) (am : AttachedMethod) :
    Entries.get? ((b.proxied id child p.definition).resources.valueAt q).methods m = some am ↔
      am.method = m ∧ (D.withProxy p).Asks d.policy q am := by
  have hmethod : (Assembling.proxyMethod p.definition).method = .any := rfl
  have hold := h.attached_iff q m am
  rw [Demand.asks_withPlace_iff] at hold
  rw [valueAt_proxied h.wellFormed hid hq hchild hcq, Demand.asks_withProxy_iff]
  by_cases hqp : q ∈ p.addresses
  · rw [if_pos hqp, Attachments.get?_attach, hmethod]
    by_cases hm : m = .any
    · subst hm
      rw [if_pos (beq_self_eq_true _), Option.some.injEq]
      constructor
      · rintro rfl
        exact ⟨rfl, Or.inr ⟨hqp, rfl⟩⟩
      · rintro ⟨hmeth, hasks | ⟨-, rfl⟩⟩
        · have hfree_q := hfree q hqp
          rw [(h.has_iff q .any).mpr ⟨am, hmeth, Demand.asks_withPlace_iff.mpr hasks⟩] at hfree_q
          cases hfree_q
        · rfl
    · rw [if_neg (by simpa using hm), hold]
      refine and_congr_right fun hmeth => (or_iff_left ?_).symm
      rintro ⟨-, rfl⟩
      exact hm hmeth.symm
  · rw [if_neg hqp, hold]
    simp only [hqp, false_and, or_false]

/-- Attaching a proxy that is let in leaves a build that holds it as well. -/
theorem Holds.proxied (h : b.Holds d (D.withPlace p.childSegments)) (hid : id < b.resources.size)
    (hq : b.resources.segmentsOf id = p.segments) (hchild : child < b.resources.size)
    (hcq : b.resources.segmentsOf child = p.childSegments)
    (hfree : ∀ q ∈ p.addresses, (b.resources.valueAt q).has .any = false) :
    (b.proxied id child p.definition).Holds d (D.withProxy p) := by
  have hvalue := valueAt_proxied h.wellFormed hid hq hchild hcq
  have hfirst := h.wellFormed.alters_modifyPayload hid
    (·.attach (Assembling.proxyMethod p.definition))
  have hsecond := hfirst.wellFormed.alters_modifyPayload (hfirst.size_eq.symm ▸ hchild)
    (·.attach (Assembling.proxyMethod p.definition))
  rw [← resources_proxied] at hsecond
  have haddresses := hsecond.addresses_eq.trans hfirst.addresses_eq
  have hcompatible := (h.proxy_free_iff.mp hfree).mono (D := D.withProxy p)
    (List.prefix_refl _) (List.prefix_refl _)
  refine ⟨hcompatible, h.route_methods, hsecond.wellFormed, ?_,
    h.get?_proxied_iff hid hq hchild hcq hfree, ?_, ?_, h.validators_eq, h.models_eq⟩
  · intro q
    rw [haddresses]
    exact h.mem_addresses_iff q
  · intro q
    rw [hvalue]
    split
    · exact Entries.keys_put_nodup (h.methods_once q) _ _
    · exact h.methods_once q
  · intro q c
    have hcors : ((b.proxied id child p.definition).resources.valueAt q).cors =
        (b.resources.valueAt q).cors := by
      rw [hvalue]
      split <;> rfl
    rw [hcors]
    exact h.cors_iff q c

end Build

end RestContract
