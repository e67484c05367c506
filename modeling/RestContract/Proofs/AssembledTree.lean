-- The tree of an assembled contract: which nodes there are, which methods stand on them
-- and with what, and how many there are. All of it can be read off the declaration.
import Mathlib.Data.Set.Card
import RestContract.Proofs.AssemblyRun
import RestContract.Samples

namespace RestContract

/-! ## What a declaration puts on a node -/

namespace Declaration

/-- The endpoints that declare a method on the node of some segments. -/
def endpointsAt (d : Declaration) (q : List String) (m : Method) : List Endpoint :=
  d.endpoints.filter fun e => e.segments == q && e.method == m

/-- The declaration puts a method on the node of some segments: the preflight before declared
methods, the method of a proxy on both its nodes, and every other method where exactly one
endpoint declares it. -/
def Puts (d : Declaration) (q : List String) : Method → Prop
  | .options => d.policy.cors.isSome ∧ ∃ e ∈ d.endpoints, e.segments = q
  | .any => ∃ p ∈ d.proxies, q ∈ p.addresses
  | m => ∃ e, d.endpointsAt q m = [e]

variable {d : Declaration} {q : List String} {m : Method}

theorem mem_endpointsAt_iff {e : Endpoint} :
    e ∈ d.endpointsAt q m ↔ e ∈ d.endpoints ∧ e.segments = q ∧ e.method = m := by
  simp [endpointsAt]

/-- Endpoints that are apart do not declare one method on one node. -/
theorem endpointsAt_eq_singleton (h : d.demand.Compatible) {e : Endpoint} (he : e ∈ d.endpoints) :
    d.endpointsAt e.segments e.method = [e] := by
  have hmem := mem_endpointsAt_iff.mpr ⟨he, rfl, rfl⟩
  have hapart : (d.endpointsAt e.segments e.method).Pairwise Endpoint.Apart :=
    h.endpoints_apart.filter _
  have hspec : ∀ x ∈ d.endpointsAt e.segments e.method,
      x.segments = e.segments ∧ x.method = e.method := fun x hx => (mem_endpointsAt_iff.mp hx).2
  revert hmem hapart hspec
  cases d.endpointsAt e.segments e.method with
  | nil =>
    intro hmem
    cases hmem
  | cons x rest =>
    cases rest with
    | nil =>
      intro hmem _ _
      rw [List.mem_singleton.mp hmem]
    | cons y rest =>
      intro _ hapart hspec
      obtain ⟨hxq, hxm⟩ := hspec x List.mem_cons_self
      obtain ⟨hyq, hym⟩ := hspec y (List.mem_cons_of_mem _ List.mem_cons_self)
      have hxy := (List.pairwise_cons.mp hapart).1 y List.mem_cons_self
      exact absurd (hxq.trans hyq.symm) (hxy (hxm.trans hym.symm)).1

theorem puts_routeMethod_iff (h : d.demand.Compatible) (hm : m.isRouteMethod = true) :
    d.Puts q m ↔ ∃ e ∈ d.endpoints, e.segments = q ∧ e.method = m := by
  have hputs : d.Puts q m ↔ ∃ e, d.endpointsAt q m = [e] := by
    cases m <;> first | rfl | cases hm
  rw [hputs]
  constructor
  · rintro ⟨e, he⟩
    have hmem : e ∈ d.endpointsAt q m := he ▸ List.mem_singleton_self e
    exact ⟨e, mem_endpointsAt_iff.mp hmem⟩
  · rintro ⟨e, he, rfl, rfl⟩
    exact ⟨e, endpointsAt_eq_singleton h he⟩

end Declaration

/-! ## Reading the tree -/

namespace Build.Holds

variable {b : Build} {d : Declaration}

/-- A method stands at an address exactly if the declaration puts it there. -/
theorem has_iff_puts (h : b.Holds d d.demand) (q : List String) (m : Method) :
    (b.resources.valueAt q).has m = true ↔ d.Puts q m := by
  by_cases hm : m.isRouteMethod = true
  · rw [h.has_routeMethod_iff q hm, Declaration.puts_routeMethod_iff h.compatible hm]
    rfl
  · cases m with
    | options => rw [h.has_options_iff, Declaration.Puts, Option.isSome_iff_exists]; rfl
    | any => rw [h.has_any_iff]; rfl
    | _ => exact absurd rfl hm

/-- Where a method stands, there is a node. -/
theorem mem_addresses_of_has (h : b.Holds d d.demand) {q : List String} {m : Method}
    (hm : (b.resources.valueAt q).has m = true) : q ∈ b.resources.addresses := by
  rw [h.wellFormed.mem_addresses_iff_follow]
  cases hf : b.resources.follow PathTree.root q with
  | none =>
    rw [PathTree.valueAt, hf] at hm
    cases hm
  | some i => exact ⟨i, rfl⟩

end Build.Holds

/-- The attached methods of a tree are those of its nodes, one node after another. -/
theorem ResourceTree.methodCount_eq (t : ResourceTree) : methodCount t =
    ((List.range t.size).flatMap fun id => (t.attachments id).methods).length := by
  have hnodes : t.nodes.toList.map (fun n => n.payload.methods.length) =
      (List.range t.size).map fun id => (t.attachments id).methods.length := by
    refine List.ext_getElem (by simp [PathTree.size]) ?_
    intro i hi hi'
    have hlt : i < t.nodes.size := by simpa using hi
    simp [ResourceTree.attachments, PathTree.payload?, PathTree.get?, hlt]
  rw [methodCount, List.length_flatMap, List.length_flatMap]
  exact congrArg List.sum hnodes

/-! ## Counting -/

/-- The attached methods with the addresses of their nodes. -/
def ResourceTree.attached (t : ResourceTree) : List (List String × Method) :=
  (List.range t.size).flatMap fun id =>
    (Entries.keys (t.attachments id).methods).map fun m => (t.segmentsOf id, m)

theorem ResourceTree.length_attached (t : ResourceTree) : t.attached.length = methodCount t := by
  rw [methodCount_eq, attached, List.length_flatMap, List.length_flatMap]
  simp [Entries.keys]

namespace Build.Holds

variable {b : Build} {d : Declaration}

theorem mem_attached_iff (h : b.Holds d d.demand) (x : List String × Method) :
    x ∈ ResourceTree.attached b.resources ↔ d.Puts x.1 x.2 := by
  obtain ⟨q, m⟩ := x
  simp only [ResourceTree.attached, List.mem_flatMap, List.mem_range, List.mem_map, Prod.mk.injEq,
    Entries.mem_keys_iff]
  rw [← h.has_iff_puts q m]
  constructor
  · rintro ⟨id, hid, _, hhas, rfl, rfl⟩
    rw [← attachments_eq_valueAt h.wellFormed hid]
    exact hhas
  · intro hhas
    obtain ⟨id, hid, rfl⟩ := PathTree.mem_addresses.mp (h.mem_addresses_of_has hhas)
    rw [← attachments_eq_valueAt h.wellFormed hid] at hhas
    exact ⟨id, hid, m, hhas, rfl, rfl⟩

theorem attached_nodup (h : b.Holds d d.demand) : (ResourceTree.attached b.resources).Nodup := by
  refine List.nodup_flatMap.mpr ⟨?_, ?_⟩
  · intro id hid
    have honce := h.methods_once (b.resources.segmentsOf id)
    rw [← attachments_eq_valueAt h.wellFormed (List.mem_range.mp hid)] at honce
    exact honce.map fun _ _ heq => (Prod.mk.inj heq).2
  · refine List.nodup_range.imp_of_mem ?_
    intro i j hi hj hne x hx hy
    obtain ⟨_, -, rfl⟩ := List.mem_map.mp hx
    obtain ⟨_, -, heq⟩ := List.mem_map.mp hy
    exact hne (h.wellFormed.segmentsOf_inj (List.mem_range.mp hi) (List.mem_range.mp hj)
      (Prod.mk.inj heq).1.symm)

/-- As many methods are attached as the declaration puts anywhere. -/
theorem methodCount_eq (h : b.Holds d d.demand) : ResourceTree.methodCount b.resources =
    Set.ncard {x : List String × Method | d.Puts x.1 x.2} := by
  have hset : {x : List String × Method | d.Puts x.1 x.2} =
      ↑(ResourceTree.attached b.resources).toFinset := by
    ext x
    simp [h.mem_attached_iff]
  rw [hset, Set.ncard_coe_finset, List.toFinset_card_of_nodup h.attached_nodup,
    ResourceTree.length_attached]

end Build.Holds

/-! ## The tree of a contract -/

/-- The tree of the contract holds what the declaration declares, and nothing else. -/
structure Contract.HoldsTreeOf (c : Contract) (d : Declaration) : Prop where
  /-- Its segments lead to a node and to no other one. -/
  follow_iff : ∀ q id, c.resources.follow PathTree.root q = some id ↔
    id < c.resources.size ∧ c.resources.segmentsOf id = q
  /-- The nodes are the root, what leads to the path of a route, and the children of proxies. -/
  mem_addresses_iff : ∀ q, q ∈ c.resources.addresses ↔
    q = [] ∨ (∃ r ∈ d.routes, q <+: Path.segments r.1) ∨ ∃ p ∈ d.proxies, q = p.childSegments
  addresses_nodup : c.resources.addresses.Nodup
  /-- A method stands on a node exactly if the declaration puts it there. -/
  has_iff : ∀ id < c.resources.size, ∀ m,
    (c.resources.attachments id).has m = true ↔ d.Puts (c.resources.segmentsOf id) m
  /-- A declared method is served by its own definition, with the captures of its own path. -/
  endpoint_served : ∀ id < c.resources.size, ∀ e ∈ d.endpoints,
    e.segments = c.resources.segmentsOf id →
    ∃ am, Entries.get? (c.resources.attachments id).methods e.method = some am ∧
      am.method = e.method ∧
      am.integration = e.definition.resolve (.pathParams (Path.params e.path))
  /-- Both nodes of a proxy pass requests on as they are. -/
  proxy_served : ∀ id < c.resources.size, ∀ p ∈ d.proxies,
    c.resources.segmentsOf id ∈ p.addresses →
    ∃ am, Entries.get? (c.resources.attachments id).methods .any = some am ∧
      am.method = .any ∧ am.integration = p.definition.resolve .skipTemplating
  /-- A preflight is answered by the gateway with the headers of the CORS options. -/
  preflight_served : ∀ id < c.resources.size, ∀ am,
    Entries.get? (c.resources.attachments id).methods .options = some am →
    ∃ cors, d.policy.cors = some cors ∧ am.method = .options ∧
      am.integration = .answering "\x7b\"statusCode\": 204\x7d" ∧
      am.responses = [{ statusCode := 204, headers := cors.preflightHeaders }]
  cors_iff : ∀ id < c.resources.size, (c.resources.attachments id).cors.isSome = true ↔
    (c.resources.attachments id).has .options = true
  methodCount_eq : c.methodCount = Set.ncard {x : List String × Method | d.Puts x.1 x.2}

namespace Declaration

/-- The nodes that the routes go to are those of their paths and the children of proxies. -/
theorem prefix_of_places_iff (d : Declaration) (q : List String) :
    (∃ place ∈ d.demand.places, q <+: place) ↔
      (∃ r ∈ d.routes, q <+: Path.segments r.1) ∨ ∃ p ∈ d.proxies, q = p.childSegments := by
  have hplaces : ∀ place, place ∈ d.demand.places ↔
      ∃ r ∈ d.routes, place ∈ r.2.places r.1 := by
    intro place
    simp [demand, Demand.withRoutes]
  simp only [hplaces, RouteDefinition.places, List.mem_cons, List.mem_map]
  constructor
  · rintro ⟨_, ⟨r, hr, rfl | ⟨p, hp, rfl⟩⟩, hq⟩
    · exact Or.inl ⟨r, hr, hq⟩
    · rcases List.prefix_concat_iff.mp hq with rfl | hq
      · exact Or.inr ⟨p, List.mem_flatMap.mpr ⟨r, hr, hp⟩, rfl⟩
      · have hpath := (RouteDefinition.mem_proxies_iff.mp hp).1
        exact Or.inl ⟨r, hr, hpath ▸ hq⟩
  · rintro (⟨r, hr, hq⟩ | ⟨p, hp, rfl⟩)
    · exact ⟨_, ⟨r, hr, Or.inl rfl⟩, hq⟩
    · obtain ⟨r, hr, hp⟩ := List.mem_flatMap.mp hp
      exact ⟨_, ⟨r, hr, Or.inr ⟨p, hp, rfl⟩⟩, List.prefix_refl _⟩

/-- The tree of an assembled contract holds exactly what was declared. -/
theorem an_assembled_tree_holds_exactly_what_was_declared (d : Declaration) (c : Contract)
    (hc : d.assemble = .ok c) : c.HoldsTreeOf d := by
  obtain ⟨b, h, rfl⟩ := holds_of_assemble hc
  have hattachments : ∀ id < b.resources.size,
      b.resources.attachments id = b.resources.valueAt (b.resources.segmentsOf id) :=
    fun id hid => Build.attachments_eq_valueAt h.wellFormed hid
  constructor
  · intro q id
    exact h.wellFormed.follow_root_eq_some_iff
  · intro q
    exact (h.mem_addresses_iff q).trans (or_congr_right (d.prefix_of_places_iff q))
  · exact h.wellFormed.addresses_nodup
  · intro id hid m
    show (b.resources.attachments id).has m = true ↔ _
    rw [hattachments id hid]
    exact h.has_iff_puts _ m
  · intro id hid e he hq
    refine ⟨e.attached d.policy, ?_, e.method_attached d.policy, e.integration_attached d.policy⟩
    show Entries.get? (b.resources.attachments id).methods e.method = _
    rw [hattachments id hid, h.attached_iff]
    exact ⟨e.method_attached d.policy, .endpoint he hq⟩
  · intro id hid p hp hq
    refine ⟨Assembling.proxyMethod p.definition, ?_, rfl, rfl⟩
    show Entries.get? (b.resources.attachments id).methods .any = _
    rw [hattachments id hid, h.attached_iff]
    exact ⟨rfl, .proxy hp hq⟩
  · intro id hid am ham
    change Entries.get? (b.resources.attachments id).methods .options = some am at ham
    rw [hattachments id hid, h.attached_iff] at ham
    obtain ⟨cors, hcors, -, rfl⟩ := h.eq_preflight ham.1 ham.2
    exact ⟨cors, hcors, rfl, rfl, rfl⟩
  · intro id hid
    show (b.resources.attachments id).cors.isSome = true ↔
      (b.resources.attachments id).has .options = true
    rw [hattachments id hid, h.has_options_iff, Option.isSome_iff_exists]
    simp only [h.cors_iff, exists_and_right]
  · exact h.methodCount_eq

theorem the_tree_of_the_user_api_holds_exactly_what_was_declared :
    ∃ c, Samples.userApi.assemble = .ok c ∧ c.HoldsTreeOf Samples.userApi := by
  have hok : ∃ c, Samples.userApi.assemble = .ok c := ⟨_, rfl⟩
  obtain ⟨c, hc⟩ := hok
  exact ⟨c, hc, an_assembled_tree_holds_exactly_what_was_declared _ c hc⟩

end Declaration

end RestContract
