-- The order of routes, and of the methods inside a route. An assembly goes through them one
-- after another, but what it leaves is described by what was demanded, and a demand is the
-- same in every order.
import RestContract.Proofs.References

namespace RestContract

/-! ## Routes in another order -/

/-- The same route with its methods in another order. No route has a method twice. -/
inductive RouteDefinition.Reorders : RouteDefinition → RouteDefinition → Prop
  | proxy (definition : ResourceDefinition) : Reorders (.proxy definition) (.proxy definition)
  | methods {ds ds' : Entries Method ResourceDefinition} (honce : (Entries.keys ds).Nodup)
    (h : ds.Perm ds') : Reorders (.methods ds) (.methods ds')

/-- The same routes in another order, each with its methods in another order. -/
def Declaration.Reorders (rs rs' : Entries String RouteDefinition) : Prop :=
  ∃ mid, List.Forall₂ (fun r r' => r'.1 = r.1 ∧ r.2.Reorders r'.2) rs mid ∧ mid.Perm rs'

namespace RouteDefinition

variable {r r' : RouteDefinition}

theorem Reorders.declared?_eq (h : r.Reorders r') (m : Method) :
    r.declared? m = r'.declared? m := by
  cases h with
  | proxy definition => rfl
  | methods honce hperm => rw [declared?, declared?, Entries.get?_perm hperm honce]

theorem Reorders.proxied?_eq (h : r.Reorders r') : r.proxied? = r'.proxied? := by
  cases h <;> rfl

theorem Reorders.endpoints_eq (h : r.Reorders r') (path : String) :
    r.endpoints path = r'.endpoints path := by
  unfold endpoints
  simp only [h.declared?_eq]

theorem Reorders.proxies_eq (h : r.Reorders r') (path : String) :
    r.proxies path = r'.proxies path := by
  unfold proxies
  rw [h.proxied?_eq]

theorem Reorders.places_eq (h : r.Reorders r') (path : String) :
    r.places path = r'.places path := by
  unfold places
  rw [h.proxies_eq]

end RouteDefinition

/-! ## Demands in another order -/

namespace Demand

/-- The same demand in another order. -/
structure Reorders (D D' : Demand) : Prop where
  places_perm : D.places.Perm D'.places
  endpoints_perm : D.endpoints.Perm D'.endpoints
  proxies_perm : D.proxies.Perm D'.proxies

variable {D D' : Demand}

theorem Reorders.symm (h : D.Reorders D') : D'.Reorders D :=
  ⟨h.places_perm.symm, h.endpoints_perm.symm, h.proxies_perm.symm⟩

theorem flatMap_perm_of_reorders {β : Type} {f : String × RouteDefinition → List β}
    (hf : ∀ path r r', r.Reorders r' → f (path, r) = f (path, r'))
    {rs rs' : Entries String RouteDefinition} (h : Declaration.Reorders rs rs') :
    (rs.flatMap f).Perm (rs'.flatMap f) := by
  obtain ⟨mid, hmid, hperm⟩ := h
  have heq : rs.flatMap f = mid.flatMap f := by
    clear hperm
    induction hmid with
    | nil => rfl
    | @cons r r' rs mid hr _ ih =>
      obtain ⟨path, r⟩ := r
      obtain ⟨path', r'⟩ := r'
      obtain ⟨rfl, hr⟩ := hr
      rw [List.flatMap_cons, List.flatMap_cons, ih, hf _ _ _ hr]
  rw [heq]
  exact hperm.flatMap_right f

theorem reorders_withRoutes {rs rs' : Entries String RouteDefinition}
    (h : Declaration.Reorders rs rs') (D : Demand) :
    (D.withRoutes rs).Reorders (D.withRoutes rs') where
  places_perm := (flatMap_perm_of_reorders (fun path _ _ h => h.places_eq path) h).append_left _
  endpoints_perm :=
    (flatMap_perm_of_reorders (fun path _ _ h => h.endpoints_eq path) h).append_left _
  proxies_perm := (flatMap_perm_of_reorders (fun path _ _ h => h.proxies_eq path) h).append_left _

theorem Reorders.asks {policy : GlobalPolicy} {q : List String} {am : AttachedMethod}
    (h : D.Reorders D') (hasks : D.Asks policy q am) : D'.Asks policy q am :=
  hasks.mono h.endpoints_perm.subset h.proxies_perm.subset

/-- Being apart is mutual, so it does not matter which of two came first. -/
theorem Reorders.compatible (h : D.Reorders D') (hD : D.Compatible) : D'.Compatible where
  endpoints_apart := (h.endpoints_perm.pairwise_iff Endpoint.Apart.symm).mp hD.endpoints_apart
  endpoints_servable e he := hD.endpoints_servable e (h.endpoints_perm.mem_iff.mpr he)
  proxies_apart := by
    refine (h.proxies_perm.pairwise_iff ?_).mp hD.proxies_apart
    rintro p p' ⟨h1, h2, h3⟩
    exact ⟨h1.symm, h3, h2⟩

end Demand

/-! ## Contracts that differ in order only -/

/-- The same attachments in another order. -/
structure Attachments.Reorders (a a' : Attachments) : Prop where
  cors_eq : a.cors = a'.cors
  methods_perm : a.methods.Perm a'.methods

/-- The same contract, with other numbers for its nodes and with its methods, models and
validators in another order. -/
structure Contract.Reorders (c c' : Contract) : Prop where
  name_eq : c.name = c'.name
  stageName_eq : c.stageName = c'.stageName
  /-- Every path leads to the same resource, or to none in both. -/
  resource_rel : ∀ path, Option.Rel Attachments.Reorders (c.resource? path) (c'.resource? path)
  models_perm : c.models.Perm c'.models
  validators_perm : c.validators.Perm c'.validators

theorem PathTree.WellFormed.payload_of_follow {α : Type} [Inhabited α] {t : PathTree α}
    (h : t.WellFormed) (q : List String) : (t.follow root q).bind t.payload? =
      if q ∈ t.addresses then some (t.valueAt q) else none := by
  unfold valueAt
  cases hf : t.follow root q with
  | none =>
    have hno : q ∉ t.addresses := by
      intro hq
      obtain ⟨i, hi⟩ := h.mem_addresses_iff_follow.mp hq
      rw [hf] at hi
      cases hi
    rw [if_neg hno]
    rfl
  | some i =>
    obtain ⟨n, hn⟩ := exists_get?_of_lt (h.follow_root_eq_some_iff.mp hf).1
    rw [if_pos (h.mem_addresses_iff_follow.mpr ⟨i, hf⟩)]
    simp [payload?, hn]

namespace Build.Holds

variable {b b' : Build} {d d' : Declaration} {D D' : Demand}

theorem resource?_eq (h : b.Holds d D) (path : String) : (b.contract d).resource? path =
    if Path.segments path ∈ b.resources.addresses then
      some (b.resources.valueAt (Path.segments path)) else none :=
  h.wellFormed.payload_of_follow (Path.segments path)

theorem reorders_valueAt (h : b.Holds d D) (h' : b'.Holds d' D') (hD : D.Reorders D')
    (hpolicy : d.policy = d'.policy) (q : List String) :
    (b.resources.valueAt q).Reorders (b'.resources.valueAt q) := by
  constructor
  · apply Option.ext
    intro c
    rw [h.cors_iff, h'.cors_iff, hpolicy]
    simp only [hD.endpoints_perm.mem_iff]
  · refine Entries.perm_of_get?_eq (h.methods_once q) (h'.methods_once q) ?_
    intro m
    apply Option.ext
    intro am
    rw [h.attached_iff, h'.attached_iff, hpolicy]
    exact and_congr_right fun _ => ⟨hD.asks, hD.symm.asks⟩

/-- What two builds hold is the same if what they hold was demanded in another order. -/
theorem reorders_contract (h : b.Holds d D) (h' : b'.Holds d' D') (hD : D.Reorders D')
    (hd : d' = { d with routes := d'.routes }) :
    (b.contract d).Reorders (b'.contract d') := by
  have hpolicy : d.policy = d'.policy := by rw [hd]
  constructor
  · show d.name = d'.name
    rw [hd]
  · show d.stageName = d'.stageName
    rw [hd]
  · intro path
    have haddresses : Path.segments path ∈ b.resources.addresses ↔
        Path.segments path ∈ b'.resources.addresses := by
      rw [h.mem_addresses_iff, h'.mem_addresses_iff]
      simp only [hD.places_perm.mem_iff]
    rw [h.resource?_eq, h'.resource?_eq]
    by_cases hmem : Path.segments path ∈ b.resources.addresses
    · rw [if_pos hmem, if_pos (haddresses.mp hmem)]
      exact .some (h.reorders_valueAt h' hD hpolicy _)
    · rw [if_neg hmem, if_neg fun hmem' => hmem (haddresses.mpr hmem')]
      exact .none
  · show b.models.Perm b'.models
    rw [h.models_eq, h'.models_eq]
    exact (hD.endpoints_perm.flatMap_right _).map _
  · show b.validators.Perm b'.validators
    have hvalidation : d'.validation = d.validation := by rw [hd]
    rw [h.validators_eq, h'.validators_eq, hvalidation]
    exact hD.endpoints_perm.map _

end Build.Holds

namespace Declaration

/-- The order of routes and of the methods inside them decides neither whether an assembly
succeeds nor what it leaves. -/
theorem the_order_of_routes_does_not_matter (d : Declaration)
    (rs : Entries String RouteDefinition) (h : Reorders d.routes rs) :
    ((∃ c, d.assemble = .ok c) ↔ ∃ c, assemble { d with routes := rs } = .ok c) ∧
      ∀ c c', d.assemble = .ok c → assemble { d with routes := rs } = .ok c' →
        c.Reorders c' := by
  have hD : d.demand.Reorders (demand { d with routes := rs }) := Demand.reorders_withRoutes h {}
  refine ⟨?_, ?_⟩
  · rw [exists_contract_iff, exists_contract_iff]
    exact and_congr_right fun _ => ⟨hD.compatible, hD.symm.compatible⟩
  · intro c c' hc hc'
    obtain ⟨b, hb, rfl⟩ := holds_of_assemble hc
    obtain ⟨b', hb', rfl⟩ := holds_of_assemble hc'
    exact hb.reorders_contract hb' hD rfl

theorem the_order_of_the_report_routes_does_not_matter :
    Reorders Samples.reportApi.routes Samples.reversedReportRoutes ∧
      ∃ c c', Samples.reportApi.assemble = .ok c ∧
        assemble { Samples.reportApi with routes := Samples.reversedReportRoutes } = .ok c' ∧
        c.Reorders c' := by
  have hrs : Reorders Samples.reportApi.routes Samples.reversedReportRoutes := by
    refine ⟨Samples.reversedReportRoutes.reverse, ?_, List.reverse_perm _⟩
    exact .cons ⟨rfl, .methods (by decide) (.swap ..)⟩
      (.cons ⟨rfl, .methods (by decide) (.swap ..)⟩ (.cons ⟨rfl, .proxy _⟩ .nil))
  obtain ⟨hiff, hsame⟩ := the_order_of_routes_does_not_matter _ _ hrs
  have hok : ∃ c, Samples.reportApi.assemble = .ok c := ⟨_, rfl⟩
  obtain ⟨c, hc⟩ := hok
  obtain ⟨c', hc'⟩ := hiff.mp ⟨c, hc⟩
  exact ⟨hrs, c, c', hc, hc', hsame c c' hc hc'⟩

end Declaration

end RestContract
