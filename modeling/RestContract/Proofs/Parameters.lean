-- The parameters of methods that a compute unit serves. The method takes them and the
-- integration passes them on, from two maps that are written apart. Both maps keep the first
-- place of a name that comes again, so they name the same parameters in the same order.
import RestContract.Proofs.ContractGrowth
import RestContract.Proofs.References

namespace RestContract

/-! ## Captures -/

namespace PathTree

variable {α : Type} {t : PathTree α} {id : NodeId}

/-- The names that the nodes from the root to a node capture. -/
def capturesTo (t : PathTree α) (id : NodeId) : List String :=
  (id :: t.ancestors id).reverse.filterMap fun i => (t.kind i).captureName?

theorem kind_of_get? {n : PathNode α} (h : t.get? id = some n) : t.kind id = n.kind := by
  simp [kind, h]

/-- The nodes on the way to a node capture what its segments say. -/
theorem Grown.capturesTo_eq [Inhabited α] (h : Grown t) (hid : id < t.size) :
    t.capturesTo id = (t.segmentsOf id).filterMap fun s => (SegmentKind.of s).captureName? := by
  induction id using Nat.strongRecOn with
  | ind id ih =>
    by_cases hroot : id = root
    · subst hroot
      obtain ⟨n, hn, -, hkind⟩ := h.coherent.root_first
      rw [capturesTo, ancestors_root, segmentsOf_root]
      simp [kind_of_get? hn, hkind, SegmentKind.captureName?]
    · obtain ⟨p, hlt, hp⟩ := h.wellFormed.exists_parent? hid hroot
      obtain ⟨n, hn⟩ := exists_get?_of_lt hid
      have hkind : t.kind id = .of (t.segment id) := by
        rw [kind_of_get? hn, segment_of_get? hn]
        exact h.classified id n hn hroot
      have hup := ih p hlt (Nat.lt_trans hlt hid)
      rw [capturesTo] at hup ⊢
      rw [ancestors_of_parent? hp hlt, segmentsOf_of_parent? hp hlt, List.reverse_cons,
        List.filterMap_append, hup, List.filterMap_append, List.filterMap_cons, List.filterMap_cons,
        hkind]
      rfl

end PathTree

/-! ## The parameters of a method -/

/-- The parameters that captures and query parameters stand for. A request always has its
captures. -/
def parametersOf (captures : List String) (query : Entries String Bool) : Entries String Bool :=
  captures.map (fun p => ("path." ++ p, true)) ++ query.map fun q => ("querystring." ++ q.1, q.2)

/-- The method takes the parameters under their names, and its integration takes each of them
from the method, in the same order and nothing else. -/
structure AttachedMethod.PassesOn (am : AttachedMethod) (ps : Entries String Bool) : Prop where
  keys_nodup : (Entries.keys ps).Nodup
  requestParameters_eq : am.requestParameters = ps.map fun p => ("method.request." ++ p.1, p.2)
  integration_eq : ∃ l, am.integration = .lambda l ∧ l.requestParameters =
    ps.map fun p => ("integration.request." ++ p.1, "method.request." ++ p.1)

section Parameters

variable (captures : List String) (query : Entries String Bool)

/-- A capture and a query parameter never have the same name. -/
theorem path_ne_querystring (p q : String) : "path." ++ p ≠ "querystring." ++ q := by
  intro h
  have hfirst := congrArg (fun s : String => s.toList.head?) h
  simp at hfirst

/-- Names that come again are collapsed among the captures and among the query parameters, and
never across them. -/
theorem ofPairs_parametersOf : Entries.ofPairs (parametersOf captures query) =
    parametersOf captures.eraseDups (Entries.ofPairs query) := by
  have hpath : Function.Injective ("path." ++ ·) := fun _ _ => (String.append_right_inj _).mp
  have hquery : Function.Injective ("querystring." ++ ·) :=
    fun _ _ => (String.append_right_inj _).mp
  have hapart : ∀ k ∈ Entries.keys (query.map fun q => ("querystring." ++ q.1, q.2)),
      k ∉ Entries.keys (captures.map fun p => ("path." ++ p, true)) := by
    simp only [Entries.keys, List.map_map, List.mem_map, Function.comp_apply]
    rintro _ ⟨q, -, rfl⟩ ⟨p, -, heq⟩
    exact path_ne_querystring p q.1 heq
  have hcaptures : captures.map (fun p => ("path." ++ p, true)) =
      (captures.map (·, true)).map fun p => ("path." ++ p.1, p.2) := by simp
  rw [parametersOf, Entries.ofPairs_append hapart, hcaptures,
    Entries.ofPairs_map hpath fun _ v => v, Entries.ofPairs_const,
    Entries.ofPairs_map hquery fun _ v => v]
  simp [parametersOf]

theorem nodup_keys_parametersOf :
    (Entries.keys (parametersOf captures.eraseDups (Entries.ofPairs query))).Nodup := by
  rw [← ofPairs_parametersOf]
  exact Entries.keys_ofPairs_nodup _

/-- Parameters that are stored under a text in front of their names. -/
theorem ofPairs_fronted {β : Type} (front : String) (value : String → Bool → β) :
    Entries.ofPairs ((parametersOf captures query).map fun p => (front ++ p.1, value p.1 p.2)) =
      (parametersOf captures.eraseDups (Entries.ofPairs query)).map fun p =>
        (front ++ p.1, value p.1 p.2) := by
  have hfront : Function.Injective (front ++ ·) := fun _ _ => (String.append_right_inj _).mp
  rw [Entries.ofPairs_map hfront value, ofPairs_parametersOf]

end Parameters

/-- What a method takes, written from its parameters. -/
theorem requestParameters_eq (captures : List String) (d : ResourceDefinition) :
    requestParameters captures d =
      Entries.ofPairs ((parametersOf captures (d.queryParams?.getD [])).map fun p =>
        ("method.request." ++ p.1, p.2)) := by
  simp [requestParameters, parametersOf, Function.comp_def, ← String.append_assoc]

/-- What an integration passes on, written from the same parameters. -/
theorem ComputeDefinition.requestParameters_eq (captures : List String)
    (query : Entries String Bool) :
    requestParameters captures (Entries.keys query) =
      Entries.ofPairs ((parametersOf captures query).map fun p =>
        ("integration.request." ++ p.1, "method.request." ++ p.1)) := by
  simp [requestParameters, parametersOf, Entries.keys, Function.comp_def, ← String.append_assoc]

namespace Endpoint

theorem requestParameters_attached (e : Endpoint) (policy : GlobalPolicy) :
    (e.attached policy).requestParameters =
      requestParameters (Path.params e.path) e.definition := by
  unfold attached AttachedMethod.guardedBy
  split <;> rfl

/-- An endpoint that a compute unit serves passes on what it takes. -/
theorem passesOn_attached {e : Endpoint} {f : ComputeDefinition} (h : e.definition = .compute f)
    (policy : GlobalPolicy) : (e.attached policy).PassesOn
      (parametersOf (Path.params e.path).eraseDups (Entries.ofPairs f.queryParams)) := by
  constructor
  · exact nodup_keys_parametersOf _ _
  · rw [e.requestParameters_attached, h, requestParameters_eq]
    exact ofPairs_fronted _ _ _ fun _ required => required
  · refine ⟨f.derive (.pathParams (Path.params e.path)), ?_, ?_⟩
    · rw [e.integration_attached, h]
      rfl
    · show ComputeDefinition.requestParameters _ (Entries.keys f.queryParams) = _
      rw [ComputeDefinition.requestParameters_eq]
      exact ofPairs_fronted _ _ _ fun name _ => "method.request." ++ name

end Endpoint

/-! ## The law -/

namespace Declaration

/-- A method that a compute unit serves takes the captures of its path and then its query
parameters, each name where it first came, and the compute unit is passed exactly these. The
captures are those of the nodes from the root to the node of the method. -/
theorem a_compute_unit_is_passed_what_its_method_takes (d : Declaration) (c : Contract)
    (hc : d.assemble = .ok c) : ∀ r ∈ d.routes, ∀ m f, r.2.declared? m = some (.compute f) →
      ∃ id am, c.resources.resolve r.1 = some id ∧ c.Attached id m am ∧
        c.resources.capturesTo id = Path.params r.1 ∧
        am.PassesOn
          (parametersOf (Path.params r.1).eraseDups (Entries.ofPairs f.queryParams)) := by
  have hgrown := grown_of_assemble hc
  obtain ⟨b, h, rfl⟩ := holds_of_assemble hc
  intro r hr m f hdeclared
  have he : (⟨m, r.1, .compute f⟩ : Endpoint) ∈ d.endpoints :=
    d.mem_endpoints_iff.mpr ⟨r, hr, rfl, hdeclared⟩
  obtain ⟨id, hq, hat⟩ := h.exists_attached he
  refine ⟨id, _, h.wellFormed.resolve_eq_some_iff.mpr ⟨hat.1, hq⟩, hat, ?_,
    Endpoint.passesOn_attached rfl d.policy⟩
  rw [hgrown.capturesTo_eq hat.1]
  exact congrArg _ hq

/-- An API with a capture that comes again and a query parameter of the same name. -/
def copiesApi : Declaration where
  name := "copies"
  policy := Samples.globalPolicy
  routes := [("/users/\x7bid\x7d/copies/\x7bid\x7d/\x7bpage.no\x7d", .methods [(.get, .compute
    { function := Samples.templateFunction, queryParams := [("id", true), ("page.no", false)] })])]

theorem the_copies_api_is_passed_what_its_method_takes :
    ∃ c id am, copiesApi.assemble = .ok c ∧
      c.Attached id .get am ∧ c.resources.capturesTo id = ["id", "id", "page.no"] ∧
      am.PassesOn [("path.id", true), ("path.page.no", true), ("querystring.id", true),
        ("querystring.page.no", false)] := by
  have hok : ∃ c, copiesApi.assemble = .ok c := ⟨_, rfl⟩
  obtain ⟨c, hc⟩ := hok
  obtain ⟨id, am, -, hat, hcaptures, hpasses⟩ :=
    a_compute_unit_is_passed_what_its_method_takes _ c hc _ List.mem_cons_self .get _ rfl
  have hparams : Path.params "/users/\x7bid\x7d/copies/\x7bid\x7d/\x7bpage.no\x7d" =
      ["id", "id", "page.no"] := by decide
  rw [hparams] at hpasses
  exact ⟨c, id, am, hc, hat, hcaptures.trans hparams, hpasses⟩

end Declaration

end RestContract
