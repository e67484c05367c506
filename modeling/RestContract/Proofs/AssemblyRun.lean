-- A whole assembly, step after step. Every step keeps the invariant for a demand that
-- has grown, and ends well exactly if the grown demand can be served. So an assembly
-- ends well exactly if all that is declared can be served together.
import RestContract.Proofs.Fulfilment

namespace RestContract

/-- The errors that routes can lead to. A preflight is never in the way of anything. -/
def AssemblyError.OfRoutes : AssemblyError → Prop
  | duplicateMethod m _ => m ≠ .options
  | duplicateArtifact _ | schema _ => True
  | cors _ | definition _ => False

namespace Assembling

/-! ## Serving -/

/-- From every build with the first property, the step ends well under the condition, leaves a
build with the second property if it ends well, and else fails with an error of routes. -/
structure Serves (x : Assembling PUnit) (P Q : Build → Prop) (condition : Prop) : Prop where
  ends : ∀ b, P b → condition → ∃ b', Gives x b () b'
  keeps : ∀ b b', P b → Gives x b () b' → Q b'
  fails : ∀ b e, P b → Fails x b e → e.OfRoutes

section Serves

variable {x : Assembling PUnit} {f : PUnit → Assembling PUnit} {P Q R : Build → Prop}
  {condition condition' : Prop}

/-- Two steps serve one after the other what they serve alone, if the condition of the second
implies that of the first. -/
theorem Serves.seq (hx : Serves x P Q condition) (hf : Serves (f ()) Q R condition')
    (himp : condition' → condition) : Serves (x >>= f) P R condition' where
  ends b hb h := by
    obtain ⟨c, hc⟩ := hx.ends b hb (himp h)
    obtain ⟨b', hb'⟩ := hf.ends c (hx.keeps b c hb hc) h
    exact ⟨b', gives_seq.mpr ⟨c, hc, hb'⟩⟩
  keeps b b' hb h := by
    obtain ⟨c, hc, hb'⟩ := gives_seq.mp h
    exact hf.keeps c b' (hx.keeps b c hb hc) hb'
  fails b e hb h := by
    rcases fails_seq.mp h with h | ⟨c, hc, h⟩
    · exact hx.fails b e hb h
    · exact hf.fails c e (hx.keeps b c hb hc) h

theorem Serves.weaken (hx : Serves x P Q condition) (hP : ∀ b, R b → P b) :
    Serves x R Q condition where
  ends b hb := hx.ends b (hP b hb)
  keeps b b' hb := hx.keeps b b' (hP b hb)
  fails b e hb := hx.fails b e (hP b hb)

theorem Serves.strengthen (hx : Serves x P Q condition) (hQ : ∀ b, Q b → R b) :
    Serves x P R condition where
  ends := hx.ends
  keeps b b' hb h := hQ b' (hx.keeps b b' hb h)
  fails := hx.fails

/-- Going to a path never fails, so what comes after it decides. -/
theorem Serves.reach {start : NodeId} {path : String} {g : NodeId → Assembling PUnit}
    (h : ∀ b, P b → Serves (g (b.reach start path).1) (· = (b.reach start path).2) Q condition) :
    Serves (Assembling.reach start path >>= g) P Q condition where
  ends b hb hcond := by
    obtain ⟨b', hb'⟩ := (h b hb).ends _ rfl hcond
    exact ⟨b', gives_bind.mpr ⟨_, _, gives_reach.mpr ⟨rfl, rfl⟩, hb'⟩⟩
  keeps b b' hb hgives := by
    obtain ⟨_, _, hreach, hrest⟩ := gives_bind.mp hgives
    obtain ⟨rfl, rfl⟩ := gives_reach.mp hreach
    exact (h b hb).keeps _ b' rfl hrest
  fails b e hb hfails := by
    rcases fails_bind.mp hfails with hreach | ⟨_, _, hreach, hrest⟩
    · exact absurd hreach fails_reach
    · obtain ⟨rfl, rfl⟩ := gives_reach.mp hreach
      exact (h b hb).fails _ e rfl hrest

end Serves

theorem serves_nil {α : Type} {f : α → Assembling PUnit} {P : Build → Prop} {condition : Prop} :
    Serves (([] : List α).forM f) P P condition where
  ends b _ _ := ⟨b, gives_forM_nil.mpr rfl⟩
  keeps _ _ hb h := gives_forM_nil.mp h ▸ hb
  fails _ _ _ h := absurd h fails_forM_nil

/-! ## The steps of a route -/

variable {d : Declaration} {D : Demand}

theorem serves_tell {P : Build → Prop} (es : List Event) (hP : ∀ b, P b → P (b.tell es)) :
    Serves (tell es) P P True where
  ends _ _ _ := ⟨_, gives_tell.mpr rfl⟩
  keeps b _ hb h := gives_tell.mp h ▸ hP b hb
  fails _ _ _ h := absurd h fails_tell

theorem serves_attachEndpoint {e : Endpoint} (hm : e.method.isRouteMethod = true) (id : NodeId) :
    Serves (attachEndpoint d id e) (·.HoldsAt d D id e.segments)
      (·.HoldsAt d (D.withEndpoints [e]) id e.segments) (D.withEndpoints [e]).Compatible := by
  have hne := (Method.isRouteMethod_iff.mp hm).1
  constructor
  · rintro b ⟨h, hid, hq⟩ hcompatible
    have hadmits := (h.admits_iff hid hq hm).mpr hcompatible
    exact ⟨_, (gives_attachEndpoint h.wellFormed hid hne).mpr ⟨hadmits, rfl⟩⟩
  · rintro b b' ⟨h, hid, hq⟩ hgives
    obtain ⟨hadmits, rfl⟩ := (gives_attachEndpoint h.wellFormed hid hne).mp hgives
    have halters := Build.alters_served h.wellFormed hid d e
    exact ⟨h.served hid hq hm hadmits, halters.size_eq.symm ▸ hid,
      (halters.segmentsOf_eq id).trans hq⟩
  · rintro b err ⟨h, hid, hq⟩ hfails
    have hfree : ∀ c, d.policy.cors = some c →
        (b.attachments id).cors = none → (b.attachments id).has .options = false := by
      intro c hc
      rw [h.attachments_eq hid hq]
      exact h.preflight_free hc
    rcases fails_attachEndpoint h.wellFormed hid hfree hfails with
      ⟨path, rfl⟩ | ⟨name, rfl⟩ | ⟨se, rfl⟩
    · exact hne
    · trivial
    · trivial

/-- The endpoints of one node, one after another. -/
theorem serves_endpoints {es : List Endpoint} {q : List String} (id : NodeId)
    (hes : ∀ e ∈ es, e.segments = q ∧ e.method.isRouteMethod = true) :
    Serves (es.forM (attachEndpoint d id)) (·.HoldsAt d D id q)
      (·.HoldsAt d (D.withEndpoints es) id q) (D.withEndpoints es).Compatible := by
  induction es generalizing D with
  | nil =>
    rw [Demand.withEndpoints_nil]
    exact serves_nil
  | cons e es ih =>
    obtain ⟨⟨rfl, hm⟩, hrest⟩ := List.forall_mem_cons.mp hes
    have hfirst := serves_attachEndpoint (d := d) (D := D) hm id
    have hprefix : D.endpoints ++ [e] <+: (D.withEndpoints (e :: es)).endpoints :=
      ⟨es, by simp [Demand.withEndpoints]⟩
    refine hfirst.seq ?_ fun h => h.mono hprefix (List.prefix_refl _)
    rw [Demand.withEndpoints_cons D e es]
    exact ih hrest

/-- With the child of a proxy reached, both nodes of the proxy are known. -/
theorem reached_child {b : Build} {p : Proxy} {id : NodeId} (h : b.HoldsAt d D id p.segments) :
    (b.reach id proxySegment).2.HoldsAt d (D.withPlace p.childSegments)
      (b.reach id proxySegment).1 p.childSegments ∧
    id < (b.reach id proxySegment).2.resources.size ∧
    (b.reach id proxySegment).2.resources.segmentsOf id = p.segments := by
  have hchild := h.reached proxySegment
  rw [Path.segments_proxySegment] at hchild
  exact ⟨hchild, h.kept h.lt_size proxySegment⟩

/-- A proxy is attached exactly if its method is on neither of its nodes yet. The nodes have
different addresses, so the second check does not see the first attachment. -/
theorem gives_attachProxy_iff {b b' : Build} {p : Proxy} {id : NodeId}
    (h : b.HoldsAt d D id p.segments) : Gives (attachProxy id p.definition) b () b' ↔
      (∀ q ∈ p.addresses, ((b.reach id proxySegment).2.resources.valueAt q).has .any = false) ∧
      b' = (b.reach id proxySegment).2.proxied id (b.reach id proxySegment).1 p.definition := by
  obtain ⟨hchild, hid, hq⟩ := reached_child h
  have hfirst := hchild.holds.wellFormed.alters_modifyPayload hid
    (·.attach (proxyMethod p.definition))
  have hlt := hfirst.size_eq.symm ▸ hchild.lt_size
  rw [gives_attachProxy, Build.attachments_eq_valueAt hchild.holds.wellFormed hid,
    Build.attachments_eq_valueAt (b := (b.reach id proxySegment).2.withMethod id _)
      hfirst.wellFormed hlt, Build.resources_withMethod, hfirst.segmentsOf_eq,
    hfirst.valueAt_eq, hq, hchild.segmentsOf_eq, if_neg p.segments_ne_childSegments.symm,
    ← and_assoc]
  simp [Proxy.addresses]

theorem serves_attachProxy (p : Proxy) (id : NodeId) :
    Serves (attachProxy id p.definition) (·.HoldsAt d D id p.segments)
      (·.Holds d (D.withProxy p)) (D.withProxy p).Compatible := by
  constructor
  · intro b h hcompatible
    have hfree := (reached_child h).1.holds.proxy_free_iff.mpr
      (hcompatible.mono (List.prefix_refl _) (List.prefix_refl _))
    exact ⟨_, (gives_attachProxy_iff h).mpr ⟨hfree, rfl⟩⟩
  · intro b b' h hb'
    obtain ⟨hchild, hid, hq⟩ := reached_child h
    obtain ⟨hfree, rfl⟩ := (gives_attachProxy_iff h).mp hb'
    exact hchild.holds.proxied hid hq hchild.lt_size hchild.segmentsOf_eq hfree
  · intro b e _ hfails
    obtain ⟨path, rfl⟩ := fails_attachProxy hfails
    exact Method.noConfusion

/-- Looking for each method that a route may declare is going through the declared ones. -/
theorem attachMethods_eq (id : NodeId) (path : String)
    (ds : Entries Method ResourceDefinition) : attachMethods d id path ds = (do
      tell (((Entries.keys ds).filter (!·.isRouteMethod)).map fun m => .methodSkipped path m.name)
      ((RouteDefinition.methods ds).endpoints path).forM (attachEndpoint d id)) := by
  refine congrArg (tell _ >>= fun _ => ·) (forM_eq_forM_filterMap ?_)
  intro m hm
  have hdeclared : (RouteDefinition.methods ds).declared? m = Entries.get? ds m :=
    if_pos (List.contains_iff_mem.mpr hm)
  rw [hdeclared]
  cases Entries.get? ds m <;> rfl

/-- A route is served with all that it declares. -/
theorem serves_attachRoute (path : String) (r : RouteDefinition) :
    Serves (attachRoute d path r) (·.Holds d D) (·.Holds d (D.withRoute path r))
      (D.withRoute path r).Compatible := by
  refine Serves.reach fun b h => ?_
  have hroot : b.HoldsAt d D PathTree.root [] :=
    ⟨h, h.wellFormed.size_pos, PathTree.segmentsOf_root _⟩
  have hreached := hroot.reached path
  cases r with
  | proxy definition =>
    have hdemand : D.withRoute path (.proxy definition) =
        (D.withPlace (Path.segments path)).withProxy ⟨path, definition⟩ := by
      simp [Demand.withRoute, Demand.withPlace, Demand.withProxy, RouteDefinition.places,
        RouteDefinition.endpoints, RouteDefinition.proxies, RouteDefinition.declared?,
        RouteDefinition.proxied?]
    rw [hdemand]
    refine (serves_attachProxy ⟨path, definition⟩ _).weaken ?_
    rintro _ rfl
    exact hreached
  | methods ds =>
    have hdemand : D.withRoute path (.methods ds) =
        (D.withPlace (Path.segments path)).withEndpoints
          ((RouteDefinition.methods ds).endpoints path) := by
      simp [Demand.withRoute, Demand.withPlace, Demand.withEndpoints, RouteDefinition.places,
        RouteDefinition.proxies, RouteDefinition.proxied?]
    have hes : ∀ e ∈ (RouteDefinition.methods ds).endpoints path,
        e.segments = Path.segments path ∧ e.method.isRouteMethod = true := by
      intro e he
      obtain ⟨hpath, hdef⟩ := RouteDefinition.mem_endpoints_iff.mp he
      exact ⟨congrArg Path.segments hpath, RouteDefinition.isRouteMethod_of_declared? hdef⟩
    rw [hdemand]
    simp only [attachMethods_eq]
    refine ((serves_tell _ ?_).seq (serves_endpoints _ hes) fun _ => trivial).weaken ?_
      |>.strengthen fun _ => Build.HoldsAt.holds
    · exact fun _ hb => hb.tell _
    · rintro _ rfl
      exact hreached

/-- All routes, one after another. -/
theorem serves_routes (rs : Entries String RouteDefinition) :
    Serves (rs.forM fun r => attachRoute d r.1 r.2) (·.Holds d D) (·.Holds d (D.withRoutes rs))
      (D.withRoutes rs).Compatible := by
  induction rs generalizing D with
  | nil =>
    rw [Demand.withRoutes_nil]
    exact serves_nil
  | cons r rs ih =>
    obtain ⟨path, r⟩ := r
    rw [Demand.withRoutes_cons]
    refine (serves_attachRoute path r).seq ih fun h => h.mono ?_ ?_
    · exact List.prefix_append _ _
    · exact List.prefix_append _ _

end Assembling

/-! ## The whole assembly -/

namespace Declaration

/-- The build in which an assembly starts. -/
def start (d : Declaration) : Build := { events := [.assembling d.name d.routes.length] }

theorem resources_start (d : Declaration) : d.start.resources = PathTree.new default := rfl

theorem start_holds (d : Declaration) : d.start.Holds d {} where
  compatible := ⟨List.Pairwise.nil, fun _ h => absurd h List.not_mem_nil, List.Pairwise.nil⟩
  route_methods := fun _ h => absurd h List.not_mem_nil
  wellFormed := by
    rw [resources_start]
    exact PathTree.wellFormed_new default
  mem_addresses_iff q := by
    rw [resources_start, PathTree.addresses_new]
    simp
  attached_iff q m am := by
    rw [resources_start, PathTree.valueAt_new]
    constructor
    · intro h
      cases h
    · rintro ⟨-, h⟩
      cases h with
      | endpoint he => cases he
      | preflight he => cases he
      | proxy hp => cases hp
  methods_once q := by
    rw [resources_start, PathTree.valueAt_new]
    exact List.nodup_nil
  cors_iff q c := by
    rw [resources_start, PathTree.valueAt_new]
    constructor
    · intro h
      cases h
    · rintro ⟨-, e, he, -⟩
      cases he
  validators_eq := rfl
  models_eq := rfl

theorem assemble_eq_ok_iff {d : Declaration} {c : Contract} : d.assemble = .ok c ↔
    ∃ b, Assembling.Gives (Assembling.attachRoutes d) d.start () b ∧ c = b.contract d := by
  unfold assemble assembly Assembling.Gives start
  dsimp only
  cases (Assembling.attachRoutes d).run { events := [.assembling d.name d.routes.length] } <;>
    simp [eq_comm]

theorem assemble_eq_error_iff {d : Declaration} {e : AssemblyError} :
    d.assemble = .error e ↔ Assembling.Fails (Assembling.attachRoutes d) d.start e := by
  unfold assemble assembly Assembling.Fails start
  dsimp only
  cases (Assembling.attachRoutes d).run { events := [.assembling d.name d.routes.length] } <;>
    simp [eq_comm]

/-- With CORS options that can be used, the check lets the routes through. -/
theorem attachRoutes_eq {d : Declaration}
    (h : ∀ c, d.policy.cors = some c → c.validate = .ok ()) :
    Assembling.attachRoutes d = d.routes.forM fun r => Assembling.attachRoute d r.1 r.2 := by
  unfold Assembling.attachRoutes
  cases hc : d.policy.cors with
  | none => rfl
  | some c =>
    simp only [h c hc]

/-- With CORS options that cannot be used, there is nothing after the check. -/
theorem attachRoutes_of_invalid {d : Declaration} {c : CorsOptions} {ce : CorsError}
    (hc : d.policy.cors = some c) (he : c.validate = .error ce) :
    (∀ b b', ¬ Assembling.Gives (Assembling.attachRoutes d) b () b') ∧
      ∀ b e, Assembling.Fails (Assembling.attachRoutes d) b e → e = .cors ce := by
  have hthrow : Assembling.attachRoutes d = (throw (.cors ce) >>= fun _ : PUnit =>
      d.routes.forM fun r => Assembling.attachRoute d r.1 r.2) := by
    unfold Assembling.attachRoutes
    simp only [hc, he]
  rw [hthrow]
  simp

/-- CORS options that can be used are the first thing an assembly asks for. -/
theorem cors_valid_of_gives {d : Declaration} {b b' : Build}
    (h : Assembling.Gives (Assembling.attachRoutes d) b () b') (c : CorsOptions)
    (hc : d.policy.cors = some c) : c.validate = .ok () := by
  cases he : c.validate with
  | ok _ => rfl
  | error ce => exact absurd h ((attachRoutes_of_invalid hc he).1 b b')

/-- A contract comes from a build that holds all that is declared. -/
theorem holds_of_assemble {d : Declaration} {c : Contract} (h : d.assemble = .ok c) :
    ∃ b : Build, b.Holds d d.demand ∧ c = b.contract d := by
  obtain ⟨b, hgives, rfl⟩ := assemble_eq_ok_iff.mp h
  have hcors := cors_valid_of_gives hgives
  rw [attachRoutes_eq hcors] at hgives
  exact ⟨b, (Assembling.serves_routes d.routes).keeps d.start b d.start_holds hgives, rfl⟩

/-- The error of an assembly is about the CORS options or about the routes. -/
theorem error_of_assemble {d : Declaration} {e : AssemblyError} (h : d.assemble = .error e) :
    e.OfRoutes ∨ ∃ ce, e = .cors ce := by
  rw [assemble_eq_error_iff] at h
  by_cases hcors : ∀ c, d.policy.cors = some c → c.validate = .ok ()
  · rw [attachRoutes_eq hcors] at h
    exact Or.inl ((Assembling.serves_routes d.routes).fails d.start e d.start_holds h)
  · simp only [not_forall] at hcors
    obtain ⟨c, hc, hne⟩ := hcors
    cases he : c.validate with
    | ok _ => exact absurd he hne
    | error ce => exact Or.inr ⟨ce, (attachRoutes_of_invalid hc he).2 d.start e h⟩

/-- An assembly succeeds if the CORS options can be used and the demand is compatible. -/
theorem exists_contract_iff {d : Declaration} : (∃ c, d.assemble = .ok c) ↔
    (∀ c, d.policy.cors = some c → c.validate = .ok ()) ∧ d.demand.Compatible := by
  constructor
  · rintro ⟨c, hc⟩
    obtain ⟨b, hgives, -⟩ := assemble_eq_ok_iff.mp hc
    obtain ⟨b', hholds, -⟩ := holds_of_assemble hc
    exact ⟨cors_valid_of_gives hgives, hholds.compatible⟩
  · rintro ⟨hcors, hcompatible⟩
    obtain ⟨b, hb⟩ := (Assembling.serves_routes d.routes).ends d.start d.start_holds hcompatible
    rw [← attachRoutes_eq hcors] at hb
    exact ⟨_, assemble_eq_ok_iff.mpr ⟨b, hb, rfl⟩⟩

/-- An assembly succeeds for the declarations that can be assembled and for no others. What
fails is never the registration of a preflight. -/
theorem an_assembly_succeeds_iff_all_routes_fit_together (d : Declaration) :
    ((∃ c, d.assemble = .ok c) ↔ d.Assemblable) ∧
      ∀ path, d.assemble ≠ .error (.duplicateMethod .options path) := by
  constructor
  · rw [assemblable_iff]
    exact exists_contract_iff
  · intro path h
    rcases error_of_assemble h with hroutes | ⟨ce, hcors⟩
    · exact hroutes rfl
    · cases hcors

end Declaration

end RestContract
