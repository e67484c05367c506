-- The spelling of paths does not matter. Slashes and blanks around segments change nothing of a
-- contract, the paths of nodes are as good as those that were declared, and a method that two
-- spellings of one resource declare is taken for what it is.
import RestContract.Proofs.ContractGrowth
import RestContract.Proofs.LaterRoutes
import RestContract.Proofs.LikeRoutes

namespace RestContract

/-! ## The paths of nodes -/

/-- Where a path is inserted, the path of the node is read like the one that was inserted. -/
theorem PathTree.Grown.readsAlike_insert {α : Type} [Inhabited α] {t : PathTree α} (h : Grown t)
    (path : String) :
    Path.ReadsAlike path ((t.insert path).tree.pathOf (t.insert path).node) := by
  have hreaches := h.wellFormed.reaches_insertAt h.wellFormed.size_pos path
  have hsegments := hreaches.segmentsOf_node
  dsimp only at hsegments
  rw [segmentsOf_root, List.nil_append] at hsegments
  refine Path.readsAlike_of_segments_eq ?_
  show Path.segments path =
    Path.segments (Path.join ((t.insertAt root path).tree.segmentsOf (t.insertAt root path).node))
  rw [hsegments, Path.segments_join_segments]

/-! ## A method less -/

namespace RouteDefinition

/-- The route without what it declares for a method. -/
def without (r : RouteDefinition) (m : Method) : RouteDefinition :=
  match r with
  | proxy definition => proxy definition
  | methods ds => methods (ds.filter fun e => !e.1 == m)

theorem declared?_without (r : RouteDefinition) (m m' : Method) :
    (r.without m).declared? m' = if m' == m then none else r.declared? m' := by
  cases r with
  | proxy definition => simp [without, declared?]
  | methods ds =>
    simp only [without, declared?, Entries.get?_filter_ne]
    split <;> split <;> rfl

theorem endpoints_without (r : RouteDefinition) (m : Method) (path : String) :
    (r.without m).endpoints path = (r.endpoints path).filter fun e => !e.method == m := by
  rw [endpoints, endpoints, List.filter_filterMap]
  refine List.filterMap_congr fun m' _ => ?_
  rw [declared?_without]
  cases hm : m' == m <;> cases r.declared? m' <;> simp [hm, Option.filter]

/-- A declared method has its place among the endpoints, and nothing else goes without it. -/
theorem exists_endpoints_eq {r : RouteDefinition} {m : Method} {definition : ResourceDefinition}
    (h : r.declared? m = some definition) (path : String) : ∃ before after,
    r.endpoints path = before ++ { method := m, path, definition } :: after ∧
      (r.without m).endpoints path = before ++ after := by
  obtain ⟨before, after, hsplit⟩ := List.append_of_mem
    (mem_endpoints_iff.mpr ⟨rfl, h⟩ : (⟨m, path, definition⟩ : Endpoint) ∈ r.endpoints path)
  have honce := r.endpoints_pairwise path
  rw [hsplit, List.pairwise_append, List.pairwise_cons] at honce
  obtain ⟨-, ⟨hafter, -⟩, hbefore⟩ := honce
  refine ⟨before, after, hsplit, ?_⟩
  rw [endpoints_without, hsplit, List.filter_append, List.filter_cons_of_neg (by simp)]
  congr 1
  · refine List.filter_eq_self.mpr fun e he => ?_
    simpa using hbefore e he _ List.mem_cons_self
  · refine List.filter_eq_self.mpr fun e he => ?_
    simpa using (hafter e he).symm

end RouteDefinition

/-! ## A method that is there already -/

namespace Assembling

variable {d : Declaration} {D : Demand} {b : Build} {id : NodeId} {err : AssemblyError}

theorem fails_forM_append {α : Type} {f : α → Assembling PUnit} {xs ys : List α} :
    Fails ((xs ++ ys).forM f) b err ↔
      Fails (xs.forM f) b err ∨ ∃ c, Gives (xs.forM f) b () c ∧ Fails (ys.forM f) c err := by
  induction xs generalizing b with
  | nil => simp
  | cons x xs ih =>
    simp only [List.cons_append, fails_forM_cons, gives_forM_cons, ih]
    constructor
    · rintro (hx | ⟨c, hx, hxs | ⟨m, hxs, hys⟩⟩)
      · exact Or.inl (Or.inl hx)
      · exact Or.inl (Or.inr ⟨c, hx, hxs⟩)
      · exact Or.inr ⟨m, ⟨c, hx, hxs⟩, hys⟩
    · rintro ((hx | ⟨c, hx, hxs⟩) | ⟨m, ⟨c, hx, hxs⟩, hys⟩)
      · exact Or.inl hx
      · exact Or.inr ⟨c, hx, Or.inl hxs⟩
      · exact Or.inr ⟨c, hx, Or.inr ⟨m, hxs, hys⟩⟩

/-- A loop does not get past an element whose step never ends well. If that step fails in some
way or like the loop over other elements does, so does the whole loop. -/
theorem forM_stops {α : Type} {f : α → Assembling PUnit} {before after after' : List α} {x : α}
    {P : AssemblyError → Prop}
    (h : ∀ c, Gives (before.forM f) b () c → (∀ c', ¬ Gives (f x) c () c') ∧
      ∀ err, Fails (f x) c err → P err ∨ Fails (after'.forM f) c err) :
    (∀ b', ¬ Gives ((before ++ x :: after).forM f) b () b') ∧
      ∀ err, Fails ((before ++ x :: after).forM f) b err →
        P err ∨ Fails ((before ++ after').forM f) b err := by
  constructor
  · intro b' hgives
    obtain ⟨c, hc, hrest⟩ := gives_forM_append.mp hgives
    obtain ⟨c', hc', -⟩ := gives_forM_cons.mp hrest
    exact (h c hc).1 c' hc'
  · intro err hfails
    rcases fails_forM_append.mp hfails with hfront | ⟨c, hc, hrest⟩
    · exact Or.inr (fails_forM_append.mpr (Or.inl hfront))
    · rcases fails_forM_cons.mp hrest with hx | ⟨c', hc', -⟩
      · refine ((h c hc).2 err hx).imp_right fun hafter => ?_
        exact fails_forM_append.mpr (Or.inr ⟨c, hc, hafter⟩)
      · exact absurd hc' ((h c hc).1 c')

/-- An endpoint whose method is attached to its node fails on that, before its preflight and its
artifacts are looked at. -/
theorem attachEndpoint_of_has {e : Endpoint} (h : (b.attachments id).has e.method = true) :
    (∀ b', ¬ Gives (attachEndpoint d id e) b () b') ∧
      ∀ err, Fails (attachEndpoint d id e) b err →
        err = .duplicateMethod e.method (b.resources.pathOf id) := by
  rw [attachEndpoint]
  simp only [gives_get_bind, fails_get_bind, h]
  simp

/-- With its method demanded on its node before, no endpoint is attached behind others: either
one of those in front fails, or the method is a duplicate. -/
theorem endpoints_of_demanded {before : List Endpoint} (after : List Endpoint) {e : Endpoint}
    (h : b.HoldsAt d D id e.segments)
    (hbefore : ∀ x ∈ before, x.segments = e.segments ∧ x.method.isRouteMethod = true)
    (hm : e.method.isRouteMethod = true)
    (hdemanded : ∃ e' ∈ D.endpoints, e'.segments = e.segments ∧ e'.method = e.method) :
    (∀ b', ¬ Gives ((before ++ e :: after).forM (attachEndpoint d id)) b () b') ∧
      ∀ err, Fails ((before ++ e :: after).forM (attachEndpoint d id)) b err →
        err = .duplicateMethod e.method (Path.join e.segments) ∨
          Fails ((before ++ after).forM (attachEndpoint d id)) b err := by
  refine forM_stops fun c hc => ?_
  obtain ⟨hholds, hid, hq⟩ := (serves_endpoints id hbefore).keeps b c h hc
  have hhas : (c.attachments id).has e.method = true := by
    rw [hholds.attachments_eq hid hq, hholds.has_routeMethod_iff _ hm]
    obtain ⟨e', he', hsame⟩ := hdemanded
    exact ⟨e', List.mem_append_left _ he', hsame⟩
  obtain ⟨hnone, hdup⟩ := attachEndpoint_of_has (d := d) hhas
  rw [PathTree.pathOf, hq] at hdup
  exact ⟨hnone, fun err herr => Or.inl (hdup err herr)⟩

/-- A route with a method that is demanded on its node before is not attached. -/
theorem attachRoute_of_demanded {path : String} {r : RouteDefinition} {m : Method}
    {definition : ResourceDefinition} (h : b.Holds d D) (hr : r.declared? m = some definition)
    (hdemanded : ∃ e ∈ D.endpoints, e.segments = Path.segments path ∧ e.method = m) :
    (∀ b', ¬ Gives (attachRoute d path r) b () b') ∧
      ∀ err, Fails (attachRoute d path r) b err →
        err = .duplicateMethod m (Path.join (Path.segments path)) ∨
          Fails (attachRoute d path (r.without m)) b err := by
  obtain ⟨ds, rfl⟩ : ∃ ds, r = .methods ds := by
    cases r with
    | proxy _ => cases hr
    | methods ds => exact ⟨ds, rfl⟩
  obtain ⟨before, after, hsplit, hwithout⟩ := RouteDefinition.exists_endpoints_eq hr path
  have hbefore : ∀ x ∈ before,
      x.segments = Path.segments path ∧ x.method.isRouteMethod = true := by
    intro x hx
    obtain ⟨hpath, hdef⟩ := RouteDefinition.mem_endpoints_iff.mp
      (hsplit ▸ List.mem_append_left _ hx)
    exact ⟨congrArg Path.segments hpath, RouteDefinition.isRouteMethod_of_declared? hdef⟩
  have hroot : b.HoldsAt d D PathTree.root [] :=
    ⟨h, h.wellFormed.size_pos, PathTree.segmentsOf_root _⟩
  have hend := fun es => endpoints_of_demanded after (e := ⟨m, path, definition⟩)
    ((hroot.reached path).tell es) hbefore (RouteDefinition.isRouteMethod_of_declared? hr) hdemanded
  constructor
  · intro b' hgives
    obtain ⟨_, _, hreach, hrest⟩ := gives_bind.mp hgives
    obtain ⟨rfl, rfl⟩ := gives_reach.mp hreach
    simp only [attachMethods_eq, gives_seq, gives_tell] at hrest
    obtain ⟨_, rfl, hloop⟩ := hrest
    rw [hsplit] at hloop
    exact (hend _).1 b' hloop
  · intro err hfails
    rcases fails_bind.mp hfails with hreach | ⟨_, _, hreach, hrest⟩
    · exact absurd hreach fails_reach
    · obtain ⟨rfl, rfl⟩ := gives_reach.mp hreach
      simp only [attachMethods_eq, fails_seq, fails_tell, gives_tell, false_or] at hrest
      obtain ⟨_, rfl, hloop⟩ := hrest
      rw [hsplit] at hloop
      refine ((hend _).2 err hloop).imp_right fun hloop' => ?_
      refine fails_bind.mpr (Or.inr ⟨_, _, gives_reach.mpr ⟨rfl, rfl⟩, ?_⟩)
      simp only [RouteDefinition.without, attachMethods_eq, fails_seq, fails_tell, gives_tell,
        false_or]
      refine ⟨_, rfl, ?_⟩
      rw [RouteDefinition.without] at hwithout
      rw [hwithout]
      exact (alike_endpoints d _ _).fails (Build.agrees_tell _ _ _) hloop'

/-- With a method demanded by routes in front, no route with that method is attached behind
them. -/
theorem routes_of_demanded {before : Entries String RouteDefinition}
    (after : Entries String RouteDefinition) {path : String} {r : RouteDefinition} {m : Method}
    {definition : ResourceDefinition} (h : b.Holds d D) (hr : r.declared? m = some definition)
    (hdemanded : ∃ e ∈ (D.withRoutes before).endpoints,
      e.segments = Path.segments path ∧ e.method = m) :
    (∀ b', ¬ Gives ((before ++ (path, r) :: after).forM fun r => attachRoute d r.1 r.2) b () b') ∧
      ∀ err, Fails ((before ++ (path, r) :: after).forM fun r => attachRoute d r.1 r.2) b err →
        err = .duplicateMethod m (Path.join (Path.segments path)) ∨
          Fails ((before ++ (path, r.without m) :: after).forM fun r => attachRoute d r.1 r.2)
            b err := by
  refine forM_stops fun c hc => ?_
  have hholds := (serves_routes before).keeps b c h hc
  obtain ⟨hnone, hfails⟩ := attachRoute_of_demanded hholds hr hdemanded
  refine ⟨hnone, fun err herr => (hfails err herr).imp_right fun hroute => ?_⟩
  exact fails_forM_cons.mpr (Or.inl hroute)

end Assembling

/-! ## The laws -/

namespace Declaration

variable {d : Declaration}

/-- An assembly ends one way or the other. -/
theorem exists_error_of_not_gives
    (h : ∀ b, ¬ Assembling.Gives (Assembling.attachRoutes d) d.start () b) :
    ∃ e, d.assemble = .error e := by
  cases hd : d.assemble with
  | error e => exact ⟨e, rfl⟩
  | ok c =>
    obtain ⟨b, hb, -⟩ := assemble_eq_ok_iff.mp hd
    exact absurd hb (h b)

/-- CORS options that cannot be used are reported whatever the routes are. -/
theorem assemble_of_invalid {c : CorsOptions} {ce : CorsError} (hc : d.policy.cors = some c)
    (he : c.validate = .error ce) : d.assemble = .error (.cors ce) := by
  obtain ⟨hnone, hfails⟩ := attachRoutes_of_invalid hc he
  obtain ⟨e, hd⟩ := exists_error_of_not_gives (hnone d.start)
  rw [hd, hfails d.start e (assemble_eq_error_iff.mp hd)]

/-- Two routes of one resource that declare one method are never assembled. What is reported is
the method, or else what is reported without the second declaration of it as well. -/
theorem error_of_declared_twice {before after : Entries String RouteDefinition} {p q : String}
    {r s : RouteDefinition} {m : Method} (hroutes : d.routes = before ++ (p, s) :: after)
    (hmem : (q, r) ∈ before) (hseg : Path.segments q = Path.segments p)
    (hr : (r.declared? m).isSome) (hs : (s.declared? m).isSome) :
    d.assemble = .error (.duplicateMethod m (Path.join (Path.segments p))) ∨
      ∃ e, d.assemble = .error e ∧
        assemble { d with routes := before ++ (p, s.without m) :: after } = .error e := by
  by_cases hcors : ∀ c, d.policy.cors = some c → c.validate = .ok ()
  · obtain ⟨definition, hs⟩ := Option.isSome_iff_exists.mp hs
    obtain ⟨definition', hr⟩ := Option.isSome_iff_exists.mp hr
    have hdemanded : ∃ e ∈ (Demand.withRoutes {} before).endpoints,
        e.segments = Path.segments p ∧ e.method = m := by
      refine ⟨⟨m, q, definition'⟩, ?_, hseg, rfl⟩
      exact List.mem_flatMap.mpr ⟨(q, r), hmem, RouteDefinition.mem_endpoints_iff.mpr ⟨rfl, hr⟩⟩
    obtain ⟨hnone, hfails⟩ := Assembling.routes_of_demanded after d.start_holds hs hdemanded
    rw [← hroutes, ← attachRoutes_eq hcors] at hnone hfails
    obtain ⟨e, he⟩ := exists_error_of_not_gives hnone
    rcases hfails e (assemble_eq_error_iff.mp he) with rfl | hlater
    · exact Or.inl he
    · have hstart : start { d with routes := before ++ (p, s.without m) :: after } = d.start := by
        simp [start, hroutes]
      refine Or.inr ⟨e, he, ?_⟩
      rw [assemble_eq_error_iff, attachRoutes_withRoutes hcors, hstart]
      exact hlater
  · simp only [not_forall] at hcors
    obtain ⟨c, hc, hne⟩ := hcors
    cases hce : c.validate with
    | ok _ => exact absurd hce hne
    | error ce => exact Or.inr ⟨_, assemble_of_invalid hc hce, assemble_of_invalid hc hce⟩

/-- A contract does not depend on how the paths of its routes are written, nor does the error if
there is none. The path of a node is read like every path that was inserted there, so a method
that two spellings of one resource declare is a duplicate, unless something else is reported that
is wrong without the second declaration as well. -/
theorem the_spelling_of_a_path_does_not_matter (d : Declaration) :
    (∀ rs, List.Forall₂ (fun r s => Path.segments r.1 = Path.segments s.1 ∧ r.2 = s.2)
        d.routes rs → assemble { d with routes := rs } = d.assemble) ∧
      (∀ (t : ResourceTree) (path : String), PathTree.Grown t →
        Path.ReadsAlike path ((t.insert path).tree.pathOf (t.insert path).node)) ∧
      ∀ before after p q r s m, d.routes = before ++ (p, s) :: after → (q, r) ∈ before →
        Path.segments q = Path.segments p → (r.declared? m).isSome → (s.declared? m).isSome →
        d.assemble = .error (.duplicateMethod m (Path.join (Path.segments p))) ∨
          ∃ e, d.assemble = .error e ∧
            assemble { d with routes := before ++ (p, s.without m) :: after } = .error e := by
  refine ⟨?_, ?_, ?_⟩
  · intro rs h
    refine assemble_congr (h.imp ?_)
    rintro r s ⟨hseg, hroute⟩
    exact ⟨hseg, fun m => by rw [hroute], by rw [hroute]⟩
  · intro t path h
    exact h.readsAlike_insert path
  · intro before after p q r s m hroutes hmem hseg hr hs
    exact error_of_declared_twice hroutes hmem hseg hr hs

/-- The routes of the report API with other spellings of their paths. -/
def respelledReportRoutes : Entries String RouteDefinition :=
  (["reports", "/ reports\t", "\u2003/reports//"].zip Samples.reportApi.routes).map
    fun (path, r) => (path, r.2)

/-- An API that declares one method of one resource under two spellings of its path. -/
def twiceDeclaredApi : Declaration where
  name := "users"
  routes := [("/users", .methods [(.get, Samples.getUserDefinition)]),
    ("users/ ", .methods [(.get, Samples.getUserDefinition)])]

theorem the_spelling_of_the_report_paths_does_not_matter :
    (∃ c, Samples.reportApi.assemble = .ok c ∧
      assemble { Samples.reportApi with routes := respelledReportRoutes } = .ok c) ∧
    (∃ c, Samples.reportApi.assemble = .ok c ∧ Path.ReadsAlike " users/\x7bid\x7d/"
      ((c.resources.insert " users/\x7bid\x7d/").tree.pathOf
        (c.resources.insert " users/\x7bid\x7d/").node)) ∧
    twiceDeclaredApi.assemble = .error (.duplicateMethod .get "/users") := by
  have hok : ∃ c, Samples.reportApi.assemble = .ok c := ⟨_, rfl⟩
  obtain ⟨c, hc⟩ := hok
  obtain ⟨hrespelled, hread, -⟩ := the_spelling_of_a_path_does_not_matter Samples.reportApi
  refine ⟨⟨c, hc, ?_⟩, ⟨c, hc, hread c.resources _ (grown_of_assemble hc)⟩, ?_⟩
  · rw [hrespelled, hc]
    exact .cons ⟨by decide, rfl⟩ (.cons ⟨by decide, rfl⟩ (.cons ⟨by decide, rfl⟩ .nil))
  · obtain ⟨-, -, hduplicate⟩ := the_spelling_of_a_path_does_not_matter twiceDeclaredApi
    rcases hduplicate [("/users", .methods [(.get, Samples.getUserDefinition)])] [] "users/ "
      "/users" _ _ .get rfl List.mem_cons_self (by decide) rfl rfl with hdup | ⟨e, -, he⟩
    · exact hdup
    · have hfirst : ∃ c, assemble { twiceDeclaredApi with routes :=
          [("/users", .methods [(.get, Samples.getUserDefinition)]), ("users/ ", .methods [])] } =
          .ok c := ⟨_, rfl⟩
      obtain ⟨c', hc'⟩ := hfirst
      cases he.symm.trans hc'

end Declaration

end RestContract
