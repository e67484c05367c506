-- Routes that declare the same. Two assemblies are run side by side, over routes that differ in
-- how their paths are written and in what no assembly looks at. From builds with the same parts
-- each pair of steps ends alike, so both assemblies come to one result.
import RestContract.Proofs.BuildGrowth
import RestContract.Proofs.AssemblyRun
import RestContract.Proofs.PathWords

namespace RestContract

/-! ## Arrivals -/

namespace PathTree

variable {α : Type} [Inhabited α]

/-- Where an arrival goes on does not depend on what was told on the way. -/
theorem Arrival.foldl_descend_congr (q : List String) {a b : Arrival α}
    (htree : a.tree = b.tree) (hnode : a.node = b.node) :
    (q.foldl descend a).tree = (q.foldl descend b).tree ∧
      (q.foldl descend a).node = (q.foldl descend b).node := by
  induction q generalizing a b with
  | nil => exact ⟨htree, hnode⟩
  | cons s q ih =>
    have hstep : (a.descend s).tree = (b.descend s).tree ∧
        (a.descend s).node = (b.descend s).node := by
      unfold descend
      rw [htree, hnode]
      split <;> exact ⟨rfl, rfl⟩
    exact ih hstep.1 hstep.2

/-- Paths with the same segments lead to one node and leave one tree. -/
theorem insertAt_congr (t : PathTree α) (start : NodeId) {p q : String}
    (h : Path.segments p = Path.segments q) :
    (t.insertAt start p).tree = (t.insertAt start q).tree ∧
      (t.insertAt start p).node = (t.insertAt start q).node := by
  rw [insertAt, insertAt, h]
  exact Arrival.foldl_descend_congr _ rfl rfl

end PathTree

/-! ## Two runs side by side -/

/-- The results are the same value with builds of the same parts, or the same error. -/
inductive Build.EndsAlike {α : Type} : EStateM.Result AssemblyError Build α →
    EStateM.Result AssemblyError Build α → Prop
  | ok (a : α) {b c : Build} (h : b.Agrees c) : EndsAlike (.ok a b) (.ok a c)
  | error (e : AssemblyError) (b c : Build) : EndsAlike (.error e b) (.error e c)

theorem Build.agrees_tell (b : Build) (es fs : List Event) : (b.tell es).Agrees (b.tell fs) :=
  ⟨rfl, rfl, rfl⟩

namespace Assembling

variable {α β : Type}

/-- From builds with the same parts, both steps end alike. -/
def Alike (x y : Assembling α) : Prop :=
  ∀ b c, b.Agrees c → Build.EndsAlike (x.run b) (y.run c)

theorem Alike.bind {x y : Assembling α} {f g : α → Assembling β} (hx : Alike x y)
    (hf : ∀ a, Alike (f a) (g a)) : Alike (x >>= f) (y >>= g) := by
  intro b c hbc
  have hfirst := hx b c hbc
  simp only [EStateM.run, Bind.bind, EStateM.bind] at hfirst ⊢
  revert hfirst
  cases x b <;> cases y c <;> intro hfirst <;> cases hfirst
  · rename_i hmm
    exact hf _ _ _ hmm
  · exact .error _ _ _

/-- Two loops over lists whose elements lead to steps that end alike. -/
theorem Alike.forM {f : α → Assembling PUnit} {g : β → Assembling PUnit} {xs : List α}
    {ys : List β} (h : List.Forall₂ (fun x y => Alike (f x) (g y)) xs ys) :
    Alike (xs.forM f) (ys.forM g) := by
  induction h with
  | nil => exact fun b c hbc => .ok _ hbc
  | cons hxy _ ih => exact hxy.bind fun _ => ih

/-- Steps that end alike fail with the same errors. -/
theorem Alike.fails {x y : Assembling α} (h : Alike x y) {b c : Build} (hbc : b.Agrees c)
    {e : AssemblyError} (hb : Fails x b e) : Fails y c e := by
  obtain ⟨b', hb'⟩ := hb
  have hends := h b c hbc
  rw [hb'] at hends
  revert hends
  generalize hy : y.run c = r
  rintro (_ | ⟨e, _, c'⟩)
  exact ⟨c', hy⟩

theorem alike_tell (es fs : List Event) : Alike (tell es) (tell fs) :=
  fun _ _ hbc => .ok _ ⟨hbc.resources_eq, hbc.models_eq, hbc.validators_eq⟩

theorem Alike.get {f g : Build → Assembling α}
    (h : ∀ b c, b.Agrees c → Build.EndsAlike ((f b).run b) ((g c).run c)) :
    Alike (MonadStateOf.get >>= f) (MonadStateOf.get >>= g) := h

/-- A check in front of both steps that comes out the same for builds with the same parts. -/
theorem Alike.check {p : Build → Bool} {e : Build → AssemblyError} {k l : β → Assembling α}
    {x y : Assembling α} (hp : ∀ b c, b.Agrees c → p b = p c ∧ e b = e c) (hx : Alike x y) :
    Alike (MonadStateOf.get >>= fun b => if p b = true then throw (e b) >>= k else x)
      (MonadStateOf.get >>= fun b => if p b = true then throw (e b) >>= l else y) := by
  refine Alike.get fun b c hbc => ?_
  obtain ⟨hpb, heb⟩ := hp b c hbc
  rw [← hpb, ← heb]
  split
  · exact .error _ _ _
  · exact hx b c hbc

/-- A step that only looks at the parts of a build ends like itself. -/
theorem Grows.alike {x : Assembling α} (hx : Grows x)
    (hfails : ∀ b c e, b.Agrees c → Fails x b e → Fails x c e) : Alike x x := by
  intro b c hbc
  cases hb : x.run b with
  | ok a b' =>
    obtain ⟨c', hc', hagrees⟩ := hx.gives_of_agrees b c a b' hbc hb
    rw [show x.run c = .ok a c' from hc']
    exact .ok a hagrees
  | error e b' =>
    obtain ⟨c', hc'⟩ := hfails b c e hbc ⟨b', hb⟩
    rw [hc']
    exact .error e b' c'

theorem alike_attach (id : NodeId) (m : AttachedMethod) : Alike (attach id m) (attach id m) := by
  refine (grows_attach id m).alike ?_
  intro b c e hbc h
  rw [fails_attach] at h ⊢
  rwa [← hbc.attachments_eq, ← hbc.resources_eq]

theorem alike_addValidator (v : RequestValidator) :
    Alike (addValidator v) (addValidator v) := by
  refine (grows_addValidator v).alike ?_
  intro b c e hbc h
  rw [fails_addValidator] at h ⊢
  rwa [← hbc.hasArtifact_eq]

theorem alike_addModel (name : String) (s : TypeSchema) :
    Alike (addModel name s) (addModel name s) := by
  refine (grows_addModel name s).alike ?_
  intro b c e hbc h
  rw [fails_addModel] at h ⊢
  rwa [← hbc.hasArtifact_eq]

theorem alike_requestPreflight (id : NodeId) (o : CorsOptions) :
    Alike (requestPreflight id o) (requestPreflight id o) := by
  refine Alike.get fun b c hbc => ?_
  have hslot := hbc.withPreflight id (CorsOptions.register (b.attachments id).cors o)
  rw [← hbc.attachments_eq]
  dsimp only
  split
  · exact alike_attach id o.preflight _ _ (hslot.measure _)
  · exact .ok _ hslot

theorem alike_reach {path path' : String} (h : Path.segments path = Path.segments path')
    (start : NodeId) : Alike (reach start path) (reach start path') := by
  refine Alike.get fun b c hbc => ?_
  have hsame := b.resources.insertAt_congr start h
  rw [hbc.resources_eq] at hsame
  rw [Build.reach, Build.reach, hbc.resources_eq]
  dsimp only
  rw [hsame.2]
  exact .ok _ ⟨hsame.1, hbc.models_eq, hbc.validators_eq⟩

/-! ## Routes -/

theorem alike_attachProxy (id : NodeId) (definition : ResourceDefinition) :
    Alike (attachProxy id definition) (attachProxy id definition) := by
  refine (alike_reach rfl id).bind fun child => ?_
  refine (alike_attach id _).bind fun _ => ?_
  exact alike_attach child _

theorem alike_attachEndpoint (d : Declaration) (id : NodeId) (e : Endpoint) :
    Alike (attachEndpoint d id e) (attachEndpoint d id e) := by
  have hartifacts : Alike (do
      addValidator (e.requestValidator d.validation)
      e.models.forM fun m => addModel m.1 m.2
      attach id (e.attached d.policy)) (do
      addValidator (e.requestValidator d.validation)
      e.models.forM fun m => addModel m.1 m.2
      attach id (e.attached d.policy)) := by
    refine (alike_addValidator _).bind fun _ => ?_
    refine Alike.bind (Alike.forM (List.forall₂_same.mpr fun m _ => alike_addModel m.1 m.2))
      fun _ => ?_
    exact alike_attach id _
  refine Alike.check ?_ ?_
  · intro b c hbc
    exact ⟨by rw [hbc.attachments_eq], by rw [hbc.resources_eq]⟩
  · cases d.policy.cors with
    | none => exact hartifacts
    | some c => exact (alike_requestPreflight id c).bind fun _ => hartifacts

theorem alike_endpoints (d : Declaration) (id : NodeId) (es : List Endpoint) :
    Alike (es.forM (attachEndpoint d id)) (es.forM (attachEndpoint d id)) :=
  Alike.forM (List.forall₂_same.mpr fun e _ => alike_attachEndpoint d id e)

/-- What is generated for an endpoint does not depend on how its path is written. -/
theorem attachEndpoint_congr (d : Declaration) (id : NodeId) {path path' : String}
    (h : Path.segments path = Path.segments path') (method : Method)
    (definition : ResourceDefinition) :
    attachEndpoint d id { method, path, definition } =
      attachEndpoint d id { method, path := path', definition } := by
  have hartifact : ∀ role, Endpoint.artifact { method, path, definition } role =
      Endpoint.artifact { method, path := path', definition } role :=
    fun role => (Path.readsAlike_of_segments_eq h).artifactName_eq method.name role.text
  have hparams := Path.params_congr h
  simp only [attachEndpoint, Endpoint.requestValidator, Endpoint.models, Endpoint.attached,
    hartifact, hparams]

end Assembling

/-- The routes declare the same for one resource: their paths have the same segments, and they
have the same proxy and the same definition of each method that a route may declare. -/
structure LikeRoutes (r s : String × RouteDefinition) : Prop where
  segments_eq : Path.segments r.1 = Path.segments s.1
  declared?_eq : ∀ m, r.2.declared? m = s.2.declared? m
  proxied?_eq : r.2.proxied? = s.2.proxied?

namespace LikeRoutes

variable {r s : String × RouteDefinition} (h : LikeRoutes r s)

include h

/-- Endpoint by endpoint, the same step attaches them. -/
theorem forall₂_attachEndpoint (d : Declaration) (id : NodeId) :
    List.Forall₂ (fun e e' => Assembling.attachEndpoint d id e = Assembling.attachEndpoint d id e')
      (r.2.endpoints r.1) (s.2.endpoints s.1) := by
  have hmap : (r.2.endpoints r.1).map (Assembling.attachEndpoint d id) =
      (s.2.endpoints s.1).map (Assembling.attachEndpoint d id) := by
    rw [RouteDefinition.endpoints, RouteDefinition.endpoints, List.map_filterMap,
      List.map_filterMap]
    refine List.filterMap_congr fun m _ => ?_
    rw [h.declared?_eq]
    cases s.2.declared? m with
    | none => rfl
    | some definition =>
      exact congrArg some (Assembling.attachEndpoint_congr d id h.segments_eq m definition)
  have hsteps := List.forall₂_eq_eq_eq ▸ hmap
  rwa [List.forall₂_map_left_iff, List.forall₂_map_right_iff] at hsteps

theorem alike_attachRoute (d : Declaration) : Assembling.Alike
    (Assembling.attachRoute d r.1 r.2) (Assembling.attachRoute d s.1 s.2) := by
  obtain ⟨path, r⟩ := r
  obtain ⟨path', s⟩ := s
  refine (Assembling.alike_reach h.segments_eq PathTree.root).bind fun id => ?_
  cases r with
  | proxy definition =>
    cases s with
    | proxy definition' =>
      cases h.proxied?_eq
      exact Assembling.alike_attachProxy id definition
    | methods es => cases h.proxied?_eq
  | methods ds =>
    cases s with
    | proxy definition' => cases h.proxied?_eq
    | methods es =>
      simp only [Assembling.attachMethods_eq]
      refine (Assembling.alike_tell _ _).bind fun _ => Assembling.Alike.forM ?_
      refine (h.forall₂_attachEndpoint d id).imp fun e e' heq => ?_
      rw [heq]
      exact Assembling.alike_attachEndpoint d id e'

end LikeRoutes

/-! ## Assemblies -/

/-- Builds with the same parts are finished into one contract. -/
theorem Build.Agrees.contract_eq {b c : Build} (h : b.Agrees c) (d : Declaration)
    (rs : Entries String RouteDefinition) : b.contract d = c.contract { d with routes := rs } := by
  rw [contract, contract, h.resources_eq, h.models_eq, h.validators_eq]

namespace Declaration

variable {d : Declaration} {rs : Entries String RouteDefinition}

theorem alike_attachRoutes (h : List.Forall₂ LikeRoutes d.routes rs) :
    Assembling.Alike (Assembling.attachRoutes d)
      (Assembling.attachRoutes { d with routes := rs }) := by
  have hroutes : Assembling.Alike (d.routes.forM fun r => Assembling.attachRoute d r.1 r.2)
      (rs.forM fun r => Assembling.attachRoute d r.1 r.2) :=
    Assembling.Alike.forM (h.imp fun _ _ hrs => hrs.alike_attachRoute d)
  unfold Assembling.attachRoutes
  dsimp only
  cases d.policy.cors with
  | none => exact hroutes
  | some c =>
    dsimp only
    cases c.validate with
    | ok _ => exact hroutes
    | error e => exact fun b b' _ => .error _ b b'

/-- Declarations with routes that declare the same, one for one, are assembled into one contract
or fail with one error. -/
theorem assemble_congr (h : List.Forall₂ LikeRoutes d.routes rs) :
    ({ d with routes := rs } : Declaration).assemble = d.assemble := by
  have hstart : d.start.Agrees ({ d with routes := rs } : Declaration).start := ⟨rfl, rfl, rfl⟩
  have hends := alike_attachRoutes h _ _ hstart
  unfold start at hends
  unfold assemble assembly
  dsimp only at hends ⊢
  revert hends
  generalize (Assembling.attachRoutes d).run _ = x
  generalize (Assembling.attachRoutes { d with routes := rs }).run _ = y
  rintro (⟨_, hagrees⟩ | ⟨e, _, _⟩)
  · exact congrArg Except.ok (hagrees.contract_eq d rs).symm
  · rfl

end Declaration

end RestContract
