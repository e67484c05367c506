-- The trees of contracts. An assembly changes its tree by insertions and by changes of payloads,
-- at nodes that are there, so the tree of every contract grew from the root alone, and what
-- holds of grown trees holds of it.
import RestContract.Proofs.AssemblyRun
import RestContract.Proofs.BuildGrowth
import RestContract.Proofs.GrownTree

namespace RestContract

/-! ## Growing anywhere -/

namespace PathTree

variable {α : Type}

/-- Where no node is, no payload changes. -/
theorem modifyPayload_of_size_le {t : PathTree α} {id : NodeId} (h : t.size ≤ id) (f : α → α) :
    t.modifyPayload id f = t := by
  have hnone : t.nodes[id]? = none := Array.getElem?_eq_none h
  have hnodes : (t.modifyPayload id f).nodes = t.nodes := by
    refine Array.ext_getElem? fun i => ?_
    rw [modifyPayload, Array.getElem?_modify]
    split
    · rename_i hi
      rw [← hi, hnone]
      rfl
    · rfl
  cases t
  exact congrArg mk hnodes

theorem Grown.changed [Inhabited α] {t : PathTree α} (h : Grown t) (id : NodeId) (f : α → α) :
    Grown (t.modifyPayload id f) := by
  by_cases hid : id < t.size
  · exact h.modifyPayload f hid
  · rw [modifyPayload_of_size_le (Nat.not_lt.mp hid)]
    exact h

end PathTree

/-! ## Steps -/

namespace Assembling

variable {α β : Type}

/-- If the tree of a build is a grown one, so is the tree that the step leaves. -/
def KeepsGrown (x : Assembling α) : Prop :=
  ∀ b a b', Gives x b a b' → PathTree.Grown b.resources → PathTree.Grown b'.resources

theorem KeepsGrown.bind {x : Assembling α} {f : α → Assembling β} (hx : KeepsGrown x)
    (hf : ∀ a, KeepsGrown (f a)) : KeepsGrown (x >>= f) := by
  intro b r b' h hb
  obtain ⟨a, m, hm, hrest⟩ := gives_bind.mp h
  exact hf a m r b' hrest (hx b a m hm hb)

/-- A step that does not touch the tree. -/
theorem keepsGrown_of_eq {x : Assembling α}
    (h : ∀ b a b', Gives x b a b' → b'.resources = b.resources) : KeepsGrown x :=
  fun b a b' hgives hb => (h b a b' hgives).symm ▸ hb

theorem KeepsGrown.forM {f : α → Assembling PUnit} (hf : ∀ a, KeepsGrown (f a)) (xs : List α) :
    KeepsGrown (xs.forM f) := by
  induction xs with
  | nil => exact keepsGrown_of_eq fun b _ b' h => by rw [gives_forM_nil.mp h]
  | cons x xs ih => exact (hf x).bind fun _ => ih

theorem keepsGrown_tell (es : List Event) : KeepsGrown (tell es) :=
  keepsGrown_of_eq fun b _ b' h => by rw [gives_tell.mp h, Build.resources_tell]

theorem keepsGrown_addValidator (v : RequestValidator) : KeepsGrown (addValidator v) :=
  keepsGrown_of_eq fun b _ b' h => by
    rw [(gives_addValidator.mp h).2, Build.resources_withValidator]

theorem keepsGrown_addModel (name : String) (s : TypeSchema) : KeepsGrown (addModel name s) := by
  refine keepsGrown_of_eq fun b _ b' h => ?_
  obtain ⟨-, document, -, rfl⟩ := gives_addModel.mp h
  rw [Build.resources_withModel]

theorem keepsGrown_attach (id : NodeId) (m : AttachedMethod) : KeepsGrown (attach id m) := by
  intro b _ b' h hb
  rw [(gives_attach.mp h).2, Build.resources_withMethod]
  exact hb.changed id _

theorem keepsGrown_requestPreflight (id : NodeId) (o : CorsOptions) :
    KeepsGrown (requestPreflight id o) := by
  intro b _ b' h hb
  have hslot : PathTree.Grown (b.withPreflight id
      (CorsOptions.register (b.attachments id).cors o)).resources := by
    rw [Build.resources_withPreflight]
    exact hb.changed id _
  rcases (gives_requestPreflight_cases rfl).mp h with ⟨-, hrest⟩ | ⟨-, rfl⟩
  · exact keepsGrown_attach id o.preflight _ _ _ hrest hslot
  · exact hslot

theorem keepsGrown_attachEndpoint (d : Declaration) (id : NodeId) (e : Endpoint) :
    KeepsGrown (attachEndpoint d id e) := by
  have hartifacts : KeepsGrown (do
      addValidator (e.requestValidator d.validation)
      e.models.forM fun m => addModel m.1 m.2
      attach id (e.attached d.policy)) := by
    have hmodels : KeepsGrown (e.models.forM fun m => addModel m.1 m.2) :=
      KeepsGrown.forM (fun m => keepsGrown_addModel m.1 m.2) e.models
    exact (keepsGrown_addValidator (e.requestValidator d.validation)).bind fun _ =>
      hmodels.bind fun _ => keepsGrown_attach id (e.attached d.policy)
  intro b _ b' h hb
  obtain ⟨-, hrest⟩ := gives_unless.mp (gives_get_bind.mp h)
  cases hc : d.policy.cors with
  | none =>
    rw [hc] at hrest
    exact hartifacts b _ b' hrest hb
  | some c =>
    rw [hc] at hrest
    exact (keepsGrown_requestPreflight id c).bind (fun _ => hartifacts) b _ b' hrest hb

theorem keepsGrown_attachMethods (d : Declaration) (id : NodeId) (path : String)
    (ds : Entries Method ResourceDefinition) : KeepsGrown (attachMethods d id path ds) := by
  have hendpoints := KeepsGrown.forM (keepsGrown_attachEndpoint d id)
  rw [attachMethods_eq]
  exact (keepsGrown_tell _).bind fun _ => hendpoints _

/-- The child of a proxy is inserted below a node that is there. -/
theorem grown_attachProxy {id : NodeId} {definition : ResourceDefinition} {b b' : Build}
    (h : Gives (attachProxy id definition) b () b') (hb : PathTree.Grown b.resources)
    (hid : id < b.resources.size) : PathTree.Grown b'.resources := by
  obtain ⟨-, -, rfl⟩ := gives_attachProxy.mp h
  rw [Build.resources_proxied]
  exact ((hb.insertAt proxySegment hid).changed id _).changed _ _

theorem keepsGrown_attachRoute (d : Declaration) (path : String) (r : RouteDefinition) :
    KeepsGrown (attachRoute d path r) := by
  intro b _ b' h hb
  obtain ⟨id, m, hreach, hrest⟩ := gives_bind.mp h
  obtain ⟨rfl, rfl⟩ := gives_reach.mp hreach
  have hm : PathTree.Grown (b.reach PathTree.root path).2.resources := hb.insert path
  cases r with
  | proxy definition =>
    exact grown_attachProxy hrest hm
      (Build.reaches_reach hb.wellFormed hb.wellFormed.size_pos path).node_lt
  | methods ds => exact keepsGrown_attachMethods d _ path ds _ _ _ hrest hm

end Assembling

/-! ## Contracts -/

/-- The tree of every contract grew from the root alone. -/
theorem Declaration.grown_of_assemble {d : Declaration} {c : Contract} (h : d.assemble = .ok c) :
    PathTree.Grown c.resources := by
  obtain ⟨b, hgives, rfl⟩ := assemble_eq_ok_iff.mp h
  rw [attachRoutes_eq (cors_valid_of_gives hgives)] at hgives
  have hroutes := Assembling.KeepsGrown.forM
    (fun r : String × RouteDefinition => Assembling.keepsGrown_attachRoute d r.1 r.2) d.routes
  exact hroutes d.start _ b hgives (d.resources_start ▸ .new)

end RestContract
