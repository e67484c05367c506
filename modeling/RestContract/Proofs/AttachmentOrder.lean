-- The order of attached methods. Whenever a method is attached, the journal is told of it with the
-- path of its node. So what the journal tells of a path are the methods of its node, in the order
-- in which they stand there.
import RestContract.Proofs.ContractGrowth

namespace RestContract

/-! ## What the journal tells of methods -/

/-- The method that an event tells of, if it was attached to the node of the path. -/
def Event.attachedAt? (path : String) : Event → Option String
  | .methodAttached node method _ _ => if node = path then some method else none
  | _ => none

/-- The methods that were attached to the node of a path, in the order in which they were. -/
def attachedAt (path : String) (es : List Event) : List String :=
  es.filterMap (Event.attachedAt? path)

/-- The names of the attached methods, in their order. -/
def Attachments.methodNames (a : Attachments) : List String :=
  (Entries.keys a.methods).map Method.name

theorem attachedAt_append (path : String) (es fs : List Event) :
    attachedAt path (es ++ fs) = attachedAt path es ++ attachedAt path fs :=
  List.filterMap_append

theorem Attachments.methodNames_attach {a : Attachments} {m : AttachedMethod}
    (h : a.has m.method = false) :
    (a.attach m).methodNames = a.methodNames ++ [m.method.name] := by
  have hmethods : (a.attach m).methods = a.methods ++ [(m.method, m)] := Entries.put_of_not_has h m
  rw [methodNames, hmethods, Entries.keys_append, List.map_append]
  rfl

namespace PathTree

variable {α : Type}

theorem attachedAt_creationEvents (t : PathTree α) (p : NodeId) (s path : String) :
    attachedAt path (t.creationEvents p s) = [] := by
  unfold creationEvents
  cases (t.kind p).isGreedy <;> cases (SegmentKind.of s).isCapture <;>
    cases t.captureBelow? p <;> rfl

theorem attachedAt_namelessEvents (inserted path : String) :
    attachedAt path (namelessEvents inserted) = [] := by
  refine List.filterMap_eq_nil_iff.mpr fun e he => ?_
  obtain ⟨s, -, hs⟩ := List.mem_filterMap.mp he
  rw [Option.ite_none_right_eq_some] at hs
  obtain rfl := Option.some.inj hs.2
  rfl

/-- Inserting a path attaches nothing. -/
theorem attachedAt_insertAt [Inhabited α] (t : PathTree α) (start : NodeId)
    (inserted path : String) : attachedAt path (t.insertAt start inserted).events = [] := by
  have hfold : ∀ (q : List String) (a : Arrival α), attachedAt path a.events = [] →
      attachedAt path (q.foldl Arrival.descend a).events = [] := by
    intro q
    induction q with
    | nil => exact fun a ha => ha
    | cons s q ih =>
      intro a ha
      refine ih (a.descend s) ?_
      unfold Arrival.descend
      split
      · exact ha
      · rw [attachedAt_append, ha, attachedAt_creationEvents]
        rfl
  exact hfold _ _ (attachedAt_namelessEvents inserted path)

end PathTree

theorem CorsOptions.attachedAt_register (slot : Option CorsOptions) (c : CorsOptions)
    (path : String) : attachedAt path (CorsOptions.register slot c).events = [] := by
  cases slot with
  | none => rfl
  | some first =>
    simp only [CorsOptions.register]
    split <;> rfl

/-! ## The invariant -/

/-- Each of the segments is one that was read from a path. -/
def AreSegments (q : List String) : Prop := ∀ s ∈ q, Path.segments s = [s]

theorem join_inj_of_areSegments {q r : List String} (hq : AreSegments q) (hr : AreSegments r)
    (h : Path.join q = Path.join r) : q = r := by
  rw [← Path.segments_join_of_segments hq, h, Path.segments_join_of_segments hr]

/-- The methods that stand at an address are those that the journal tells of its path, in the same
order, and the nodes in question are there. -/
structure Build.Recorded (b : Build) (ids : List NodeId) : Prop where
  grown : PathTree.Grown b.resources
  names_eq : ∀ q, AreSegments q →
    (b.resources.valueAt q).methodNames = attachedAt (Path.join q) b.events
  lt_size : ∀ id ∈ ids, id < b.resources.size

namespace Build.Recorded

variable {b : Build} {ids : List NodeId} {id : NodeId}

/-- A change of anything but the tree and the methods told of. -/
theorem of_eq (h : b.Recorded ids) {b' : Build} (hresources : b'.resources = b.resources)
    (hevents : ∀ path, attachedAt path b'.events = attachedAt path b.events) :
    b'.Recorded ids := by
  refine ⟨hresources ▸ h.grown, ?_, hresources ▸ h.lt_size⟩
  intro q hq
  rw [hresources, hevents, h.names_eq q hq]

theorem tell (h : b.Recorded ids) {es : List Event} (hes : ∀ path, attachedAt path es = []) :
    (b.tell es).Recorded ids := by
  refine h.of_eq rfl fun path => ?_
  rw [Build.tell, attachedAt_append, hes, List.append_nil]

theorem withValidator (h : b.Recorded ids) (v : RequestValidator) :
    (b.withValidator v).Recorded ids :=
  h.of_eq rfl fun path => (attachedAt_append path _ _).trans (List.append_nil _)

theorem withModels (h : b.Recorded ids) (ms : List Model) : (b.withModels ms).Recorded ids := by
  unfold Build.withModels
  induction ms generalizing b with
  | nil => exact h
  | cons m ms ih =>
    have hfirst : (b.withModel m).Recorded ids :=
      h.of_eq rfl fun path => (attachedAt_append path _ _).trans (List.append_nil _)
    exact ih hfirst

theorem withPreflight (h : b.Recorded ids) (hid : id ∈ ids) {r : CorsOptions.Registration}
    (hr : ∀ path, attachedAt path r.events = []) : (b.withPreflight id r).Recorded ids := by
  refine ⟨?_, ?_, ?_⟩
  · rw [resources_withPreflight]
    exact h.grown.modifyPayload _ (h.lt_size id hid)
  · intro q hq
    have hevents : attachedAt (Path.join q) (b.withPreflight id r).events =
        attachedAt (Path.join q) b.events := by
      rw [Build.withPreflight, Build.tell, attachedAt_append, hr, List.append_nil]
    rw [hevents, ← h.names_eq q hq, resources_withPreflight,
      h.grown.wellFormed.valueAt_modifyPayload _ (h.lt_size id hid)]
    split <;> rfl
  · rw [resources_withPreflight, PathTree.size_modifyPayload]
    exact h.lt_size

/-- A method that is attached stands behind the others of its node, and the journal tells of it
last. No other node has the path that the journal names. -/
theorem withMethod (h : b.Recorded ids) (hid : id ∈ ids) {m : AttachedMethod}
    (hfree : (b.attachments id).has m.method = false) : (b.withMethod id m).Recorded ids := by
  have hlt := h.lt_size id hid
  have hwf := h.grown.wellFormed
  refine ⟨?_, ?_, ?_⟩
  · rw [resources_withMethod]
    exact h.grown.modifyPayload _ hlt
  · intro q hq
    have hevents : (b.withMethod id m).events = b.events ++ [b.attachEvent id m] := rfl
    rw [hevents, attachedAt_append, ← h.names_eq q hq, resources_withMethod,
      hwf.valueAt_modifyPayload _ hlt]
    by_cases hself : q = b.resources.segmentsOf id
    · subst hself
      rw [Build.attachments_eq_valueAt hwf hlt] at hfree
      rw [if_pos rfl, Attachments.methodNames_attach hfree]
      simp [attachedAt, Build.attachEvent, Event.attachedAt?, PathTree.pathOf]
    · have hother : b.resources.pathOf id ≠ Path.join q := fun hpath =>
        hself (join_inj_of_areSegments hq (h.grown.spelled.segments_of_mem hlt) hpath.symm)
      simp [hself, attachedAt, Build.attachEvent, Event.attachedAt?, hother]
  · rw [resources_withMethod, PathTree.size_modifyPayload]
    exact h.lt_size

theorem reached (h : b.Recorded ids) {start : NodeId} (hstart : start < b.resources.size)
    (path : String) : (b.reach start path).2.Recorded ((b.reach start path).1 :: ids) := by
  have hreaches := reaches_reach h.grown.wellFormed hstart path
  refine ⟨h.grown.insertAt path hstart, ?_, List.forall_mem_cons.mpr ⟨hreaches.node_lt, ?_⟩⟩
  · intro q hq
    have hevents : attachedAt (Path.join q) (b.reach start path).2.events =
        attachedAt (Path.join q) b.events := by
      rw [Build.reach, Build.tell, attachedAt_append, PathTree.attachedAt_insertAt, List.append_nil]
    rw [hevents, ← h.names_eq q hq]
    exact congrArg Attachments.methodNames (hreaches.valueAt_eq h.grown.wellFormed q)
  · exact fun i hi => Nat.lt_of_lt_of_le (h.lt_size i hi) hreaches.keeps.size_le

theorem mono {ids' : List NodeId} (h : b.Recorded ids) (hids : ids' ⊆ ids) : b.Recorded ids' :=
  ⟨h.grown, h.names_eq, fun id hid => h.lt_size id (hids hid)⟩

end Build.Recorded

/-! ## Steps -/

namespace Assembling

variable {α : Type} {b b' : Build} {ids : List NodeId} {id : NodeId}

theorem recorded_forM {f : α → Assembling PUnit} {xs : List α}
    (hf : ∀ x b b', Gives (f x) b () b' → b.Recorded ids → b'.Recorded ids)
    (h : Gives (xs.forM f) b () b') (hb : b.Recorded ids) : b'.Recorded ids := by
  induction xs generalizing b with
  | nil => exact gives_forM_nil.mp h ▸ hb
  | cons x xs ih =>
    obtain ⟨c, hc, hrest⟩ := gives_forM_cons.mp h
    exact ih hrest (hf x b c hc hb)

theorem recorded_attach {m : AttachedMethod} (h : Gives (attach id m) b () b')
    (hb : b.Recorded ids) (hid : id ∈ ids) : b'.Recorded ids := by
  obtain ⟨hfree, rfl⟩ := gives_attach.mp h
  exact hb.withMethod hid hfree

theorem recorded_requestPreflight {c : CorsOptions} (h : Gives (requestPreflight id c) b () b')
    (hb : b.Recorded ids) (hid : id ∈ ids) : b'.Recorded ids := by
  have hslot := hb.withPreflight hid
    (CorsOptions.attachedAt_register (b.attachments id).cors c)
  rcases (gives_requestPreflight_cases rfl).mp h with ⟨-, hrest⟩ | ⟨-, rfl⟩
  · exact recorded_attach hrest (hslot.of_eq rfl fun _ => rfl) hid
  · exact hslot

variable (d : Declaration)

theorem recorded_attachEndpoint {e : Endpoint} (h : Gives (attachEndpoint d id e) b () b')
    (hb : b.Recorded ids) (hid : id ∈ ids) : b'.Recorded ids := by
  have hartifacts : ∀ c : Build, c.Recorded ids → Gives (do
      addValidator (e.requestValidator d.validation)
      e.models.forM fun m => addModel m.1 m.2
      attach id (e.attached d.policy)) c () b' → b'.Recorded ids := by
    intro c hc hgives
    obtain ⟨hfree, -, -, -, rfl⟩ := gives_artifacts.mp hgives
    refine ((hc.withValidator _).withModels _).withMethod hid ?_
    rw [Endpoint.method_attached]
    simpa [Build.attachments] using hfree
  obtain ⟨-, hrest⟩ := gives_unless.mp (gives_get_bind.mp h)
  cases hcors : d.policy.cors with
  | none =>
    rw [hcors] at hrest
    exact hartifacts b hb hrest
  | some o =>
    rw [hcors] at hrest
    obtain ⟨c, hc, hlater⟩ := gives_seq.mp hrest
    exact hartifacts c (recorded_requestPreflight hc hb hid) hlater

theorem recorded_attachProxy {definition : ResourceDefinition}
    (h : Gives (attachProxy id definition) b () b') (hb : b.Recorded ids) (hid : id ∈ ids) :
    b'.Recorded ids := by
  obtain ⟨hself, hchild, rfl⟩ := gives_attachProxy.mp h
  have hreached := hb.reached (hb.lt_size id hid) proxySegment
  exact ((hreached.withMethod (List.mem_cons_of_mem _ hid) hself).withMethod List.mem_cons_self
    hchild).mono (List.subset_cons_self _ _)

theorem recorded_attachRoute {path : String} {r : RouteDefinition}
    (h : Gives (attachRoute d path r) b () b') (hb : b.Recorded []) : b'.Recorded [] := by
  obtain ⟨id, c, hreach, hrest⟩ := gives_bind.mp h
  obtain ⟨rfl, rfl⟩ := gives_reach.mp hreach
  have hreached := hb.reached hb.grown.wellFormed.size_pos path
  refine Build.Recorded.mono ?_ (List.nil_subset [(b.reach PathTree.root path).1])
  cases r with
  | proxy definition => exact recorded_attachProxy hrest hreached List.mem_cons_self
  | methods ds =>
    change Gives (attachMethods d _ path ds) _ _ _ at hrest
    rw [attachMethods_eq] at hrest
    obtain ⟨m, hm, hendpoints⟩ := gives_seq.mp hrest
    obtain rfl := gives_tell.mp hm
    refine recorded_forM
      (fun e _ _ he hc => recorded_attachEndpoint d he hc List.mem_cons_self) hendpoints ?_
    refine hreached.tell fun p => List.filterMap_eq_nil_iff.mpr fun e he => ?_
    obtain ⟨m, -, rfl⟩ := List.mem_map.mp he
    rfl

end Assembling

/-! ## Contracts -/

/-- The methods of each node of a contract are those that the assembly told of its path, in the
same order. -/
theorem Declaration.methodNames_of_assemble {d : Declaration} {c : Contract}
    (h : d.assemble = .ok c) {id : NodeId} (hid : id < c.resources.size) :
    (ResourceTree.attachments c.resources id).methodNames =
      attachedAt (c.resources.pathOf id) d.assembly.events := by
  obtain ⟨b, hgives, rfl⟩ := assemble_eq_ok_iff.mp h
  have hstart : d.start.Recorded [] := by
    refine ⟨d.resources_start ▸ .new, ?_, nofun⟩
    intro q _
    rw [d.resources_start, PathTree.valueAt_new]
    rfl
  have hroutes := hgives
  rw [attachRoutes_eq (cors_valid_of_gives hgives)] at hroutes
  have hb : b.Recorded [] := Assembling.recorded_forM
    (fun r _ _ hr hc => Assembling.recorded_attachRoute d hr hc) hroutes hstart
  have hevents : d.assembly.events = b.events ++ [assembledEvent (b.contract d)] := by
    have hrun : (Assembling.attachRoutes d).run d.start = .ok () b := hgives
    rw [start] at hrun
    simp [assembly, hrun]
  have hnode : ResourceTree.attachments (b.contract d).resources id =
      b.resources.valueAt (b.resources.segmentsOf id) :=
    Build.attachments_eq_valueAt hb.grown.wellFormed hid
  rw [hnode, hb.names_eq _ (hb.grown.spelled.segments_of_mem hid), hevents, attachedAt_append]
  exact (List.append_nil _).symm

end RestContract
