-- What an assembly measures. Every measurement is due to a part of the build: to an attached
-- method, to the preflight of a resource or to a model. Parts and measurements grow together, so
-- the counters of an assembly that succeeds agree with its contract, and an assembly that fails
-- counts its failure once and takes no duration.
import RestContract.Proofs.AttachedMethods
import RestContract.Proofs.BuildGrowth

namespace RestContract

open scoped List

/-! ## Payloads -/

namespace PathTree

variable {α : Type}

/-- A payload is changed in its place. -/
theorem exists_payloads_modifyPayload {t : PathTree α} {id : NodeId} (h : id < t.size)
    (f : α → α) : ∃ x before after, t.payload? id = some x ∧
      t.payloads = before ++ x :: after ∧
      (t.modifyPayload id f).payloads = before ++ f x :: after := by
  obtain ⟨before, n, after, hnodes, hlength, hmodify⟩ :=
    List.exists_of_modify (fun n : PathNode α => { n with payload := f n.payload })
      (show id < t.nodes.toList.length from h)
  refine ⟨n.payload, before.map (·.payload), after.map (·.payload), ?_, ?_, ?_⟩
  · rw [payload?, get?, ← Array.getElem?_toList, hnodes,
      List.getElem?_append_right (Nat.le_of_eq hlength), hlength, Nat.sub_self]
    rfl
  · rw [payloads, hnodes, List.map_append, List.map_cons]
  · rw [payloads, modifyPayload, Array.toList_modify, hmodify, List.map_append, List.map_cons]

theorem payloads_addChild (t : PathTree α) (p : NodeId) (s : String) (x : α) :
    (t.addChild p s x).payloads = t.payloads ++ [x] := by
  have hlinked : ∀ (l : List (PathNode α)) (i : Nat) (g : PathNode α → PathNode α),
      (∀ n, (g n).payload = n.payload) → (l.modify i g).map (·.payload) = l.map (·.payload) := by
    intro l i g hg
    refine List.ext_getElem? fun j => ?_
    rw [List.getElem?_map, List.getElem?_map, List.getElem?_modify]
    cases l[j]? with
    | none => rfl
    | some n =>
      by_cases hi : i = j
      · simp [hi, hg]
      · simp [hi]
  simp only [payloads, addChild, Array.toList_push, Array.toList_modify, List.map_append,
    List.map_singleton]
  exact congrArg (· ++ [x]) (hlinked _ p _ fun _ => rfl)

/-- An insertion only adds empty payloads. -/
theorem exists_payloads_insertAt [Inhabited α] (t : PathTree α) (start : NodeId) (path : String) :
    ∃ n, (t.insertAt start path).tree.payloads = t.payloads ++ List.replicate n default := by
  have hfold : ∀ (q : List String) (a : Arrival α),
      ∃ n, (q.foldl Arrival.descend a).tree.payloads = a.tree.payloads ++ .replicate n default := by
    intro q
    induction q with
    | nil => exact fun a => ⟨0, (List.append_nil _).symm⟩
    | cons s q ih =>
      intro a
      obtain ⟨n, hn⟩ := ih (a.descend s)
      rw [List.foldl_cons, hn]
      unfold Arrival.descend
      split
      · exact ⟨n, rfl⟩
      · rw [payloads_addChild, List.append_assoc]
        exact ⟨n + 1, rfl⟩
  exact hfold _ _

end PathTree

/-! ## What is due -/

/-- The measurement that an attached method is due. -/
def AttachedMethod.measurement (m : AttachedMethod) : Measurement :=
  .methodAttached m.method.name m.integration.typeName

/-- The measurements that the attachments of a node are due. A preflight counts as a preflight and
as a method. -/
def Attachments.due (a : Attachments) : List Measurement :=
  (Entries.values a.methods).map AttachedMethod.measurement ++
    a.cors.toList.map fun _ => .preflightRegistered

/-- The measurements that the attachments of a tree are due. -/
def ResourceTree.due (t : ResourceTree) : List Measurement := t.payloads.flatMap Attachments.due

/-- The measurements that the parts of a build are due. -/
def Build.due (b : Build) : List Measurement :=
  ResourceTree.due b.resources ++ b.models.map fun _ => .modelGenerated

theorem Attachments.due_attach {a : Attachments} {m : AttachedMethod}
    (h : a.has m.method = false) : (a.attach m).due.Perm (m.measurement :: a.due) := by
  have hmethods : (a.attach m).methods = a.methods ++ [(m.method, m)] := Entries.put_of_not_has h m
  have hcors : (a.attach m).cors = a.cors := rfl
  rw [due, due, hmethods, hcors]
  simp only [Entries.values, List.map_append, List.map_singleton, List.append_assoc,
    List.singleton_append]
  exact List.perm_middle

/-- A tree is due what it was due before a change, and what the change adds. -/
theorem ResourceTree.due_modifyPayload {t : ResourceTree} {id : NodeId} (h : id < t.size)
    {f : Attachments → Attachments} {more : List Measurement}
    (hf : (f (t.attachments id)).due.Perm (more ++ (t.attachments id).due)) :
    (due (t.modifyPayload id f)).Perm (more ++ due t) := by
  obtain ⟨x, before, after, hx, hbefore, hafter⟩ := PathTree.exists_payloads_modifyPayload h f
  have hattachments : t.attachments id = x := by simp [attachments, hx]
  rw [hattachments] at hf
  rw [due, due, hafter, hbefore, List.flatMap_append, List.flatMap_append, List.flatMap_cons,
    List.flatMap_cons]
  calc before.flatMap Attachments.due ++ ((f x).due ++ after.flatMap Attachments.due)
      ~ before.flatMap Attachments.due ++ (more ++ (x.due ++ after.flatMap Attachments.due)) := by
        rw [← List.append_assoc more]
        exact (hf.append_right _).append_left _
    _ ~ more ++ (before.flatMap Attachments.due ++ (x.due ++ after.flatMap Attachments.due)) :=
        List.perm_append_comm_assoc ..

theorem ResourceTree.due_insertAt (t : ResourceTree) (start : NodeId) (path : String) :
    due (t.insertAt start path).tree = due t := by
  obtain ⟨n, hn⟩ := t.exists_payloads_insertAt start path
  have hnone : (List.replicate n (default : Attachments)).flatMap Attachments.due = [] :=
    List.flatMap_eq_nil_iff.mpr fun a ha => by rw [List.eq_of_mem_replicate ha]; rfl
  rw [due, hn, List.flatMap_append, hnone, List.append_nil]
  rfl

/-! ## The invariant -/

/-- What was measured is what the parts of the build are due, and the nodes in question are
there. -/
structure Build.Tallied (b : Build) (ids : List NodeId) : Prop where
  wellFormed : b.resources.WellFormed
  measured : b.measurements.Perm b.due
  lt_size : ∀ id ∈ ids, id < b.resources.size

/-- Nothing was measured yet that belongs to the end of an assembly. -/
def Build.IsUnderWay (b : Build) : Prop :=
  Measurement.buildTimed ∉ b.measurements ∧ ∀ kind, .buildFailed kind ∉ b.measurements

namespace Build.Tallied

variable {b : Build} {ids : List NodeId} {id : NodeId}

theorem isUnderWay (h : b.Tallied ids) : b.IsUnderWay := by
  have hdue : ∀ m ∈ b.due, m ≠ .buildTimed ∧ ∀ kind, m ≠ .buildFailed kind := by
    intro m hm
    simp only [due, ResourceTree.due, Attachments.due, List.mem_append, List.mem_flatMap,
      List.mem_map] at hm
    rcases hm with ⟨a, -, ⟨am, -, rfl⟩ | ⟨c, -, rfl⟩⟩ | ⟨e, -, rfl⟩
    · exact ⟨nofun, nofun⟩
    · exact ⟨nofun, nofun⟩
    · exact ⟨nofun, nofun⟩
  exact ⟨fun hm => (hdue _ (h.measured.subset hm)).1 rfl,
    fun kind hm => (hdue _ (h.measured.subset hm)).2 kind rfl⟩

theorem tell (h : b.Tallied ids) (es : List Event) : (b.tell es).Tallied ids :=
  ⟨h.wellFormed, h.measured, h.lt_size⟩

theorem withValidator (h : b.Tallied ids) (v : RequestValidator) :
    (b.withValidator v).Tallied ids :=
  ⟨h.wellFormed, h.measured, h.lt_size⟩

theorem withModel (h : b.Tallied ids) {m : Model} (hfree : b.hasArtifact m.name = false) :
    (b.withModel m).Tallied ids := by
  refine ⟨h.wellFormed, ?_, h.lt_size⟩
  have hmodels : (b.withModel m).models = b.models ++ [(m.name, m)] :=
    Entries.put_of_not_has (Bool.or_eq_false_iff.mp hfree).1 m
  rw [due, hmodels, List.map_append, ← List.append_assoc]
  exact h.measured.append_right _

/-- A change of the attachments of one node, measured by what it adds. -/
theorem changed (h : b.Tallied ids) (hid : id ∈ ids) {b' : Build}
    {f : Attachments → Attachments} {more : List Measurement}
    (hf : (f (b.attachments id)).due.Perm (more ++ (b.attachments id).due))
    (hresources : b'.resources = b.resources.modifyPayload id f) (hmodels : b'.models = b.models)
    (hmeasurements : b'.measurements = b.measurements ++ more) : b'.Tallied ids := by
  refine ⟨?_, ?_, ?_⟩
  · rw [hresources]
    exact h.wellFormed.modifyPayload id f
  · have htree := ResourceTree.due_modifyPayload (h.lt_size id hid) hf
    rw [hmeasurements, due, hresources, hmodels]
    calc b.measurements ++ more
        ~ more ++ b.measurements := List.perm_append_comm
      _ ~ more ++ b.due := h.measured.append_left more
      _ ~ ResourceTree.due (b.resources.modifyPayload id f) ++
          b.models.map fun _ => .modelGenerated := by
        rw [due, ← List.append_assoc]
        exact htree.symm.append_right _
  · rw [hresources, PathTree.size_modifyPayload]
    exact h.lt_size

theorem withMethod (h : b.Tallied ids) (hid : id ∈ ids) {m : AttachedMethod}
    (hfree : (b.attachments id).has m.method = false) : (b.withMethod id m).Tallied ids :=
  h.changed hid (Attachments.due_attach hfree) (b.resources_withMethod id m) rfl rfl

/-- A slot that is filled for the first time is measured, and a slot that is full is not. -/
theorem withPreflight (h : b.Tallied ids) (hid : id ∈ ids) {c : CorsOptions}
    {r : CorsOptions.Registration} (hr : r = CorsOptions.register (b.attachments id).cors c) :
    (r.isNew = true → ((b.withPreflight id r).measure .preflightRegistered).Tallied ids) ∧
      (r.isNew = false → (b.withPreflight id r).Tallied ids) := by
  subst hr
  cases hc : (b.attachments id).cors with
  | none =>
    refine ⟨fun _ => h.changed hid ?_ (b.resources_withPreflight id _) rfl rfl, nofun⟩
    rw [Attachments.due, Attachments.due, hc, Option.toList_none, List.map_nil, List.append_nil]
    exact List.perm_append_comm
  | some first =>
    refine ⟨nofun, fun _ =>
      h.changed hid ?_ (b.resources_withPreflight id _) rfl (List.append_nil _).symm⟩
    rw [Attachments.due, Attachments.due, hc]
    exact .refl _

theorem reached (h : b.Tallied ids) (hid : id ∈ ids) (path : String) :
    (b.reach id path).2.Tallied ((b.reach id path).1 :: ids) := by
  have hreaches := reaches_reach h.wellFormed (h.lt_size id hid) path
  refine ⟨hreaches.wellFormed, ?_, List.forall_mem_cons.mpr ⟨hreaches.node_lt, ?_⟩⟩
  · have hdue : (b.reach id path).2.due = b.due :=
      congrArg (· ++ _) (ResourceTree.due_insertAt b.resources id path)
    rw [hdue]
    exact h.measured
  · exact fun i hi => Nat.lt_of_lt_of_le (h.lt_size i hi) hreaches.keeps.size_le

theorem mono {ids' : List NodeId} (h : b.Tallied ids) (hids : ids' ⊆ ids) : b.Tallied ids' :=
  ⟨h.wellFormed, h.measured, fun id hid => h.lt_size id (hids hid)⟩

end Build.Tallied

/-! ## Steps -/

namespace Assembling

variable {α β : Type}

/-- From a build with the first property, the step leaves a build with the second one if it ends
well, and one that is still under way if it fails. -/
structure Leaves (P : Build → Prop) (x : Assembling α) (Q : α → Build → Prop) : Prop where
  gives : ∀ b a b', P b → Gives x b a b' → Q a b'
  fails : ∀ b e b', P b → x.run b = .error e b' → b'.IsUnderWay

theorem error_bind {x : Assembling α} {f : α → Assembling β} {b b' : Build} {e : AssemblyError} :
    (x >>= f).run b = .error e b' ↔
      x.run b = .error e b' ∨ ∃ a c, Gives x b a c ∧ (f a).run c = .error e b' := by
  simp only [Gives, EStateM.run, bind, EStateM.bind]
  cases x b <;> simp

section Leaves

variable {P : Build → Prop} {Q : α → Build → Prop} {R : β → Build → Prop}

theorem Leaves.bind {x : Assembling α} {f : α → Assembling β} (hx : Leaves P x Q)
    (hf : ∀ a, Leaves (Q a) (f a) R) : Leaves P (x >>= f) R where
  gives b r b' hb h := by
    obtain ⟨a, c, hc, hrest⟩ := gives_bind.mp h
    exact (hf a).gives c r b' (hx.gives b a c hb hc) hrest
  fails b e b' hb h := by
    rcases error_bind.mp h with hfirst | ⟨a, c, hc, hrest⟩
    · exact hx.fails b e b' hb hfirst
    · exact (hf a).fails c e b' (hx.gives b a c hb hc) hrest

theorem Leaves.forM {f : α → Assembling PUnit} (hf : ∀ a, Leaves P (f a) fun _ => P)
    (xs : List α) : Leaves P (xs.forM f) fun _ => P := by
  induction xs with
  | nil => exact ⟨fun b _ b' hb h => gives_forM_nil.mp h ▸ hb, fun _ _ _ _ h => nomatch h⟩
  | cons x xs ih => exact (hf x).bind fun _ => ih

/-- A step that depends on the build it starts from. -/
theorem Leaves.get_bind {x : Build → Assembling α} (hx : ∀ b, P b → Leaves (· = b) (x b) Q) :
    Leaves P (get >>= x) Q where
  gives b a b' hb h := (hx b hb).gives b a b' rfl h
  fails b e b' hb h := (hx b hb).fails b e b' rfl h

theorem Leaves.weaken {P' : Build → Prop} {x : Assembling α} (hx : Leaves P x Q)
    (hP : ∀ b, P' b → P b) : Leaves P' x Q where
  gives b a b' hb := hx.gives b a b' (hP b hb)
  fails b e b' hb := hx.fails b e b' (hP b hb)

theorem Leaves.strengthen {Q' : α → Build → Prop} {x : Assembling α} (hx : Leaves P x Q)
    (hQ : ∀ a b, Q a b → Q' a b) : Leaves P x Q' where
  gives b a b' hb h := hQ a b' (hx.gives b a b' hb h)
  fails := hx.fails

theorem leaves_set {b c : Build} {S : Build → Prop} (hc : S c) :
    Leaves (· = b) (set c) fun _ => S where
  gives _ _ _ _ h := gives_set.mp h ▸ hc
  fails _ _ _ _ h := nomatch h

theorem leaves_throw {e : AssemblyError} (hP : ∀ b, P b → b.IsUnderWay) :
    Leaves P (throw e : Assembling α) Q where
  gives _ _ _ _ h := absurd h gives_throw
  fails b _ _ hb h := by
    cases h
    exact hP b hb

/-- A step behind a check that ends the assembly. -/
theorem leaves_unless {γ : Type} {p : Bool} {e : AssemblyError} {k : γ → Assembling α}
    {x : Assembling α} {b : Build} (hb : b.IsUnderWay)
    (hx : p = false → Leaves (· = b) x Q) :
    Leaves (· = b) (if p = true then throw e >>= k else x) Q := by
  cases p with
  | true =>
    have hthrow : Leaves (· = b) (throw e : Assembling γ) fun _ _ => False :=
      leaves_throw fun _ h => h ▸ hb
    exact hthrow.bind fun _ => ⟨nofun, nofun⟩
  | false => exact hx rfl

end Leaves

/-! ### Parts -/

section Parts

variable {ids : List NodeId} {id : NodeId}

theorem leaves_tell (es : List Event) :
    Leaves (·.Tallied ids) (tell es) fun _ => (·.Tallied ids) where
  gives _ _ _ hb h := gives_tell.mp h ▸ hb.tell es
  fails _ _ _ _ h := nomatch h

theorem leaves_reach (hid : id ∈ ids) (path : String) :
    Leaves (·.Tallied ids) (reach id path) fun i => (·.Tallied (i :: ids)) where
  gives b i b' hb h := by
    obtain ⟨rfl, rfl⟩ := gives_reach.mp h
    exact hb.reached hid path
  fails _ _ _ _ h := nomatch h

theorem leaves_attach (hid : id ∈ ids) (m : AttachedMethod) :
    Leaves (·.Tallied ids) (attach id m) fun _ => (·.Tallied ids) :=
  Leaves.get_bind fun _ hb => leaves_unless hb.isUnderWay fun hfree =>
    leaves_set (hb.withMethod hid hfree)

theorem leaves_addValidator (v : RequestValidator) :
    Leaves (·.Tallied ids) (addValidator v) fun _ => (·.Tallied ids) :=
  Leaves.get_bind fun _ hb => leaves_unless hb.isUnderWay fun _ => leaves_set (hb.withValidator v)

theorem leaves_addModel (name : String) (s : TypeSchema) :
    Leaves (·.Tallied ids) (addModel name s) fun _ => (·.Tallied ids) := by
  refine Leaves.get_bind fun b hb => leaves_unless hb.isUnderWay fun hfree => ?_
  cases s.convertModel with
  | ok document => exact leaves_set (hb.withModel hfree)
  | error e => exact leaves_throw fun _ h => h ▸ hb.isUnderWay

theorem leaves_requestPreflight (hid : id ∈ ids) (c : CorsOptions) :
    Leaves (·.Tallied ids) (requestPreflight id c) fun _ => (·.Tallied ids) := by
  refine Leaves.get_bind fun b hb => ?_
  obtain ⟨hnew, hold⟩ := hb.withPreflight hid (c := c) rfl
  dsimp only
  split
  · rename_i h
    exact (leaves_set (hnew h)).bind fun _ => leaves_attach hid c.preflight
  · rename_i h
    exact leaves_set (hold (Bool.not_eq_true _ ▸ h))

end Parts

/-! ### Routes -/

section Routes

variable (d : Declaration) {ids : List NodeId} {id : NodeId}

theorem leaves_attachEndpoint (hid : id ∈ ids) (e : Endpoint) :
    Leaves (·.Tallied ids) (attachEndpoint d id e) fun _ => (·.Tallied ids) := by
  have hartifacts : Leaves (·.Tallied ids) (do
      addValidator (e.requestValidator d.validation)
      e.models.forM fun m => addModel m.1 m.2
      attach id (e.attached d.policy)) fun _ => (·.Tallied ids) :=
    (leaves_addValidator _).bind fun _ =>
      (Leaves.forM (fun m => leaves_addModel m.1 m.2) e.models).bind fun _ => leaves_attach hid _
  refine Leaves.get_bind fun b hb => leaves_unless hb.isUnderWay fun _ => ?_
  refine Leaves.weaken (P := (·.Tallied ids)) ?_ fun _ h => h ▸ hb
  cases d.policy.cors with
  | none => exact hartifacts
  | some c => exact (leaves_requestPreflight hid c).bind fun _ => hartifacts

theorem leaves_attachMethods (hid : id ∈ ids) (path : String)
    (ds : Entries Method ResourceDefinition) :
    Leaves (·.Tallied ids) (attachMethods d id path ds) fun _ => (·.Tallied ids) := by
  rw [attachMethods_eq]
  exact (leaves_tell _).bind fun _ => Leaves.forM (leaves_attachEndpoint d hid) _

theorem leaves_attachProxy (hid : id ∈ ids) (definition : ResourceDefinition) :
    Leaves (·.Tallied ids) (attachProxy id definition) fun _ => (·.Tallied ids) := by
  refine (leaves_reach hid proxySegment).bind fun child => ?_
  refine (leaves_attach (List.mem_cons_of_mem child hid) _).bind fun _ => ?_
  exact (leaves_attach List.mem_cons_self _).strengthen fun _ _ h =>
    h.mono (List.subset_cons_self _ _)

theorem leaves_attachRoute (path : String) (r : RouteDefinition) :
    Leaves (·.Tallied [PathTree.root]) (attachRoute d path r)
      fun _ => (·.Tallied [PathTree.root]) := by
  refine (leaves_reach List.mem_cons_self path).bind fun id => ?_
  refine Leaves.strengthen (Q := fun _ => (·.Tallied [id, PathTree.root])) ?_
    fun _ _ h => h.mono (List.subset_cons_self _ _)
  cases r with
  | proxy definition => exact leaves_attachProxy List.mem_cons_self definition
  | methods ds => exact leaves_attachMethods d List.mem_cons_self path ds

theorem leaves_attachRoutes :
    Leaves (·.Tallied [PathTree.root]) (attachRoutes d) fun _ => (·.Tallied [PathTree.root]) := by
  have hroutes := Leaves.forM
    (fun r : String × RouteDefinition => leaves_attachRoute d r.1 r.2) d.routes
  unfold attachRoutes
  cases d.policy.cors with
  | none => exact hroutes
  | some c =>
    dsimp only
    cases c.validate with
    | ok _ => exact hroutes
    | error e =>
      have hthrow : Leaves (·.Tallied [PathTree.root]) (throw (.cors e) : Assembling PUnit)
          fun _ _ => False := leaves_throw fun _ => Build.Tallied.isUnderWay
      exact hthrow.bind fun _ => ⟨nofun, nofun⟩

end Routes

end Assembling

/-! ## Counting what is due -/

/-- What a build is due falls on its methods, on its preflights and on its models. -/
theorem Build.countP_due (b : Build) (p : Measurement → Bool) : b.due.countP p =
    (ResourceTree.methods b.resources).countP (fun am => p am.measurement) +
      b.resources.payloads.countP (fun a => a.cors.isSome && p .preflightRegistered) +
      b.models.countP fun _ => p .modelGenerated := by
  have hnode : ∀ a : Attachments, a.due.countP p =
      (Entries.values a.methods).countP (fun am => p am.measurement) +
        [a].countP fun a => a.cors.isSome && p .preflightRegistered := by
    intro a
    rw [Attachments.due, List.countP_append, List.countP_map]
    cases hcors : a.cors with
    | none => simp [hcors, Function.comp_def]
    | some c => simp [hcors, Function.comp_def, List.countP_singleton]
  have htree : ∀ l : List Attachments, (l.flatMap Attachments.due).countP p =
      (l.flatMap fun a => Entries.values a.methods).countP (fun am => p am.measurement) +
        l.countP fun a => a.cors.isSome && p .preflightRegistered := by
    intro l
    induction l with
    | nil => rfl
    | cons a l ih =>
      rw [List.flatMap_cons, List.flatMap_cons, List.countP_append, List.countP_append, hnode, ih,
        List.countP_singleton, List.countP_cons]
      omega
  rw [due, ResourceTree.due, List.countP_append, htree, List.countP_map]
  rfl

/-! ## The counters of an assembly -/

namespace Measurement

/-- The number of measurements that fall on a metric. -/
def total (ms : List Measurement) (metric : String) : Nat := ms.countP (·.metric == metric)

/-- The number of measurements that fall on a metric under some labels. -/
def totalUnder (ms : List Measurement) (metric : String) (labels : List (String × String)) : Nat :=
  ms.countP fun m => m.metric == metric && m.labels == labels

end Measurement

/-- The counters say what the contract holds: every attached method under the names of its method
and its integration, every model, and every resource that answers preflights. One duration was
taken, and nothing failed. -/
structure Contract.CountedBy (c : Contract) (ms : List Measurement) : Prop where
  methods_under : ∀ (method : Method) (integration : String),
    Measurement.totalUnder ms "portico_methods_attached_total"
      [("integration", integration), ("method", method.name)] =
        (ResourceTree.methods c.resources).countP fun am =>
          am.method == method && am.integration.typeName == integration
  methods_total : Measurement.total ms "portico_methods_attached_total" = c.methodCount
  models_total : Measurement.total ms "portico_models_total" = c.models.length
  preflights_total : Measurement.total ms "portico_preflights_total" =
    c.resources.payloads.countP (·.cors.isSome)
  timed_once : Measurement.total ms "portico_assembly_duration_seconds" = 1
  not_failed : Measurement.total ms "portico_assembly_failures_total" = 0

/-- The counters say of a failure that it was of its kind, and that nothing else failed and no
duration was taken. -/
structure AssemblyError.CountedBy (e : AssemblyError) (ms : List Measurement) : Prop where
  failed_once : Measurement.total ms "portico_assembly_failures_total" = 1
  failed_under : Measurement.totalUnder ms "portico_assembly_failures_total" [("kind", e.kind)] = 1
  not_timed : Measurement.total ms "portico_assembly_duration_seconds" = 0

theorem Method.name_injective : Function.Injective Method.name := by
  intro m m' h
  cases m <;> cases m' <;> first | rfl | exact absurd h (by decide)

namespace Build

variable {b : Build}

/-- While a build is under way, neither durations nor failures were counted. -/
theorem IsUnderWay.countP_eq_zero (h : b.IsUnderWay) {p : Measurement → Bool}
    (hp : ∀ m, p m = true → m = .buildTimed ∨ ∃ kind, m = .buildFailed kind) :
    b.measurements.countP p = 0 := by
  refine List.countP_eq_zero.mpr fun m hm hpm => ?_
  rcases hp m hpm with rfl | ⟨kind, rfl⟩
  · exact h.1 hm
  · exact h.2 kind hm

theorem countedBy_of_tallied {ids : List NodeId} (h : b.Tallied ids) (d : Declaration) :
    (b.contract d).CountedBy (b.measurements ++ [.buildTimed]) := by
  have hcount : ∀ p : Measurement → Bool, (b.measurements ++ [Measurement.buildTimed]).countP p =
      (ResourceTree.methods b.resources).countP (fun am => p am.measurement) +
        b.resources.payloads.countP (fun a => a.cors.isSome && p .preflightRegistered) +
        b.models.countP (fun _ => p .modelGenerated) + [Measurement.buildTimed].countP p := by
    intro p
    rw [List.countP_append, h.measured.countP_eq, countP_due]
  constructor
  · intro method integration
    have hlabels : ∀ am : AttachedMethod, (am.measurement.labels ==
        [("integration", integration), ("method", method.name)]) =
          (am.method == method && am.integration.typeName == integration) := by
      intro am
      rw [Bool.eq_iff_iff]
      simp [AttachedMethod.measurement, Measurement.labels, Method.name_injective.eq_iff, and_comm]
    rw [Measurement.totalUnder, hcount]
    simp only [hlabels]
    simp [AttachedMethod.measurement, Measurement.metric, contract]
  · have hlength : (ResourceTree.methods b.resources).length = (b.contract d).methodCount :=
      ResourceTree.length_methods b.resources
    rw [Measurement.total, hcount]
    simpa [AttachedMethod.measurement, Measurement.metric] using hlength
  · rw [Measurement.total, hcount]
    simp [AttachedMethod.measurement, Measurement.metric, contract]
  · rw [Measurement.total, hcount]
    simp [AttachedMethod.measurement, Measurement.metric, contract]
  · rw [Measurement.total, hcount]
    simp [AttachedMethod.measurement, Measurement.metric]
  · rw [Measurement.total, hcount]
    simp [AttachedMethod.measurement, Measurement.metric]

theorem countedBy_of_isUnderWay (h : b.IsUnderWay) (e : AssemblyError) :
    e.CountedBy (b.measurements ++ [.buildFailed e.kind]) := by
  have hfailures : ∀ m : Measurement, m.metric = "portico_assembly_failures_total" →
      ∃ kind, m = .buildFailed kind := by
    intro m hm
    cases m with
    | buildFailed kind => exact ⟨kind, rfl⟩
    | _ => simp [Measurement.metric] at hm
  have hdurations : ∀ m : Measurement, m.metric = "portico_assembly_duration_seconds" →
      m = .buildTimed := by
    intro m hm
    cases m with
    | buildTimed => rfl
    | _ => simp [Measurement.metric] at hm
  constructor
  · have hnone := h.countP_eq_zero (p := (·.metric == "portico_assembly_failures_total"))
      fun m hm => Or.inr (hfailures m (eq_of_beq hm))
    rw [Measurement.total, List.countP_append, hnone]
    rfl
  · have hnone := h.countP_eq_zero
      (p := fun m =>
        m.metric == "portico_assembly_failures_total" && m.labels == [("kind", e.kind)])
      fun m hm => Or.inr (hfailures m (eq_of_beq (Bool.and_eq_true_iff.mp hm).1))
    rw [Measurement.totalUnder, List.countP_append, hnone]
    simp [Measurement.metric, Measurement.labels]
  · have hnone := h.countP_eq_zero (p := (·.metric == "portico_assembly_duration_seconds"))
      fun m hm => Or.inl (hdurations m (eq_of_beq hm))
    rw [Measurement.total, List.countP_append, hnone]
    rfl

end Build

namespace Declaration

variable (d : Declaration)

theorem start_tallied : d.start.Tallied [PathTree.root] where
  wellFormed := PathTree.wellFormed_new _
  measured := .refl _
  lt_size := by simp [resources_start, PathTree.size, PathTree.new, PathTree.root]

variable {d}

theorem assembly_of_ok {b : Build} (h : (Assembling.attachRoutes d).run d.start = .ok () b) :
    d.assemble = .ok (b.contract d) ∧
      d.assembly.measurements = b.measurements ++ [.buildTimed] := by
  rw [start] at h
  simp [assemble, assembly, h]

theorem assembly_of_error {b : Build} {e : AssemblyError}
    (h : (Assembling.attachRoutes d).run d.start = .error e b) :
    d.assemble = .error e ∧ d.assembly.measurements = b.measurements ++ [.buildFailed e.kind] := by
  rw [start] at h
  simp [assemble, assembly, h]

/-- What is counted during an assembly agrees with what comes of it. -/
theorem the_counters_of_an_assembly_agree_with_its_result (d : Declaration) :
    match d.assemble with
    | .ok c => c.CountedBy d.assembly.measurements
    | .error e => e.CountedBy d.assembly.measurements := by
  have hleaves := Assembling.leaves_attachRoutes d
  cases h : (Assembling.attachRoutes d).run d.start with
  | ok u b =>
    obtain ⟨hresult, hmeasurements⟩ := assembly_of_ok h
    rw [hresult, hmeasurements]
    exact Build.countedBy_of_tallied (hleaves.gives _ _ b d.start_tallied h) d
  | error e b =>
    obtain ⟨hresult, hmeasurements⟩ := assembly_of_error h
    rw [hresult, hmeasurements]
    exact Build.countedBy_of_isUnderWay (hleaves.fails _ e b d.start_tallied h) e

end Declaration

end RestContract
