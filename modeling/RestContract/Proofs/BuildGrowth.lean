-- Builds only grow. A step adds nodes, methods, models and validators behind those that are
-- there, and fills slots that are empty. What it adds does not depend on what was told and
-- counted before.
import RestContract.Proofs.EndpointSteps

namespace RestContract

/-! ## What it is to grow -/

/-- The same attachments with more methods behind them. A slot that is set stays as it is. -/
structure Attachments.Extends (a a' : Attachments) : Prop where
  methods_grow : a.methods <+: a'.methods
  cors_kept : ∀ c, a.cors = some c → a'.cors = some c

/-- The second build has all parts of the first at the same places. -/
structure Build.Extends (b b' : Build) : Prop where
  resources_grow : b.resources.Extends Attachments.Extends b'.resources
  models_grow : b.models <+: b'.models
  validators_grow : b.validators <+: b'.validators

/-- The builds have the same parts. What was told and counted may differ. -/
structure Build.Agrees (b b' : Build) : Prop where
  resources_eq : b.resources = b'.resources
  models_eq : b.models = b'.models
  validators_eq : b.validators = b'.validators

theorem Attachments.Extends.refl (a : Attachments) : a.Extends a :=
  ⟨List.prefix_refl _, fun _ hc => hc⟩

theorem Attachments.Extends.trans {a b c : Attachments} (hab : a.Extends b) (hbc : b.Extends c) :
    a.Extends c :=
  ⟨hab.methods_grow.trans hbc.methods_grow,
    fun x hx => hbc.cors_kept x (hab.cors_kept x hx)⟩

/-! ## The changes to a build -/

namespace Build

variable {b b' c : Build} {id : NodeId}

theorem Agrees.extends (h : b.Agrees c) : b.Extends c := by
  refine ⟨?_, ?_, ?_⟩
  · rw [h.resources_eq]
    exact PathTree.Extends.refl Attachments.Extends.refl _
  · exact h.models_eq ▸ List.prefix_refl _
  · exact h.validators_eq ▸ List.prefix_refl _

theorem Extends.refl (b : Build) : b.Extends b := Agrees.extends ⟨rfl, rfl, rfl⟩

theorem Extends.trans (h : b.Extends b') (h' : b'.Extends c) : b.Extends c :=
  ⟨h.resources_grow.trans (fun _ _ _ h1 h2 => h1.trans h2) h'.resources_grow,
    h.models_grow.trans h'.models_grow, h.validators_grow.trans h'.validators_grow⟩

theorem Agrees.attachments_eq (h : b.Agrees c) (id : NodeId) :
    b.attachments id = c.attachments id := by
  unfold attachments
  rw [h.resources_eq]

theorem Agrees.hasArtifact_eq (h : b.Agrees c) (name : String) :
    b.hasArtifact name = c.hasArtifact name := by
  unfold hasArtifact
  rw [h.models_eq, h.validators_eq]

theorem Agrees.measure (h : b.Agrees c) (m : Measurement) : (b.measure m).Agrees (c.measure m) :=
  ⟨h.resources_eq, h.models_eq, h.validators_eq⟩

theorem Agrees.withPreflight (h : b.Agrees c) (id : NodeId) (r : CorsOptions.Registration) :
    (b.withPreflight id r).Agrees (c.withPreflight id r) := by
  refine ⟨?_, h.models_eq, h.validators_eq⟩
  rw [resources_withPreflight, resources_withPreflight, h.resources_eq]

theorem attachments_of_payload? {x : Attachments} (h : b.resources.payload? id = some x) :
    b.attachments id = x := by
  simp [attachments, ResourceTree.attachments, h]

theorem extends_withMethod {m : AttachedMethod} (h : (b.attachments id).has m.method = false) :
    b.Extends (b.withMethod id m) := by
  refine ⟨?_, List.prefix_refl _, List.prefix_refl _⟩
  refine PathTree.extends_modifyPayload Attachments.Extends.refl ?_
  intro x hx
  rw [attachments_of_payload? hx] at h
  refine ⟨?_, fun _ hc => hc⟩
  show x.methods <+: Entries.put x.methods m.method m
  rw [Entries.put_of_not_has h]
  exact List.prefix_append _ _

theorem extends_withValidator {v : RequestValidator} (h : b.hasArtifact v.name = false) :
    b.Extends (b.withValidator v) := by
  refine ⟨PathTree.Extends.refl Attachments.Extends.refl _, List.prefix_refl _, ?_⟩
  rw [validators_withValidator, Entries.put_of_not_has (Bool.or_eq_false_iff.mp h).2]
  exact List.prefix_append _ _

theorem extends_withModel {m : Model} (h : b.hasArtifact m.name = false) :
    b.Extends (b.withModel m) := by
  refine ⟨PathTree.Extends.refl Attachments.Extends.refl _, ?_, List.prefix_refl _⟩
  rw [models_withModel, Entries.put_of_not_has (Bool.or_eq_false_iff.mp h).1]
  exact List.prefix_append _ _

/-- The first options that a slot is asked to hold stay in it. -/
theorem extends_withPreflight (b : Build) (id : NodeId) (c : CorsOptions) :
    b.Extends (b.withPreflight id (CorsOptions.register (b.attachments id).cors c)) := by
  refine ⟨?_, List.prefix_refl _, List.prefix_refl _⟩
  refine PathTree.extends_modifyPayload Attachments.Extends.refl ?_
  intro x hx
  rw [attachments_of_payload? hx]
  refine ⟨List.prefix_refl _, ?_⟩
  intro first hfirst
  simp [CorsOptions.register, hfirst]

theorem extends_reach (b : Build) (start : NodeId) (path : String) :
    b.Extends (b.reach start path).2 := by
  refine ⟨?_, List.prefix_refl _, List.prefix_refl _⟩
  apply (b.resources.extends_insertAt start path).mono
  rintro x _ rfl
  exact Attachments.Extends.refl x

end Build

/-! ## Steps -/

namespace Assembling

variable {α β : Type}

/-- The step only adds to a build, and adds the same to builds with the same parts. -/
structure Grows (x : Assembling α) : Prop where
  extends_of_gives : ∀ b a b', Gives x b a b' → b.Extends b'
  gives_of_agrees : ∀ b c a b', b.Agrees c → Gives x b a b' → ∃ c', Gives x c a c' ∧ b'.Agrees c'

theorem grows_pure (a : α) : Grows (pure a) where
  extends_of_gives b _ _ h := (gives_pure.mp h).2 ▸ Build.Extends.refl b
  gives_of_agrees b c _ _ hbc h := by
    obtain ⟨rfl, rfl⟩ := gives_pure.mp h
    exact ⟨c, gives_pure.mpr ⟨rfl, rfl⟩, hbc⟩

theorem Grows.bind {x : Assembling α} {f : α → Assembling β} (hx : Grows x)
    (hf : ∀ a, Grows (f a)) : Grows (x >>= f) where
  extends_of_gives b r b' h := by
    obtain ⟨a, m, hm, hrest⟩ := gives_bind.mp h
    exact (hx.extends_of_gives b a m hm).trans ((hf a).extends_of_gives m r b' hrest)
  gives_of_agrees b c r b' hbc h := by
    obtain ⟨a, m, hm, hrest⟩ := gives_bind.mp h
    obtain ⟨m', hm', hmm⟩ := hx.gives_of_agrees b c a m hbc hm
    obtain ⟨c', hc', hagrees⟩ := (hf a).gives_of_agrees m m' r b' hmm hrest
    exact ⟨c', gives_bind.mpr ⟨a, m', hm', hc'⟩, hagrees⟩

theorem Grows.forM {f : α → Assembling PUnit} (hf : ∀ a, Grows (f a)) (xs : List α) :
    Grows (xs.forM f) := by
  induction xs with
  | nil => exact grows_pure _
  | cons x xs ih => exact (hf x).bind fun _ => ih

/-- A check in front of a step that only looks at the parts of a build. -/
theorem Grows.check {p : Build → Bool} {e : Build → AssemblyError} {k : β → Assembling α}
    {x : Assembling α} (hp : ∀ b c, b.Agrees c → p b = p c) (hx : Grows x) :
    Grows (get >>= fun b => if p b = true then throw (e b) >>= k else x) where
  extends_of_gives b a b' h :=
    hx.extends_of_gives b a b' (gives_unless.mp (gives_get_bind.mp h)).2
  gives_of_agrees b c a b' hbc h := by
    obtain ⟨hb, hrest⟩ := gives_unless.mp (gives_get_bind.mp h)
    obtain ⟨c', hc', hagrees⟩ := hx.gives_of_agrees b c a b' hbc hrest
    exact ⟨c', gives_get_bind.mpr (gives_unless.mpr ⟨hp b c hbc ▸ hb, hc'⟩), hagrees⟩

/-- A step that changes the build in one way, under a condition. -/
theorem grows_of_gives_iff {x : Assembling PUnit} {p : Build → Prop} {f : Build → Build}
    (hx : ∀ b b', Gives x b () b' ↔ p b ∧ b' = f b) (hext : ∀ b, p b → b.Extends (f b))
    (hagree : ∀ b c, b.Agrees c → p b → p c ∧ (f b).Agrees (f c)) : Grows x where
  extends_of_gives b _ b' h := by
    obtain ⟨hp, rfl⟩ := (hx b b').mp h
    exact hext b hp
  gives_of_agrees b c _ b' hbc h := by
    obtain ⟨hp, rfl⟩ := (hx b b').mp h
    obtain ⟨hpc, hfc⟩ := hagree b c hbc hp
    exact ⟨f c, (hx c (f c)).mpr ⟨hpc, rfl⟩, hfc⟩

theorem grows_tell (es : List Event) : Grows (tell es) := by
  refine grows_of_gives_iff (p := fun _ => True) (f := (·.tell es)) ?_ ?_ ?_
  · intro b b'
    rw [gives_tell, true_and]
  · intro b _
    exact Build.Agrees.extends ⟨rfl, rfl, rfl⟩
  · intro b c hbc _
    exact ⟨trivial, hbc.resources_eq, hbc.models_eq, hbc.validators_eq⟩

theorem grows_attach (id : NodeId) (m : AttachedMethod) : Grows (attach id m) := by
  refine grows_of_gives_iff (fun _ _ => gives_attach) ?_ ?_
  · intro b h
    exact Build.extends_withMethod h
  · intro b c hbc h
    refine ⟨hbc.attachments_eq id ▸ h, ?_, hbc.models_eq, hbc.validators_eq⟩
    rw [Build.resources_withMethod, Build.resources_withMethod, hbc.resources_eq]

theorem grows_addValidator (v : RequestValidator) : Grows (addValidator v) := by
  refine grows_of_gives_iff (fun _ _ => gives_addValidator) ?_ ?_
  · intro b h
    exact Build.extends_withValidator h
  · intro b c hbc h
    refine ⟨hbc.hasArtifact_eq v.name ▸ h, hbc.resources_eq, hbc.models_eq, ?_⟩
    rw [Build.validators_withValidator, Build.validators_withValidator, hbc.validators_eq]

theorem grows_addModel (name : String) (s : TypeSchema) : Grows (addModel name s) := by
  cases hs : s.convertModel with
  | error e =>
    have hno : ∀ b a b', ¬ Gives (addModel name s) b a b' := by
      intro b a b' h
      obtain ⟨-, document, hdocument, -⟩ := gives_addModel.mp h
      rw [hs] at hdocument
      cases hdocument
    exact ⟨fun b a b' h => absurd h (hno b a b'), fun b _ a b' _ h => absurd h (hno b a b')⟩
  | ok document =>
    refine grows_of_gives_iff (p := fun b => b.hasArtifact name = false)
      (f := fun b => b.withModel { name, document }) ?_ ?_ ?_
    · intro b b'
      rw [gives_addModel]
      simp [hs]
    · intro b h
      exact Build.extends_withModel h
    · intro b c hbc h
      refine ⟨hbc.hasArtifact_eq name ▸ h, hbc.resources_eq, ?_, hbc.validators_eq⟩
      rw [Build.models_withModel, Build.models_withModel, hbc.models_eq]

theorem grows_reach (start : NodeId) (path : String) : Grows (reach start path) where
  extends_of_gives b _ _ h := (gives_reach.mp h).2 ▸ b.extends_reach start path
  gives_of_agrees b c id b' hbc h := by
    obtain ⟨rfl, rfl⟩ := gives_reach.mp h
    refine ⟨(c.reach start path).2, gives_reach.mpr ⟨?_, rfl⟩, ?_, hbc.models_eq,
      hbc.validators_eq⟩
    · show (b.resources.insertAt start path).node = (c.resources.insertAt start path).node
      rw [hbc.resources_eq]
    · show (b.resources.insertAt start path).tree = (c.resources.insertAt start path).tree
      rw [hbc.resources_eq]

theorem gives_requestPreflight_cases {id : NodeId} {o : CorsOptions} {b b' : Build}
    {r : CorsOptions.Registration} (hr : r = CorsOptions.register (b.attachments id).cors o) :
    Gives (requestPreflight id o) b () b' ↔
      (r.isNew = true ∧ Gives (attach id o.preflight)
        ((b.withPreflight id r).measure .preflightRegistered) () b') ∨
      (r.isNew = false ∧ b' = b.withPreflight id r) := by
  subst hr
  rw [requestPreflight, gives_get_bind]
  dsimp only
  cases (CorsOptions.register (b.attachments id).cors o).isNew with
  | true => simp
  | false => simp

theorem grows_requestPreflight (id : NodeId) (o : CorsOptions) :
    Grows (requestPreflight id o) := by
  have hattach := grows_attach id o.preflight
  constructor
  · intro b _ b' h
    have hslot := b.extends_withPreflight id o
    rcases (gives_requestPreflight_cases rfl).mp h with ⟨-, hrest⟩ | ⟨-, rfl⟩
    · have hmeasured := hattach.extends_of_gives _ _ _ hrest
      exact hslot.trans ⟨hmeasured.resources_grow, hmeasured.models_grow,
        hmeasured.validators_grow⟩
    · exact hslot
  · intro b c _ b' hbc h
    have hr : CorsOptions.register (b.attachments id).cors o =
        CorsOptions.register (c.attachments id).cors o := by rw [hbc.attachments_eq]
    rcases (gives_requestPreflight_cases rfl).mp h with ⟨hnew, hrest⟩ | ⟨hold, rfl⟩
    · obtain ⟨c', hc', hagrees⟩ :=
        hattach.gives_of_agrees _ _ _ _ ((hbc.withPreflight id _).measure _) hrest
      exact ⟨c', (gives_requestPreflight_cases hr).mpr (Or.inl ⟨hnew, hc'⟩), hagrees⟩
    · exact ⟨_, (gives_requestPreflight_cases hr).mpr (Or.inr ⟨hold, rfl⟩),
        hbc.withPreflight id _⟩

/-! ## Routes -/

variable (d : Declaration)

theorem grows_attachEndpoint (id : NodeId) (e : Endpoint) : Grows (attachEndpoint d id e) := by
  have hartifacts : Grows (do
      addValidator (e.requestValidator d.validation)
      e.models.forM fun m => addModel m.1 m.2
      attach id (e.attached d.policy)) := by
    refine (grows_addValidator _).bind fun _ => ?_
    refine (Grows.forM (fun m => grows_addModel m.1 m.2) e.models).bind fun _ => ?_
    exact grows_attach id _
  refine Grows.check ?_ ?_
  · intro b c hbc
    rw [hbc.attachments_eq]
  · cases d.policy.cors with
    | none => exact hartifacts
    | some c => exact (grows_requestPreflight id c).bind fun _ => hartifacts

theorem grows_attachMethods (id : NodeId) (path : String)
    (ds : Entries Method ResourceDefinition) : Grows (attachMethods d id path ds) := by
  refine (grows_tell _).bind fun _ => Grows.forM ?_ _
  intro m
  cases Entries.get? ds m with
  | none => exact grows_pure _
  | some definition => exact grows_attachEndpoint d id _

theorem grows_attachProxy (id : NodeId) (definition : ResourceDefinition) :
    Grows (attachProxy id definition) := by
  refine (grows_reach id proxySegment).bind fun child => ?_
  refine (grows_attach id _).bind fun _ => ?_
  exact grows_attach child _

theorem grows_attachRoute (path : String) (r : RouteDefinition) :
    Grows (attachRoute d path r) := by
  refine (grows_reach PathTree.root path).bind fun id => ?_
  cases r with
  | proxy definition => exact grows_attachProxy id definition
  | methods ds => exact grows_attachMethods d id path ds

end Assembling

end RestContract
