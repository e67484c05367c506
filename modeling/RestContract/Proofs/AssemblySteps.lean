-- The steps of an assembly, one by one: when a step ends well, what build it leaves, and
-- with which error it fails otherwise.
import RestContract.Assembly.Routes
import RestContract.Proofs.PathInsertion

namespace RestContract

namespace Assembling

variable {α β γ : Type}

/-! ## Ending well and failing -/

/-- From the first build, the step ends well with a value and leaves the second build. -/
def Gives (x : Assembling α) (b : Build) (a : α) (b' : Build) : Prop := x.run b = .ok a b'

/-- From the build, the step ends the assembly with an error. -/
def Fails (x : Assembling α) (b : Build) (e : AssemblyError) : Prop := ∃ b', x.run b = .error e b'

@[simp] theorem gives_pure {a a' : α} {b b' : Build} :
    Gives (pure a) b a' b' ↔ a' = a ∧ b' = b := by
  simp [Gives, EStateM.run, pure, EStateM.pure, eq_comm]

@[simp] theorem gives_get {b a b' : Build} : Gives get b a b' ↔ a = b ∧ b' = b := by
  have hrun : (get : Assembling Build).run b = .ok b b := rfl
  simp [Gives, hrun, eq_comm]

@[simp] theorem gives_set {b c b' : Build} {u : PUnit} : Gives (set c) b u b' ↔ b' = c := by
  have hrun : (set c : Assembling PUnit).run b = .ok () c := rfl
  simp [Gives, hrun, eq_comm]

@[simp] theorem gives_bind {x : Assembling α} {f : α → Assembling β} {b b' : Build} {r : β} :
    Gives (x >>= f) b r b' ↔ ∃ a c, Gives x b a c ∧ Gives (f a) c r b' := by
  simp only [Gives, EStateM.run, bind, EStateM.bind]
  cases x b <;> simp

@[simp] theorem gives_map {f : α → β} {x : Assembling α} {b b' : Build} {r : β} :
    Gives (f <$> x) b r b' ↔ ∃ a, Gives x b a b' ∧ r = f a := by
  simp only [Gives, EStateM.run, Functor.map, EStateM.map]
  cases x b <;> simp [eq_comm, and_comm]

@[simp] theorem fails_pure {a : α} {b : Build} {e : AssemblyError} : ¬ Fails (pure a) b e := by
  simp [Fails, EStateM.run, pure, EStateM.pure]

@[simp] theorem fails_get {b : Build} {e : AssemblyError} : ¬ Fails get b e := by
  have hrun : (get : Assembling Build).run b = .ok b b := rfl
  simp [Fails, hrun]

@[simp] theorem fails_set {b c : Build} {e : AssemblyError} : ¬ Fails (set c) b e := by
  have hrun : (set c : Assembling PUnit).run b = .ok () c := rfl
  simp [Fails, hrun]

@[simp] theorem fails_throw {b : Build} {e e' : AssemblyError} :
    Fails (throw e : Assembling α) b e' ↔ e' = e := by
  have hrun : (throw e : Assembling α).run b = .error e b := rfl
  simp [Fails, hrun, eq_comm]

@[simp] theorem gives_throw {b b' : Build} {a : α} {e : AssemblyError} :
    ¬ Gives (throw e : Assembling α) b a b' := by
  have hrun : (throw e : Assembling α).run b = .error e b := rfl
  simp [Gives, hrun]

@[simp] theorem fails_map {f : α → β} {x : Assembling α} {b : Build} {e : AssemblyError} :
    Fails (f <$> x) b e ↔ Fails x b e := by
  simp only [Fails, EStateM.run, Functor.map, EStateM.map]
  cases x b <;> simp

@[simp] theorem fails_bind {x : Assembling α} {f : α → Assembling β} {b : Build}
    {e : AssemblyError} :
    Fails (x >>= f) b e ↔ Fails x b e ∨ ∃ a c, Gives x b a c ∧ Fails (f a) c e := by
  simp only [Gives, Fails, EStateM.run, bind, EStateM.bind]
  cases x b <;> simp

/-- One step after another. -/
theorem gives_seq {x : Assembling PUnit} {f : PUnit → Assembling β} {b b' : Build} {r : β} :
    Gives (x >>= f) b r b' ↔ ∃ c, Gives x b () c ∧ Gives (f ()) c r b' := by
  rw [gives_bind]
  exact ⟨fun ⟨_, c, h⟩ => ⟨c, h⟩, fun ⟨c, h⟩ => ⟨(), c, h⟩⟩

theorem fails_seq {x : Assembling PUnit} {f : PUnit → Assembling β} {b : Build}
    {e : AssemblyError} :
    Fails (x >>= f) b e ↔ Fails x b e ∨ ∃ c, Gives x b () c ∧ Fails (f ()) c e := by
  rw [fails_bind]
  exact or_congr_right ⟨fun ⟨_, c, h⟩ => ⟨c, h⟩, fun ⟨c, h⟩ => ⟨(), c, h⟩⟩

theorem gives_get_bind {f : Build → Assembling β} {b b' : Build} {r : β} :
    Gives (get >>= f) b r b' ↔ Gives (f b) b r b' := Iff.rfl

theorem fails_get_bind {f : Build → Assembling β} {b : Build} {e : AssemblyError} :
    Fails (get >>= f) b e ↔ Fails (f b) b e := Iff.rfl

theorem gives_set_bind {f : PUnit → Assembling β} {b c b' : Build} {r : β} :
    Gives (set c >>= f) b r b' ↔ Gives (f ()) c r b' := Iff.rfl

/-- A step behind a check is only taken if the check finds nothing. -/
theorem gives_unless {p : Bool} {e : AssemblyError} {k : γ → Assembling α} {x : Assembling α}
    {b b' : Build} {a : α} :
    Gives (if p = true then throw e >>= k else x) b a b' ↔ p = false ∧ Gives x b a b' := by
  cases p <;> simp

theorem fails_unless {p : Bool} {e e' : AssemblyError} {k : γ → Assembling α} {x : Assembling α}
    {b : Build} :
    Fails (if p = true then throw e >>= k else x) b e' ↔
      (p = true ∧ e' = e) ∨ (p = false ∧ Fails x b e') := by
  cases p <;> simp

theorem gives_forM_nil {f : α → Assembling PUnit} {b b' : Build} :
    Gives (([] : List α).forM f) b () b' ↔ b' = b := by
  simp [List.forM]

theorem gives_forM_cons {f : α → Assembling PUnit} {x : α} {xs : List α} {b b' : Build} :
    Gives ((x :: xs).forM f) b () b' ↔ ∃ c, Gives (f x) b () c ∧ Gives (xs.forM f) c () b' :=
  gives_seq

theorem fails_forM_nil {f : α → Assembling PUnit} {b : Build} {e : AssemblyError} :
    ¬ Fails (([] : List α).forM f) b e := by
  simp [List.forM]

theorem fails_forM_cons {f : α → Assembling PUnit} {x : α} {xs : List α} {b : Build}
    {e : AssemblyError} : Fails ((x :: xs).forM f) b e ↔
      Fails (f x) b e ∨ ∃ c, Gives (f x) b () c ∧ Fails (xs.forM f) c e :=
  fails_seq

/-- A loop that does nothing for some elements is a loop over the others. -/
theorem forM_eq_forM_filterMap {f : α → Option β} {g : α → Assembling PUnit}
    {k : β → Assembling PUnit} {xs : List α}
    (h : ∀ x ∈ xs, g x = (f x).elim (pure ()) k) : xs.forM g = (xs.filterMap f).forM k := by
  induction xs with
  | nil => rfl
  | cons x xs ih =>
    obtain ⟨hx, hrest⟩ := List.forall_mem_cons.mp h
    simp only [List.filterMap_cons, List.forM, hx]
    cases f x with
    | none => exact ih hrest
    | some y => exact congrArg (k y >>= fun _ => ·) (ih hrest)

end Assembling

/-! ## What the changes to a build leave -/

namespace Build

variable (b : Build)

@[simp] theorem resources_tell (es : List Event) : (b.tell es).resources = b.resources := rfl
@[simp] theorem models_tell (es : List Event) : (b.tell es).models = b.models := rfl
@[simp] theorem validators_tell (es : List Event) : (b.tell es).validators = b.validators := rfl

@[simp] theorem resources_measure (m : Measurement) : (b.measure m).resources = b.resources := rfl
@[simp] theorem models_measure (m : Measurement) : (b.measure m).models = b.models := rfl
@[simp] theorem validators_measure (m : Measurement) :
    (b.measure m).validators = b.validators := rfl

@[simp] theorem resources_withMethod (id : NodeId) (m : AttachedMethod) :
    (b.withMethod id m).resources = b.resources.modifyPayload id (·.attach m) := rfl
@[simp] theorem models_withMethod (id : NodeId) (m : AttachedMethod) :
    (b.withMethod id m).models = b.models := rfl
@[simp] theorem validators_withMethod (id : NodeId) (m : AttachedMethod) :
    (b.withMethod id m).validators = b.validators := rfl

@[simp] theorem resources_withValidator (v : RequestValidator) :
    (b.withValidator v).resources = b.resources := rfl
@[simp] theorem models_withValidator (v : RequestValidator) :
    (b.withValidator v).models = b.models := rfl
@[simp] theorem validators_withValidator (v : RequestValidator) :
    (b.withValidator v).validators = Entries.put b.validators v.name v := rfl

@[simp] theorem resources_withModel (m : Model) : (b.withModel m).resources = b.resources := rfl
@[simp] theorem models_withModel (m : Model) :
    (b.withModel m).models = Entries.put b.models m.name m := rfl
@[simp] theorem validators_withModel (m : Model) : (b.withModel m).validators = b.validators := rfl

@[simp] theorem resources_withPreflight (id : NodeId) (r : CorsOptions.Registration) :
    (b.withPreflight id r).resources =
      b.resources.modifyPayload id fun a => { a with cors := some r.slot } := rfl
@[simp] theorem models_withPreflight (id : NodeId) (r : CorsOptions.Registration) :
    (b.withPreflight id r).models = b.models := rfl
@[simp] theorem validators_withPreflight (id : NodeId) (r : CorsOptions.Registration) :
    (b.withPreflight id r).validators = b.validators := rfl

theorem hasArtifact_withValidator (v : RequestValidator) (name : String) :
    (b.withValidator v).hasArtifact name = (b.hasArtifact name || v.name == name) := by
  simp [hasArtifact, Entries.has_put, Bool.or_assoc]

theorem hasArtifact_withModel (m : Model) (name : String) :
    (b.withModel m).hasArtifact name = (b.hasArtifact name || m.name == name) := by
  simp only [hasArtifact, models_withModel, validators_withModel, Entries.has_put]
  cases Entries.has b.models name <;> cases Entries.has b.validators name <;> simp

variable {b} in
/-- The attachments of a node are what stands at its address. -/
theorem attachments_eq_valueAt (h : b.resources.WellFormed) {id : NodeId}
    (hid : id < b.resources.size) :
    b.attachments id = b.resources.valueAt (b.resources.segmentsOf id) := by
  unfold attachments ResourceTree.attachments PathTree.valueAt
  rw [h.follow_segmentsOf hid]
  rfl

/-- Adds models one after another. -/
def withModels (ms : List Model) : Build := ms.foldl withModel b

@[simp] theorem resources_withModels (ms : List Model) :
    (b.withModels ms).resources = b.resources := by
  unfold withModels
  induction ms generalizing b with
  | nil => rfl
  | cons m ms ih => rw [List.foldl_cons, ih, resources_withModel]

@[simp] theorem validators_withModels (ms : List Model) :
    (b.withModels ms).validators = b.validators := by
  unfold withModels
  induction ms generalizing b with
  | nil => rfl
  | cons m ms ih => rw [List.foldl_cons, ih, validators_withModel]

end Build

end RestContract
