-- What a probe depends on. It reads the values of a few keys of an object and nothing else. The
-- first shape that fits decides: a field that does not fit is refused, and no later shape is tried.
import RestContract.Proofs.EqualDefinitions

namespace RestContract

open Json (Alike)

/-! ## What a shape reads of an object -/

namespace Shape

variable {α : Type}

/-- Objects that hold the same under the given names are read the same. -/
def ReadsOnly (names : List String) (shape : Shape α) : Prop :=
  ∀ ⦃es fs : Entries String Json⦄, (Entries.keys es).Nodup → (Entries.keys fs).Nodup →
    (∀ name ∈ names, Entries.get? es name = Entries.get? fs name) →
      shape (.obj es) = shape (.obj fs)

/-- A record reads only its fields, if they are looked up by their names. -/
theorem readsOnly_fields (names : List String) {read : Fields → Option α}
    (h : ∀ fs gs : Fields, (∀ name, Entries.get? fs name = Entries.get? gs name) →
      read fs = read gs) : ReadsOnly names fun v => (fields names false v).bind read := by
  intro es fs hes hfs hsame
  simp only [fields_obj hes, fields_obj hfs, Option.bind_some]
  refine h _ _ fun name => ?_
  rw [Entries.get?_filter_key names.contains, Entries.get?_filter_key names.contains]
  split
  · rename_i hname
    exact hsame name (List.contains_iff_mem.mp hname)
  · rfl

theorem ReadsOnly.mono {names names' : List String} {shape : Shape α} (h : ReadsOnly names shape)
    (hnames : names ⊆ names') : ReadsOnly names' shape :=
  fun _ _ hes hfs hsame => h hes hfs fun name hname => hsame name (hnames hname)

end Shape

open Shape

theorem LambdaIntegration.readsOnly_shape :
    ReadsOnly ["function", "proxy", "timeoutMs", "requestParameters", "requestTemplates"]
      LambdaIntegration.shape :=
  readsOnly_fields _ fun fs gs h => by simp only [required, maybe, withDefault, h]

theorem HttpIntegration.readsOnly_shape :
    ReadsOnly ["uri", "httpMethod", "proxy"] HttpIntegration.shape :=
  readsOnly_fields _ fun fs gs h => by simp only [required, withDefault, h]

theorem MockIntegration.readsOnly_shape : ReadsOnly ["requestTemplates"] MockIntegration.shape :=
  readsOnly_fields _ fun fs gs h => by simp only [withDefault, h]

/-- The keys that an integration is read from. -/
def Integration.keys : List String :=
  ["type", "function", "proxy", "timeoutMs", "requestParameters", "requestTemplates", "uri",
    "httpMethod"]

theorem Integration.readsOnly_variantShape (type : Json) :
    ReadsOnly Integration.keys (variantShape type) := by
  intro es fs hes hfs hsame
  unfold variantShape
  split
  · rw [LambdaIntegration.readsOnly_shape.mono (by decide) hes hfs hsame]
  · rw [HttpIntegration.readsOnly_shape.mono (by decide) hes hfs hsame]
  · rw [MockIntegration.readsOnly_shape.mono (by decide) hes hfs hsame]
  · rfl

theorem Integration.readsOnly_shape : ReadsOnly Integration.keys Integration.shape := by
  intro es fs hes hfs hsame
  rw [shape_eq, shape_eq, tagged_obj hes, tagged_obj hfs, hsame "type" (by decide)]
  cases Entries.get? fs "type" with
  | none => rfl
  | some type =>
    refine readsOnly_variantShape type (Entries.keys_filter_nodup hes _)
      (Entries.keys_filter_nodup hfs _) fun name hname => ?_
    rw [Entries.get?_filter_key (· != "type"), Entries.get?_filter_key (· != "type"),
      hsame name hname]

namespace ResourceDefinition

/-! ## Fields that do not fit -/

/-- There is a value under the name of a field, other than `null`, and it does not fit. -/
def refused (v : Json) (f : String × (Json → Bool)) : Bool :=
  match v.get? f.1 with
  | none | some .null => false
  | some raw => !f.2 raw

/-- The first field that does not fit is named. If there is none, something with the property is
read. -/
def InOrder {α : Type} (v : Json) (fields : List (String × (Json → Bool))) (P : α → Prop)
    (x : Except DefinitionError α) : Prop :=
  match fields.find? (refused v) with
  | some f => x = .error (.invalidField f.1)
  | none => ∃ a, x = .ok a ∧ P a

/-- The fields of the metadata, in the order in which they are read. -/
def metadataFields : List (String × (Json → Bool)) :=
  [("auth", fun raw => (RouteAuth.shape raw).isSome),
    ("request", fun raw => (TypeSchema.shape raw).isSome),
    ("responses", fun raw => (Responses.shape raw).isSome),
    ("authorizationScopes", fun raw => (list text raw).isSome)]

/-- The fields around a compute unit, in the order in which they are read. -/
def computeFields : List (String × (Json → Bool)) :=
  [("proxy", fun raw => (flag raw).isSome),
    ("timeoutMs", fun raw => (upTo maxUInt64 raw).isSome),
    ("queryParams", fun raw => (map flag raw).isSome)] ++ metadataFields

section InOrder

variable {α β : Type} {v : Json} {fs gs : List (String × (Json → Bool))} {P : α → Prop}
  {Q : β → Prop} {x : Except DefinitionError α}

theorem inOrder_ok {a : α} (h : P a) : InOrder v [] P (.ok a) := ⟨a, rfl, h⟩

theorem inOrder_field (name : String) (shape : Shape α) :
    InOrder v [(name, fun raw => (shape raw).isSome)] (fun _ => True) (field v name shape) := by
  unfold InOrder field
  rw [List.find?_singleton, refused]
  cases v.get? name with
  | none => exact ⟨none, rfl, trivial⟩
  | some raw =>
    by_cases hnull : raw = .null
    · subst hnull
      exact ⟨none, rfl, trivial⟩
    · cases hshape : shape raw <;> simp [hshape]

/-- Further fields are read behind the ones that fit. -/
theorem InOrder.bind (h : InOrder v fs P x) {f : α → Except DefinitionError β}
    (hf : ∀ a, P a → InOrder v gs Q (f a)) : InOrder v (fs ++ gs) Q (x >>= f) := by
  unfold InOrder at h ⊢
  rw [List.find?_append]
  cases hfind : fs.find? (refused v) with
  | some g =>
    rw [hfind] at h
    rw [h]
    rfl
  | none =>
    rw [hfind] at h
    obtain ⟨a, rfl, ha⟩ := h
    exact hf a ha

/-- The last step reads no field. -/
theorem InOrder.bind_ok (h : InOrder v fs P x) {f : α → β} (hf : ∀ a, P a → Q (f a)) :
    InOrder v fs Q (x >>= fun a => .ok (f a)) := by
  have hbind := h.bind fun a ha => inOrder_ok (hf a ha)
  rwa [List.append_nil] at hbind

theorem inOrder_readMetadata : InOrder v metadataFields (fun _ => True) (readMetadata v) := by
  refine (inOrder_field "auth" RouteAuth.shape).bind fun _ _ => ?_
  refine (inOrder_field "request" TypeSchema.shape).bind fun _ _ => ?_
  refine (inOrder_field "responses" Responses.shape).bind fun _ _ => ?_
  exact (inOrder_field "authorizationScopes" (list text)).bind_ok fun _ _ => trivial

theorem inOrder_wrapped (i : Integration) :
    InOrder v metadataFields (∃ m, · = wrapped i m) (ofProbe v (.wrapped i)) :=
  inOrder_readMetadata.bind_ok fun m _ => ⟨m, rfl⟩

theorem inOrder_compute (u : ComputeUnit) :
    InOrder v computeFields (∃ c, c.function = u ∧ · = compute c) (ofProbe v (.compute u)) := by
  refine (inOrder_field "proxy" flag).bind fun _ _ => ?_
  refine (inOrder_field "timeoutMs" (upTo maxUInt64)).bind fun _ _ => ?_
  refine (inOrder_field "queryParams" (map flag)).bind fun _ _ => ?_
  exact inOrder_readMetadata.bind_ok fun _ _ => ⟨_, rfl, rfl⟩

theorem InOrder.ok_or_invalidField (h : InOrder v fs P x) :
    (∃ a, x = .ok a) ∨ ∃ name, x = .error (.invalidField name) := by
  unfold InOrder at h
  split at h
  · exact .inr ⟨_, h⟩
  · obtain ⟨a, ha, -⟩ := h
    exact .inl ⟨a, ha⟩

end InOrder

/-- A shape that fits is never given up. -/
theorem ofProbe_ok_or_invalidField (v : Json) {p : Probe} (hp : p ≠ .unrecognized) :
    (∃ d, ofProbe v p = .ok d) ∨ ∃ name, ofProbe v p = .error (.invalidField name) := by
  cases p with
  | integration i => exact .inl ⟨_, rfl⟩
  | wrapped i => exact (inOrder_wrapped i).ok_or_invalidField
  | compute u => exact (inOrder_compute u).ok_or_invalidField
  | unrecognized => exact absurd rfl hp

/-! ## The keys of a definition -/

/-- The keys that a definition is read from. -/
def recognisedKeys : List String :=
  Integration.keys ++
    ["integration", "queryParams", "auth", "request", "responses", "authorizationScopes"]

/-- Objects that hold the same under the recognised keys are probed the same. -/
theorem agreeOn_of_same_fields {es fs : Entries String Json} (hes : (Entries.keys es).Nodup)
    (hfs : (Entries.keys fs).Nodup)
    (h : ∀ name ∈ recognisedKeys, Entries.get? es name = Entries.get? fs name) :
    AgreeOn Eq (.obj es) (.obj fs) (probe (.obj es)) (probe (.obj fs)) := by
  have hget : ∀ name ∈ recognisedKeys, (Json.obj es).get? name = (Json.obj fs).get? name := h
  have hfield : ∀ {α : Type} (name : String) (shape : Shape α), name ∈ recognisedKeys →
      field (.obj es) name shape = field (.obj fs) name shape := by
    intro α name shape hname
    rw [field, field, hget name hname]
  have hintegration : Integration.shape (.obj es) = Integration.shape (.obj fs) :=
    Integration.readsOnly_shape hes hfs fun name hname => h name (List.mem_append_left _ hname)
  have hmetadata : readMetadata (.obj es) = readMetadata (.obj fs) := by
    rw [readMetadata, readMetadata, hfield "auth" _ (by decide), hfield "request" _ (by decide),
      hfield "responses" _ (by decide), hfield "authorizationScopes" _ (by decide)]
  have hof : Probe.of (.obj es) = Probe.of (.obj fs) := by
    rw [Probe.of, Probe.of, hintegration, hget "integration" (by decide),
      hget "function" (by decide)]
  have hread : ∀ p, p ≠ .unrecognized → ofProbe (.obj es) p = ofProbe (.obj fs) p := by
    intro p hp
    cases p with
    | integration i => rfl
    | wrapped i => rw [ofProbe, ofProbe, hmetadata]
    | compute u =>
      rw [ofProbe, ofProbe, hmetadata, hfield "proxy" _ (by decide),
        hfield "timeoutMs" _ (by decide), hfield "queryParams" _ (by decide)]
    | unrecognized => exact absurd rfl hp
  rw [probe, probe, hof]
  by_cases hp : Probe.of (.obj fs) = .unrecognized
  · rw [hp]
    exact .unrecognized
  · rw [hread _ hp]
    obtain ⟨d, hd⟩ | ⟨name, hname⟩ := ofProbe_ok_or_invalidField (.obj fs) hp
    · rw [hd]
      exact .ok rfl
    · rw [hname]
      exact .invalidField name

theorem AgreeOn.trans {R : ResourceDefinition → ResourceDefinition → Prop} {v v' w w' : Json}
    {x x' y y' : Except DefinitionError ResourceDefinition} (hv : AgreeOn Eq v v' x x')
    (h : AgreeOn R v' w' x' y') (hw : AgreeOn Eq w' w y' y) : AgreeOn R v w x y := by
  cases h with
  | ok hde =>
    cases hv with
    | ok hd =>
      cases hw with
      | ok he => exact .ok (hd ▸ he ▸ hde)
  | invalidField name =>
    cases hv
    cases hw
    exact .invalidField name
  | unrecognized =>
    cases hv
    cases hw
    exact .unrecognized

/-- Objects that hold equal values under the recognised keys are probed alike. -/
theorem agreeOn_of_alike_fields {es fs : Entries String Json} (hes : (Entries.keys es).Nodup)
    (hfs : (Entries.keys fs).Nodup)
    (h : ∀ name ∈ recognisedKeys,
      Option.Rel Alike (Entries.get? es name) (Entries.get? fs name)) :
    AgreeOn Agrees (.obj es) (.obj fs) (probe (.obj es)) (probe (.obj fs)) := by
  have hes' := Entries.keys_filter_nodup hes (recognisedKeys.contains ·.1)
  have hfs' := Entries.keys_filter_nodup hfs (recognisedKeys.contains ·.1)
  have hkept : ∀ (as : Entries String Json), ∀ name ∈ recognisedKeys,
      Entries.get? (as.filter (recognisedKeys.contains ·.1)) name = Entries.get? as name := by
    intro as name hname
    rw [Entries.get?_filter_key recognisedKeys.contains,
      if_pos (List.contains_iff_mem.mpr hname)]
  have halike := Alike.obj hes' hfs' fun name => ?_
  · exact (agreeOn_of_same_fields hes hes' fun name hname => (hkept es name hname).symm).trans
      (agreeOn_of_alike halike) (agreeOn_of_same_fields hfs' hfs (hkept fs))
  · rw [Entries.get?_filter_key recognisedKeys.contains,
      Entries.get?_filter_key recognisedKeys.contains]
    split
    · rename_i hname
      exact h name (List.contains_iff_mem.mp hname)
    · exact .none

/-! ## The outcome of a probe -/

section Outcome

variable {v w : Json} {i : Integration} {u : ComputeUnit}

theorem of_eq_unrecognized_iff : Probe.of v = .unrecognized ↔
    Integration.shape v = none ∧ (v.get? "integration").bind Integration.shape = none ∧
      (v.get? "function").bind ComputeUnit.shape = none := by
  unfold Probe.of
  cases Integration.shape v with
  | some i => simp
  | none =>
    cases (v.get? "integration").bind Integration.shape with
    | some i => simp
    | none => cases (v.get? "function").bind ComputeUnit.shape <;> simp

theorem of_probe_eq_unrecognized (h : probe v = .error (.unrecognized w)) :
    Probe.of v = .unrecognized ∧ w = v := by
  rw [probe] at h
  by_cases hp : Probe.of v = .unrecognized
  · rw [hp] at h
    cases h
    exact ⟨hp, rfl⟩
  · obtain ⟨d, hd⟩ | ⟨name, hname⟩ := ofProbe_ok_or_invalidField v hp
    · rw [hd] at h
      cases h
    · rw [hname] at h
      cases h

theorem probe_eq_unrecognized_iff :
    probe v = .error (.unrecognized v) ↔ Probe.of v = .unrecognized :=
  ⟨fun h => (of_probe_eq_unrecognized h).1, fun h => by rw [probe, h, ofProbe]⟩

theorem probe_of_integration (h : Integration.shape v = some i) :
    probe v = .ok (integration i) := by
  rw [probe, Probe.of, h]
  rfl

theorem inOrder_probe_of_wrapped (h : Integration.shape v = none)
    (hi : (v.get? "integration").bind Integration.shape = some i) :
    InOrder v metadataFields (∃ m, · = wrapped i m) (probe v) := by
  rw [probe, Probe.of, h, hi]
  exact inOrder_wrapped i

theorem inOrder_probe_of_compute (h : Integration.shape v = none)
    (hi : (v.get? "integration").bind Integration.shape = none)
    (hu : (v.get? "function").bind ComputeUnit.shape = some u) :
    InOrder v computeFields (∃ c, c.function = u ∧ · = compute c) (probe v) := by
  rw [probe, Probe.of, h, hi, hu]
  exact inOrder_compute u

end Outcome

/-- A probe reads the recognised keys of an object and nothing else. A value is unrecognized if no
shape fits; else the first shape that fits decides, and the first of its fields that does not fit
is refused. -/
theorem probing_reads_the_recognised_keys_and_keeps_the_first_shape :
    (∀ es fs : Entries String Json, (Entries.keys es).Nodup → (Entries.keys fs).Nodup →
      (∀ name ∈ recognisedKeys, Entries.get? es name = Entries.get? fs name) →
        AgreeOn Eq (.obj es) (.obj fs) (probe (.obj es)) (probe (.obj fs))) ∧
    (∀ es fs : Entries String Json, (Entries.keys es).Nodup → (Entries.keys fs).Nodup →
      (∀ name ∈ recognisedKeys, Option.Rel Alike (Entries.get? es name) (Entries.get? fs name)) →
        AgreeOn Agrees (.obj es) (.obj fs) (probe (.obj es)) (probe (.obj fs))) ∧
    ∀ v : Json,
      (probe v = .error (.unrecognized v) ↔
        Integration.shape v = none ∧ (v.get? "integration").bind Integration.shape = none ∧
          (v.get? "function").bind ComputeUnit.shape = none) ∧
      (∀ w, probe v = .error (.unrecognized w) → w = v) ∧
      (∀ i, Integration.shape v = some i → probe v = .ok (integration i)) ∧
      (∀ i, Integration.shape v = none → (v.get? "integration").bind Integration.shape = some i →
        InOrder v metadataFields (∃ m, · = wrapped i m) (probe v)) ∧
      ∀ u, Integration.shape v = none → (v.get? "integration").bind Integration.shape = none →
        (v.get? "function").bind ComputeUnit.shape = some u →
          InOrder v computeFields (∃ c, c.function = u ∧ · = compute c) (probe v) := by
  refine ⟨fun _ _ => agreeOn_of_same_fields, fun _ _ => agreeOn_of_alike_fields, fun v => ?_⟩
  exact ⟨probe_eq_unrecognized_iff.trans of_eq_unrecognized_iff,
    fun w hw => (of_probe_eq_unrecognized hw).2, fun _ => probe_of_integration,
    fun _ => inOrder_probe_of_wrapped, fun _ => inOrder_probe_of_compute⟩

/-- A definition, with a key of its own. -/
def searchFields : Entries String Json :=
  [("note", .str "search"),
    ("function", .obj [("functionName", .str "search"), ("arn", .str "arn:search")]),
    ("queryParams", .obj [("q", .bool true), ("page", .bool false)]), ("auth", .null)]

/-- The same definition, with its keys in another order and another key of its own. -/
def searchFieldsAgain : Entries String Json :=
  [("auth", .null), ("queryParams", .obj [("page", .bool false), ("q", .bool true)]),
    ("x-owner", .arr [.null]),
    ("function", .obj [("arn", .str "arn:search"), ("functionName", .str "search")])]

/-- An integration with metadata that does not fit, and a compute unit beside it. -/
def misfit : Json :=
  .obj [("function", .str "search"), ("responses", .bool true), ("request", .bool true),
    ("integration", .obj [("type", .str "mock")])]

/-- A compute unit with an option that does not fit. -/
def misfitOption : Json := .obj [("function", .str "search"), ("proxy", .str "no")]

/-- An integration, beside metadata that it does not have. -/
def mockAlone : Json := .obj [("type", .str "mock"), ("auth", .str "no")]

theorem a_search_in_another_order_is_probed_alike :
    (∃ c d, probe (.obj searchFields) = .ok c ∧ probe (.obj searchFieldsAgain) = .ok d ∧
      c.same d = true ∧ c.unit? = some ⟨"search", some "arn:search"⟩ ∧ c.unit? = d.unit?) ∧
    probe (.obj (searchFields.filter (recognisedKeys.contains ·.1))) = probe (.obj searchFields) ∧
    probe misfit = .error (.invalidField "request") ∧
    probe misfitOption = .error (.invalidField "proxy") ∧
    probe mockAlone = .ok (integration (.mock {})) ∧
    probe .null = .error (.unrecognized .null) := by
  obtain ⟨hsame, halike, houtcome⟩ := probing_reads_the_recognised_keys_and_keeps_the_first_shape
  have hread : ∃ c, probe (.obj searchFields) = .ok c ∧
      c.unit? = some ⟨"search", some "arn:search"⟩ := ⟨_, rfl, rfl⟩
  have hreadAgain : ∃ d, probe (.obj searchFieldsAgain) = .ok d := ⟨_, rfl⟩
  obtain ⟨c, hc, hunit⟩ := hread
  obtain ⟨d, hd⟩ := hreadAgain
  have hequal := halike searchFields searchFieldsAgain (by decide) (by decide) (by
    simp only [recognisedKeys, Integration.keys, List.cons_append, List.nil_append,
      List.forall_mem_cons]
    exact ⟨.none, .some ⟨rfl, rfl, rfl⟩, .none, .none, .none, .none, .none, .none, .none,
      .some ⟨rfl, rfl, rfl⟩, .some ⟨rfl, rfl, rfl⟩, .none, .none, .none, nofun⟩)
  have hfiltered := hsame (searchFields.filter (recognisedKeys.contains ·.1)) searchFields
    (by decide) (by decide) (by
      simp only [recognisedKeys, Integration.keys, List.cons_append, List.nil_append,
        List.forall_mem_cons]
      exact ⟨rfl, rfl, rfl, rfl, rfl, rfl, rfl, rfl, rfl, rfl, rfl, rfl, rfl, rfl, nofun⟩)
  rw [hc, hd] at hequal
  rw [hc] at hfiltered ⊢
  refine ⟨?_, ?_, (houtcome misfit).2.2.2.1 (.mock {}) rfl rfl,
    (houtcome misfitOption).2.2.2.2 ⟨"search", none⟩ rfl rfl rfl,
    (houtcome mockAlone).2.2.1 (.mock {}) rfl,
    (houtcome .null).1.mpr ⟨rfl, rfl, rfl⟩⟩
  · cases hequal with
    | ok h => exact ⟨c, d, rfl, hd, h.1, hunit, h.2⟩
  · generalize probe (.obj (searchFields.filter (recognisedKeys.contains ·.1))) = x at hfiltered ⊢
    cases hfiltered with
    | ok h => rw [h]

end ResourceDefinition

end RestContract
