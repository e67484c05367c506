-- Layouts of schemas in JSON. Every node may be written as an object or as an array, and however
-- its schema is laid out, it is read back exactly. What is read has no lazy schemas in it.
import RestContract.Proofs.DocumentReading
import RestContract.Proofs.Records
import RestContract.Proofs.SchemaComponents
import RestContract.Proofs.UnsupportedNodes
import RestContract.Schema.Shape

namespace RestContract

open Entries (SameKey)
open HasParts (preorder)

/-! ## Kinds -/

namespace TypeKind

/-- The text is the name of the kind, or one of its other names. -/
def IsName (kind : TypeKind) (name : String) : Prop :=
  ∃ others, (kind, others) ∈ written ∧ (name = kind.name ∨ name ∈ others)

theorem ofName?_of_isName {kind : TypeKind} {name : String} (h : kind.IsName name) :
    ofName? name = some kind := by
  have hdistinct : ∀ k ∈ written, ∀ name ∈ k.1.name :: k.2, ofName? name = some k.1 := by decide
  obtain ⟨others, hmem, hname⟩ := h
  exact hdistinct _ hmem name (List.mem_cons.mpr hname)

theorem isName_name {kind : TypeKind} (h : kind ≠ .lazy) : kind.IsName kind.name := by
  have hwritten : kind ∈ written.map Prod.fst := by
    cases kind
    case lazy => exact absurd rfl h
    all_goals decide
  obtain ⟨⟨k, others⟩, hmem, rfl⟩ := List.mem_map.mp hwritten
  exact ⟨others, hmem, .inl rfl⟩

/-- The names of the fields of a variant, in order. -/
def fieldNames : TypeKind → List String
  | .literal | .record => ["value"]
  | .enum | .nativeEnum => ["values"]
  | .object => ["fields"]
  | .array | .set => ["element"]
  | .tuple => ["elements"]
  | .union => ["variants"]
  | .discriminatedUnion => ["discriminator", "variants"]
  | .intersection => ["left", "right"]
  | .optional | .nullable => ["inner"]
  | .map => ["key", "value"]
  | _ => []

theorem fieldNames_nodup (kind : TypeKind) : ("kind" :: kind.fieldNames).Nodup := by
  cases kind <;> decide

end TypeKind

namespace TypeSchema

open Shape

/-! ## The layout of a node -/

/-- A variant with its fields, laid out as an array in the order of the fields, or as an object in
any order and with any other keys. -/
inductive Laid (kind : TypeKind) (fields : Entries String Json) : Json → Prop where
  | array {name : String} (hname : kind.IsName name) :
      Laid kind fields (.arr (.str name :: Entries.values fields))
  | object {name : String} {extra entries : Entries String Json} (hname : kind.IsName name)
      (hextra : ∀ e ∈ extra, e.1 ∉ "kind" :: kind.fieldNames)
      (h : entries.Perm (("kind", .str name) :: (fields ++ extra))) :
      Laid kind fields (.obj entries)

/-- The rest of a variant behind its tag holds these fields. -/
structure Holds (names : List String) (fields : Entries String Json) (rest : Json) : Prop where
  found : ∃ fs, Shape.fields names false rest = some fs ∧
    ∀ k, Entries.get? fs k = Entries.get? fields k
  nothing_left : names = [] → nothingLeft rest = true

section Nodes

variable {kind : TypeKind} {fields : Entries String Json} {v : Json}

theorem depth_lt_of_laid (h : Laid kind fields v) {e : String × Json} (he : e ∈ fields) :
    e.2.depth < v.depth := by
  cases h with
  | array =>
    have hmem : e.2 ∈ Entries.values fields := List.mem_map_of_mem he
    exact Nat.lt_succ_of_le (Json.depth_le_of_mem_items (List.mem_cons_of_mem _ hmem))
  | object _ _ h =>
    have hmem := h.symm.subset (List.mem_cons_of_mem _ (List.mem_append_left _ he))
    exact Nat.lt_succ_of_le (Json.depth_le_of_mem_entries hmem)

theorem depth_pos_of_laid (h : Laid kind fields v) : 0 < v.depth := by
  cases h <;> exact Nat.succ_pos _

theorem holds_of_array (hfields : Entries.keys fields <+: kind.fieldNames) :
    Holds kind.fieldNames fields (.arr (Entries.values fields)) := by
  obtain ⟨more, hmore⟩ := hfields
  have hlength : (Entries.values fields).length ≤ kind.fieldNames.length := by
    simp [← hmore, Entries.values, Entries.keys]
  have hzip : kind.fieldNames.zip (Entries.values fields) = fields := by
    have hcut : ((Entries.keys fields) ++ more).zip (Entries.values fields ++ []) =
        (Entries.keys fields).zip (Entries.values fields) ++ more.zip [] :=
      List.zip_append (by simp [Entries.keys, Entries.values])
    rw [← hmore]
    simpa [Entries.keys, Entries.values, List.zip_map'] using hcut
  refine ⟨⟨fields, ?_, fun _ => rfl⟩, fun hnone => ?_⟩
  · rw [Shape.fields, if_pos hlength, hzip]
  · rw [hnone, List.length_nil, Nat.le_zero, List.length_eq_zero_iff] at hlength
    rw [hlength]
    rfl

section Objects

variable {name : Json} {extra entries : Entries String Json}

/-- Which of the entries of an object are the tag, and which are fields. -/
theorem filter_perm_of_object (hfields : Entries.keys fields <+: kind.fieldNames)
    (hextra : ∀ e ∈ extra, e.1 ∉ "kind" :: kind.fieldNames)
    (h : entries.Perm (("kind", name) :: (fields ++ extra))) :
    (entries.filter (·.1 == "kind")).Perm [("kind", name)] ∧
      ((entries.filter (·.1 != "kind")).filter (kind.fieldNames.contains ·.1)).Perm fields := by
  have hkind := (List.nodup_cons.mp kind.fieldNames_nodup).1
  have hknown : ∀ e ∈ fields, e.1 ∈ kind.fieldNames := fun e he =>
    hfields.subset (List.mem_map_of_mem he)
  have hother : ∀ e ∈ fields ++ extra, e.1 ≠ "kind" := by
    intro e he heq
    rcases List.mem_append.mp he with hmem | hmem
    · exact hkind (heq ▸ hknown e hmem)
    · exact hextra e hmem (heq ▸ List.mem_cons_self)
  have hnone : (fields ++ extra).filter (·.1 == "kind") = [] :=
    List.filter_eq_nil_iff.mpr fun e he => by simpa using hother e he
  have hall : (fields ++ extra).filter (·.1 != "kind") = fields ++ extra :=
    List.filter_eq_self.mpr fun e he => by simpa using hother e he
  have hkeep : fields.filter (kind.fieldNames.contains ·.1) = fields :=
    List.filter_eq_self.mpr fun e he => by simpa using hknown e he
  have hdrop : extra.filter (kind.fieldNames.contains ·.1) = [] :=
    List.filter_eq_nil_iff.mpr fun e he => by
      simpa using fun hmem => hextra e he (List.mem_cons_of_mem _ hmem)
  constructor
  · have htag := h.filter (·.1 == "kind")
    rwa [List.filter_cons_of_pos (by simp), hnone] at htag
  · have hrest := (h.filter (·.1 != "kind")).filter (kind.fieldNames.contains ·.1)
    rwa [List.filter_cons_of_neg (by simp), hall, List.filter_append, hkeep, hdrop,
      List.append_nil] at hrest

theorem holds_of_object (hfields : Entries.keys fields <+: kind.fieldNames)
    (hextra : ∀ e ∈ extra, e.1 ∉ "kind" :: kind.fieldNames)
    (h : entries.Perm (("kind", name) :: (fields ++ extra))) :
    Holds kind.fieldNames fields (.obj (entries.filter (·.1 != "kind"))) := by
  have hperm := (filter_perm_of_object hfields hextra h).2
  have hdistinct : (Entries.keys fields).Nodup :=
    (List.nodup_cons.mp kind.fieldNames_nodup).2.sublist hfields.sublist
  have hkeys : (Entries.keys ((entries.filter (·.1 != "kind")).filter
      (kind.fieldNames.contains ·.1))).Nodup := (hperm.map Prod.fst).nodup_iff.mpr hdistinct
  refine ⟨⟨_, ?_, fun k => Entries.get?_perm hperm hkeys k⟩, fun _ => rfl⟩
  simp only [Shape.fields, objectFields, eraseDups_of_nodup hkeys, bne_self_eq_false,
    Bool.false_and, Bool.false_eq_true, if_false]

theorem tagged_of_object (hfields : Entries.keys fields <+: kind.fieldNames)
    (hextra : ∀ e ∈ extra, e.1 ∉ "kind" :: kind.fieldNames)
    (h : entries.Perm (("kind", name) :: (fields ++ extra))) :
    tagged "kind" (.obj entries) = some (name, .obj (entries.filter (·.1 != "kind"))) := by
  have htag := (filter_perm_of_object hfields hextra h).1
  rw [List.perm_singleton] at htag
  simp only [tagged, htag]

end Objects

/-- A node is read one level deeper than its fields. -/
theorem exists_rest_of_laid (hfields : Entries.keys fields <+: kind.fieldNames)
    (h : Laid kind fields v) {depth : Nat} (hdepth : v.depth ≤ depth) (inside : Bool) :
    ∃ below rest, (∀ e ∈ fields, e.2.depth ≤ below) ∧ Holds kind.fieldNames fields rest ∧
      shapeWithin depth inside v = variantShape (shapeWithin below true) kind rest := by
  obtain ⟨below, rfl⟩ := Nat.exists_eq_succ_of_ne_zero
    (Nat.ne_of_gt (Nat.lt_of_lt_of_le (depth_pos_of_laid h) hdepth))
  have hbelow : ∀ e ∈ fields, e.2.depth ≤ below := fun e he =>
    Nat.le_of_lt_succ (Nat.lt_of_lt_of_le (depth_lt_of_laid h he) hdepth)
  cases h with
  | array hname =>
    refine ⟨below, _, hbelow, holds_of_array hfields, ?_⟩
    simp only [shapeWithin, tagged, TypeKind.shape, TypeKind.ofName?_of_isName hname]
  | object hname hextra h =>
    refine ⟨below, _, hbelow, holds_of_object hfields hextra h, ?_⟩
    simp only [shapeWithin, tagged_of_object hfields hextra h, TypeKind.shape,
      TypeKind.ofName?_of_isName hname]

theorem exists_rest_of_empty (h : Laid kind [] v) {depth : Nat} (hdepth : v.depth ≤ depth)
    (inside : Bool) : ∃ below rest, Holds kind.fieldNames [] rest ∧
      shapeWithin depth inside v = variantShape (shapeWithin below true) kind rest := by
  obtain ⟨below, rest, -, hholds, hread⟩ :=
    exists_rest_of_laid (by exact List.nil_prefix) h hdepth inside
  exact ⟨below, rest, hholds, hread⟩

/-- A node with all of its fields. -/
theorem exists_fields_of_laid (names : List String) (hnames : kind.fieldNames = names)
    (hfields : Entries.keys fields = names) (h : Laid kind fields v) {depth : Nat}
    (hdepth : v.depth ≤ depth) (inside : Bool) :
    ∃ below rest fs, shapeWithin depth inside v = variantShape (shapeWithin below true) kind rest ∧
      Shape.fields names false rest = some fs ∧
      ∀ e ∈ fields, Entries.get? fs e.1 = some e.2 ∧ e.2.depth ≤ below := by
  subst hnames
  obtain ⟨below, rest, hbelow, ⟨⟨fs, hfs, hget⟩, -⟩, hread⟩ :=
    exists_rest_of_laid (hfields ▸ List.prefix_rfl) h hdepth inside
  have hdistinct : (Entries.keys fields).Nodup :=
    hfields ▸ (List.nodup_cons.mp kind.fieldNames_nodup).2
  exact ⟨below, rest, fs, hread, hfs, fun e he =>
    ⟨(hget e.1).trans ((Entries.get?_eq_some_iff hdistinct).mpr he), hbelow e he⟩⟩

theorem exists_field_of_laid {name : String} {w : Json} (hnames : kind.fieldNames = [name])
    (h : Laid kind [(name, w)] v) {depth : Nat} (hdepth : v.depth ≤ depth) (inside : Bool) :
    ∃ below rest fs, shapeWithin depth inside v = variantShape (shapeWithin below true) kind rest ∧
      Shape.fields [name] false rest = some fs ∧ Entries.get? fs name = some w ∧
      w.depth ≤ below := by
  obtain ⟨below, rest, fs, hread, hfs, hfound⟩ :=
    exists_fields_of_laid [name] hnames rfl h hdepth inside
  exact ⟨below, rest, fs, hread, hfs, hfound _ List.mem_cons_self⟩

end Nodes

/-! ## The layouts of a schema -/

/-- A value that a schema is laid out as, with the schemas in it laid out in any way. A literal may
be written with repeated keys, and an object without fields need not have the field for them. There
is no layout of a lazy schema. -/
inductive Written : TypeSchema → Json → Prop where
  | bare {s : TypeSchema} {v : Json} (hs : s.isBare = true) (h : Laid s.kind [] v) : Written s v
  | literal {value w v : Json} (hw : w.normal = value) (h : Laid .literal [("value", w)] v) :
      Written (literal value) v
  | enum {values : List String} {v : Json} (h : Laid .enum [("values", .strings values)] v) :
      Written (enum values) v
  | nativeEnum {values : List (String × EnumValue)} {v : Json}
      (h : Laid .nativeEnum [("values", .obj (values.map fun e => (e.1, e.2.toJson)))] v) :
      Written (nativeEnum values) v
  | object {fields : List (String × TypeSchema)} {ws : List Json} {v : Json}
      (hws : List.Forall₂ Written (Entries.values fields) ws)
      (h : Laid .object [("fields", .obj ((Entries.keys fields).zip ws))] v) :
      Written (object fields) v
  | objectWithout {v : Json} (h : Laid .object [] v) : Written (object []) v
  | array {element : TypeSchema} {w v : Json} (hw : Written element w)
      (h : Laid .array [("element", w)] v) : Written (array element) v
  | tuple {elements : List TypeSchema} {ws : List Json} {v : Json}
      (hws : List.Forall₂ Written elements ws) (h : Laid .tuple [("elements", .arr ws)] v) :
      Written (tuple elements) v
  | union {variants : List TypeSchema} {ws : List Json} {v : Json}
      (hws : List.Forall₂ Written variants ws) (h : Laid .union [("variants", .arr ws)] v) :
      Written (union variants) v
  | discriminatedUnion {discriminator : String} {variants : List TypeSchema} {ws : List Json}
      {v : Json} (hws : List.Forall₂ Written variants ws)
      (h : Laid .discriminatedUnion [("discriminator", .str discriminator), ("variants", .arr ws)]
        v) : Written (discriminatedUnion discriminator variants) v
  | intersection {left right : TypeSchema} {w x v : Json} (hw : Written left w)
      (hx : Written right x) (h : Laid .intersection [("left", w), ("right", x)] v) :
      Written (intersection left right) v
  | optional {inner : TypeSchema} {w v : Json} (hw : Written inner w)
      (h : Laid .optional [("inner", w)] v) : Written (optional inner) v
  | nullable {inner : TypeSchema} {w v : Json} (hw : Written inner w)
      (h : Laid .nullable [("inner", w)] v) : Written (nullable inner) v
  | record {value : TypeSchema} {w v : Json} (hw : Written value w)
      (h : Laid .record [("value", w)] v) : Written (record value) v
  | map {key value : TypeSchema} {w x v : Json} (hw : Written key w) (hx : Written value x)
      (h : Laid .map [("key", w), ("value", x)] v) : Written (map key value) v
  | set {element : TypeSchema} {w v : Json} (hw : Written element w)
      (h : Laid .set [("element", w)] v) : Written (set element) v

/-! ## Reading a layout -/

section Reading

variable {α : Type} {item : Shape α}

theorem list_of_forall₂ {as : List α} {ws : List Json}
    (h : List.Forall₂ (fun a w => item w = some a) as ws) : list item (.arr ws) = some as :=
  mapM_eq_some_iff.mpr h.flip

theorem map_of_forall₂ {as : Entries String α} {es : Entries String Json}
    (has : (Entries.keys as).Nodup)
    (h : List.Forall₂ (SameKey fun a w => item w = some a) as es) :
    Shape.map item (.obj es) = some as := by
  have hes : (Entries.keys es).Nodup := Entries.keys_eq_of_forall₂ h ▸ has
  exact (map_obj_eq_some_iff hes).mpr (h.flip.imp fun _ _ hae => ⟨hae.1.symm, hae.2⟩)

end Reading

theorem shape_enumValue {v : EnumValue} (h : v.toJson.normal = v.toJson) :
    EnumValue.shape v.toJson = some v := by
  rcases v with s | n | d
  · rfl
  · rfl
  · rw [EnumValue.toJson, Json.normal] at h
    split at h
    · rename_i hfinite
      exact if_pos hfinite
    · cases h

/-- Every layout of a schema is read as the schema, as deep as it nests. -/
theorem shapeWithin_of_written {s : TypeSchema} (hs : Everywhere IsNormal s) {v : Json}
    (h : Written s v) {depth : Nat} (hdepth : v.depth ≤ depth) (inside : Bool) :
    shapeWithin depth inside v = some s := by
  induction hs generalizing v depth inside with
  | @intro s here _ ih =>
    have hone : ∀ {below c w}, c ∈ s.components → Written c w → w.depth ≤ below →
        shapeWithin below true w = some c := fun hc hw hle => ih _ hc hw hle true
    have hall : ∀ {below ws}, List.Forall₂ Written s.components ws →
        (Json.arr ws).depth ≤ below →
        list (shapeWithin below true) (.arr ws) = some s.components := by
      intro below ws hws hle
      refine list_of_forall₂ (forall₂_symm hws fun c hc w hw h => hone hc h ?_).flip
      exact Nat.le_trans (Json.depth_le_of_mem_items hw) (Nat.le_of_succ_le hle)
    cases h with
    | bare hs h =>
      obtain ⟨_, _, hholds, hread⟩ := exists_rest_of_empty h hdepth inside
      rw [hread]
      cases s <;> first | (cases hs; done) | simp [variantShape, kind, hholds.nothing_left rfl]
    | literal hw h =>
      obtain ⟨_, _, _, hread, hfs, hget, hle⟩ := exists_field_of_laid rfl h hdepth inside
      simp [hread, variantShape, hfs, required, hget, any, hw]
    | @enum values _ h =>
      obtain ⟨_, _, _, hread, hfs, hget, -⟩ := exists_field_of_laid rfl h hdepth inside
      have hvalues : list text (.strings values) = some values := by
        refine list_of_forall₂ ?_
        rw [List.forall₂_map_right_iff, List.forall₂_same]
        exact fun _ _ => rfl
      simp [hread, variantShape, hfs, required, hget, hvalues]
    | @nativeEnum values _ h =>
      obtain ⟨_, _, _, hread, hfs, hget, -⟩ := exists_field_of_laid rfl h hdepth inside
      have hvalues : Shape.map EnumValue.shape (.obj (values.map fun e => (e.1, e.2.toJson))) =
          some values := by
        refine map_of_forall₂ here.1 ?_
        rw [List.forall₂_map_right_iff, List.forall₂_same]
        exact fun e he => ⟨rfl, shape_enumValue (here.2 e.2 (List.mem_map_of_mem he))⟩
      simp [hread, variantShape, hfs, required, hget, hvalues]
    | @object fields ws _ hws h =>
      obtain ⟨below, _, _, hread, hfs, hget, hle⟩ := exists_field_of_laid rfl h hdepth inside
      have hfields : Shape.map (shapeWithin below true) (.obj ((Entries.keys fields).zip ws)) =
          some fields := by
        refine map_of_forall₂ here ?_
        refine (forall₂_symm (Entries.forall₂_keys_zip hws) fun e he f hf hef => ?_).flip
        refine ⟨hef.1, hone (List.mem_map_of_mem he) hef.2 ?_⟩
        exact Nat.le_trans (Json.depth_le_of_mem_entries hf) (Nat.le_of_succ_le hle)
      simp [hread, variantShape, hfs, withDefault, hget, hfields]
    | objectWithout h =>
      obtain ⟨_, _, ⟨⟨fs, hfs, hget⟩, -⟩, hread⟩ := exists_rest_of_empty h hdepth inside
      have hnone : Entries.get? fs "fields" = none := hget "fields"
      rw [TypeKind.fieldNames] at hfs
      simp [hread, variantShape, hfs, withDefault, hnone]
    | discriminatedUnion hws h =>
      obtain ⟨_, _, _, hread, hfs, hfound⟩ :=
        exists_fields_of_laid ["discriminator", "variants"] rfl rfl h hdepth inside
      obtain ⟨hget, -⟩ := hfound _ List.mem_cons_self
      obtain ⟨hget', hle⟩ := hfound _ (List.mem_cons_of_mem _ List.mem_cons_self)
      simp [hread, variantShape, hfs, required, hget, hget', text, hall hws hle, components, parts]
    | intersection hw hx h =>
      obtain ⟨_, _, _, hread, hfs, hfound⟩ :=
        exists_fields_of_laid ["left", "right"] rfl rfl h hdepth inside
      obtain ⟨hget, hle⟩ := hfound _ List.mem_cons_self
      obtain ⟨hget', hle'⟩ := hfound _ (List.mem_cons_of_mem _ List.mem_cons_self)
      simp [hread, variantShape, hfs, required, hget, hget', hone List.mem_cons_self hw hle,
        hone (List.mem_cons_of_mem _ List.mem_cons_self) hx hle']
    | map hw hx h =>
      obtain ⟨_, _, _, hread, hfs, hfound⟩ :=
        exists_fields_of_laid ["key", "value"] rfl rfl h hdepth inside
      obtain ⟨hget, hle⟩ := hfound _ List.mem_cons_self
      obtain ⟨hget', hle'⟩ := hfound _ (List.mem_cons_of_mem _ List.mem_cons_self)
      simp [hread, variantShape, hfs, required, hget, hget', hone List.mem_cons_self hw hle,
        hone (List.mem_cons_of_mem _ List.mem_cons_self) hx hle']
    | tuple hws h | union hws h =>
      obtain ⟨_, _, _, hread, hfs, hget, hle⟩ := exists_field_of_laid rfl h hdepth inside
      simp [hread, variantShape, hfs, required, hget, hall hws hle, components, parts]
    | array hw h | optional hw h | nullable hw h | record hw h | set hw h =>
      obtain ⟨_, _, _, hread, hfs, hget, hle⟩ := exists_field_of_laid rfl h hdepth inside
      simp [hread, variantShape, hfs, required, hget, hone List.mem_cons_self hw hle]

/-! ## Every schema without lazy nodes has a layout -/

theorem laid_array {kind : TypeKind} (h : kind ≠ .lazy) (fields : Entries String Json) :
    Laid kind fields (.arr (.str kind.name :: Entries.values fields)) :=
  .array (TypeKind.isName_name h)

theorem exists_written {s : TypeSchema} (hs : Everywhere IsNormal s)
    (hlazy : Everywhere (·.kind ≠ .lazy) s) : ∃ v, Written s v := by
  induction hs with
  | @intro s here below ih =>
    have hone : ∀ c ∈ s.components, ∃ w, Written c w := fun c hc => ih c hc (hlazy.of_mem hc)
    have hlaid := laid_array hlazy.here
    obtain ⟨ws, hws⟩ := exists_forall₂_of_forall hone
    cases s with
    | lazy => exact absurd rfl hlazy.here
    | literal value => exact ⟨_, .literal here (hlaid _)⟩
    | enum values => exact ⟨_, .enum (hlaid _)⟩
    | nativeEnum values => exact ⟨_, .nativeEnum (hlaid _)⟩
    | object fields => exact ⟨_, .object hws (hlaid _)⟩
    | tuple elements => exact ⟨_, .tuple hws (hlaid _)⟩
    | union variants => exact ⟨_, .union hws (hlaid _)⟩
    | discriminatedUnion discriminator variants => exact ⟨_, .discriminatedUnion hws (hlaid _)⟩
    | array element =>
      obtain ⟨w, hw⟩ := hone element List.mem_cons_self
      exact ⟨_, .array hw (hlaid _)⟩
    | optional inner =>
      obtain ⟨w, hw⟩ := hone inner List.mem_cons_self
      exact ⟨_, .optional hw (hlaid _)⟩
    | nullable inner =>
      obtain ⟨w, hw⟩ := hone inner List.mem_cons_self
      exact ⟨_, .nullable hw (hlaid _)⟩
    | record value =>
      obtain ⟨w, hw⟩ := hone value List.mem_cons_self
      exact ⟨_, .record hw (hlaid _)⟩
    | set element =>
      obtain ⟨w, hw⟩ := hone element List.mem_cons_self
      exact ⟨_, .set hw (hlaid _)⟩
    | intersection left right =>
      obtain ⟨w, hw⟩ := hone left List.mem_cons_self
      obtain ⟨x, hx⟩ := hone right (List.mem_cons_of_mem _ List.mem_cons_self)
      exact ⟨_, .intersection hw hx (hlaid _)⟩
    | map key value =>
      obtain ⟨w, hw⟩ := hone key List.mem_cons_self
      obtain ⟨x, hx⟩ := hone value (List.mem_cons_of_mem _ List.mem_cons_self)
      exact ⟨_, .map hw hx (hlaid _)⟩
    | _ => exact ⟨_, .bare rfl (hlaid _)⟩

/-! ## What is read has no lazy nodes -/

section Contents

variable {α : Type} {item : Shape α}

theorem exists_of_required {fs : Fields} {name : String} {a : α}
    (h : required fs name item = some a) : ∃ w, item w = some a := by
  obtain ⟨w, -, hw⟩ := Option.bind_eq_some_iff.mp h
  exact ⟨w, hw⟩

theorem exists_of_mem_mapM {β γ : Type} {f : β → Option γ} {bs : List β} {cs : List γ}
    (h : bs.mapM f = some cs) {c : γ} (hc : c ∈ cs) : ∃ b, f b = some c := by
  obtain ⟨b, -, hb⟩ := exists_mem_of_forall₂_right (mapM_eq_some_iff.mp h) hc
  exact ⟨b, hb⟩

theorem exists_of_mem_list {v : Json} {as : List α} (h : list item v = some as) {a : α}
    (ha : a ∈ as) : ∃ w, item w = some a := by
  cases v with
  | arr items => exact exists_of_mem_mapM h ha
  | _ => cases h

theorem exists_of_mem_map {v : Json} {as : Entries String α} (h : Shape.map item v = some as)
    {a : α} (ha : a ∈ Entries.values as) : ∃ w, item w = some a := by
  cases v with
  | obj entries =>
    obtain ⟨pairs, hpairs, rfl⟩ := Option.map_eq_some_iff.mp h
    obtain ⟨e, he, rfl⟩ := List.mem_map.mp ha
    obtain ⟨f, hf⟩ := exists_of_mem_mapM hpairs (Entries.mem_of_mem_ofPairs he)
    obtain ⟨a, hread, rfl⟩ := Option.map_eq_some_iff.mp hf
    exact ⟨f.2, hread⟩
  | _ => cases h

end Contents

theorem of_variantShape {inner : Shape TypeSchema} {kind : TypeKind} {rest : Json} {s : TypeSchema}
    (h : variantShape inner kind rest = some s) :
    s.kind ≠ .lazy ∧ ∀ c ∈ s.components, ∃ w, inner w = some c := by
  cases kind <;> simp only [variantShape] at h
  case lazy => cases h
  case string | number | boolean | bigint | null | void | unknown | date | function =>
    obtain ⟨-, ⟨⟩⟩ := Option.ite_none_right_eq_some.mp h
    exact ⟨nofun, nofun⟩
  all_goals
    simp only [Option.bind_eq_bind, Option.pure_def, Option.bind_eq_some_iff, Option.some_inj] at h
    obtain ⟨fs, -, h⟩ := h
  case literal | enum | nativeEnum =>
    obtain ⟨_, -, rfl⟩ := h
    exact ⟨nofun, nofun⟩
  case array | optional | nullable | record | set =>
    obtain ⟨c, hc, rfl⟩ := h
    exact ⟨nofun, List.forall_mem_singleton.mpr (exists_of_required hc)⟩
  case tuple | union =>
    obtain ⟨cs, hcs, rfl⟩ := h
    obtain ⟨v, hv⟩ := exists_of_required hcs
    exact ⟨nofun, fun c hc => exists_of_mem_list hv hc⟩
  case discriminatedUnion =>
    obtain ⟨_, -, cs, hcs, rfl⟩ := h
    obtain ⟨v, hv⟩ := exists_of_required hcs
    exact ⟨nofun, fun c hc => exists_of_mem_list hv hc⟩
  case intersection | map =>
    obtain ⟨c, hc, d, hd, rfl⟩ := h
    refine ⟨nofun, List.forall_mem_cons.mpr ⟨exists_of_required hc, ?_⟩⟩
    exact List.forall_mem_singleton.mpr (exists_of_required hd)
  case object =>
    obtain ⟨fields, hfields, rfl⟩ := h
    refine ⟨nofun, fun c hc => ?_⟩
    rw [withDefault] at hfields
    split at hfields
    · exact exists_of_mem_map hfields hc
    · cases hfields
      cases hc

theorem not_lazy_of_shapeWithin {depth : Nat} {inside : Bool} {v : Json} {s : TypeSchema}
    (h : shapeWithin depth inside v = some s) : Everywhere (·.kind ≠ .lazy) s := by
  induction depth generalizing inside v s with
  | zero => cases h
  | succ depth ih =>
    rw [shapeWithin] at h
    split at h
    · cases h
    · split at h
      · cases h
      · obtain ⟨hkind, hinner⟩ := of_variantShape h
        refine .intro hkind fun c hc => ?_
        obtain ⟨w, hw⟩ := hinner c hc
        exact ih hw

/-! ## The law -/

/-- However a schema is laid out, it is read back, and every schema without lazy nodes has a layout.
What is read has no lazy nodes, so its conversion ends, with a document or with an error that names
one of its nodes. -/
theorem schemas_come_back_from_every_layout :
    (∀ (s : TypeSchema) (v : Json), Everywhere IsNormal s → Written s v →
      ∀ inside, shapeInside inside v = some s) ∧
    (∀ s : TypeSchema, Everywhere IsNormal s → Everywhere (·.kind ≠ .lazy) s →
      ∃ v, Written s v) ∧
    ∀ (v : Json) (inside : Bool) (s : TypeSchema), shapeInside inside v = some s →
      Everywhere (·.kind ≠ .lazy) s ∧
        ((∃ d, s.convert = .ok d) ∨ ∃ n ∈ preorder s, s.convert = .error n.unsupported) := by
  refine ⟨fun s v hs h => shapeWithin_of_written hs h (Nat.le_refl _), fun s => exists_written,
    fun v inside s h => ⟨not_lazy_of_shapeWithin h, ?_⟩⟩
  cases hconvert : s.convert with
  | ok d => exact .inl ⟨d, rfl⟩
  | error e =>
    obtain ⟨n, hn, rfl⟩ := (s.convert_eq_error_iff e).mp hconvert
    exact .inr ⟨n, List.mem_of_find?_eq_some hn, rfl⟩

/-- An object with its kind at the end, arrays and another name in it, and a key of no field. -/
theorem an_object_in_mixed_layouts_comes_back :
    shape (.obj [("fields", .obj [("a", .arr [.str "undefined"]), ("b", .obj [("note", .null),
        ("element", .arr [.str "function"]), ("kind", .str "array")])]), ("kind", .str "object")]) =
      some (object [("a", void), ("b", array function)]) ∧
    (∃ v, Written (object [("a", void), ("b", array function)]) v) ∧
    ∃ n ∈ preorder (object [("a", void), ("b", array function)]),
      (object [("a", void), ("b", array function)]).convert = .error n.unsupported := by
  have hvoid : Written void (.arr [.str "undefined"]) :=
    .bare rfl (.array ⟨["undefined", "never", "nan"], by decide, .inr List.mem_cons_self⟩)
  have hfunction : Written function (.arr [.str "function"]) :=
    .bare rfl (.array ⟨[], by decide, .inl rfl⟩)
  have horder := List.reverse_perm [("kind", Json.str "array"),
    ("element", .arr [.str "function"]), ("note", .null)]
  have harray : Written (array function) (.obj [("note", .null),
      ("element", .arr [.str "function"]), ("kind", .str "array")]) :=
    .array hfunction
      (@Laid.object _ _ "array" [("note", .null)] _ ⟨[], by decide, .inl rfl⟩ (by decide) horder)
  have hobject : Written (object [("a", void), ("b", array function)]) _ :=
    .object (.cons hvoid (.cons harray .nil))
      (@Laid.object _ _ "object" [] _ ⟨[], by decide, .inl rfl⟩ nofun (List.Perm.swap _ _ []))
  have hleaf : ∀ s : TypeSchema, s.isBare = true → Everywhere IsNormal s := by
    intro s hs
    cases s <;> first | (cases hs; done) | exact .intro trivial nofun
  have hnormal : Everywhere IsNormal (object [("a", void), ("b", array function)]) := by
    refine .intro (by simp [IsNormal, Entries.keys]) (List.forall_mem_cons.mpr ⟨hleaf void rfl, ?_⟩)
    refine List.forall_mem_singleton.mpr (.intro trivial ?_)
    exact List.forall_mem_singleton.mpr (hleaf function rfl)
  obtain ⟨hback, hlayout, hread⟩ := schemas_come_back_from_every_layout
  have hshape := hback _ _ hnormal hobject false
  obtain ⟨hlazy, hconvert⟩ := hread _ false _ hshape
  refine ⟨hshape, hlayout _ hnormal hlazy, hconvert.resolve_left ?_⟩
  rintro ⟨d, ⟨⟩⟩

end TypeSchema

end RestContract
