-- Definitions that are read from equal values. Handles without maps come out the same, maps and
-- schemas come out equal, and every compute unit keeps its identifier. So does every shape that a
-- definition is probed for, and every field around it.
import RestContract.Proofs.EqualReading
import RestContract.Proofs.SchemaEquality
import RestContract.Route.Definition
import RestContract.Schema.Shape

namespace RestContract

open Entries (Matches)
open Json (Alike)
open Shape

/-! ## Schemas -/

theorem TypeKind.respects_shape (inside : Bool) : Respects Eq (TypeKind.shape inside) := by
  intro v w h
  cases h.form with
  | str s => exact rel_eq_self _
  | @num m n hsame =>
    cases m <;> cases n
    case int.int m n =>
      obtain rfl : m = n := beq_iff_eq.mp hsame
      exact rel_eq_self _
    case float.float => exact .none
    all_goals cases hsame
  | _ => exact .none

theorem EnumValue.respects_shape :
    Respects (fun v w => v.same w = true) EnumValue.shape := by
  intro v w h
  cases h.form with
  | str s => exact .some (beq_self_eq_true s)
  | @num m n hsame =>
    cases m <;> cases n
    case int.int => exact .some hsame
    case float.float a b =>
      have hfinite : ∀ {d : Double}, (Json.num (.float d)).normal = .num (.float d) →
          d.isFinite = true := by
        intro d hd
        rw [Json.normal] at hd
        split at hd
        · assumption
        · cases hd
      rw [shape, shape, if_pos (hfinite h.left), if_pos (hfinite h.right)]
      exact .some hsame
    all_goals cases hsame
  | _ => exact .none

namespace TypeSchema

/-- A variant is read alike if the schemas inside are. -/
theorem respects_variantShape {inner : Shape TypeSchema}
    (hinner : Respects (fun s t => s.same t = true) inner) (kind : TypeKind) :
    Respects (fun s t => s.same t = true) (variantShape inner kind) := by
  intro v w h
  have hbare : ∀ s : TypeSchema, s.isBare = true → Option.Rel (fun s t => s.same t = true)
      (if nothingLeft v then some s else none) (if nothingLeft w then some s else none) := by
    intro s hs
    rw [nothingLeft_eq h]
    split
    · exact .some (same_iff.mpr (.bare hs))
    · exact .none
  have hone : ∀ {α : Type} {R : α → α → Prop} {shape : Shape α} (name : String)
      {f : α → TypeSchema}, Respects R shape → (∀ a b, R a b → (f a).same (f b) = true) →
      Option.Rel (fun s t => s.same t = true)
        ((fields [name] false v).bind fun fs => (required fs name shape).bind (some ∘ f))
        ((fields [name] false w).bind fun fs => (required fs name shape).bind (some ∘ f)) := by
    intro α R shape name f hshape hf
    exact rel_bind (respects_fields _ v w h) fun fs gs hfs =>
      rel_bind (rel_required hfs name hshape) fun a b hab => .some (hf a b hab)
  have htwo : ∀ {α : Type} {R : α → α → Prop} {shape : Shape α} (name : String)
      {β : Type} {S : β → β → Prop} {shape' : Shape β} (name' : String)
      {f : α → β → TypeSchema}, Respects R shape → Respects S shape' →
      (∀ a b, R a b → ∀ c d, S c d → (f a c).same (f b d) = true) →
      Option.Rel (fun s t => s.same t = true)
        ((fields [name, name'] false v).bind fun fs => (required fs name shape).bind fun a =>
          (required fs name' shape').bind fun c => some (f a c))
        ((fields [name, name'] false w).bind fun fs => (required fs name shape).bind fun a =>
          (required fs name' shape').bind fun c => some (f a c)) := by
    intro α R shape name β S shape' name' f hshape hshape' hf
    exact rel_bind (respects_fields _ v w h) fun fs gs hfs =>
      rel_bind (rel_required hfs name hshape) fun a b hab =>
        rel_bind (rel_required hfs name' hshape') fun c d hcd => .some (hf a b hab c d hcd)
  have hall := respects_list hinner
  cases kind with
  | literal => exact hone "value" respects_any fun a b hab => same_iff.mpr (.literal hab.same)
  | enum =>
    refine hone "values" (respects_list respects_text) fun a b hab => ?_
    rw [List.forall₂_eq_eq_eq] at hab
    exact hab ▸ same_iff.mpr (.enum a)
  | nativeEnum =>
    exact hone "values" (respects_map EnumValue.respects_shape) fun a b hab =>
      same_iff.mpr (.nativeEnum hab)
  | object =>
    have hnone : Matches (fun s t : TypeSchema => s.same t = true) ([] : Entries String TypeSchema)
        [] := ⟨rfl, nofun⟩
    exact rel_bind (respects_fields _ v w h) fun fs gs hfs =>
      rel_bind (rel_withDefault hfs "fields" hnone (respects_map hinner)) fun a b hab =>
        .some (same_iff.mpr (.object hab))
  | array => exact hone "element" hinner fun a b hab => same_iff.mpr (.array hab)
  | tuple => exact hone "elements" hall fun a b hab => same_iff.mpr (.tuple hab)
  | union => exact hone "variants" hall fun a b hab => same_iff.mpr (.union hab)
  | discriminatedUnion =>
    refine htwo "discriminator" "variants" respects_text hall fun a b hab c d hcd => ?_
    exact hab ▸ same_iff.mpr (.discriminatedUnion a hcd)
  | intersection =>
    exact htwo "left" "right" hinner hinner fun a b hab c d hcd =>
      same_iff.mpr (.intersection hab hcd)
  | optional => exact hone "inner" hinner fun a b hab => same_iff.mpr (.optional hab)
  | nullable => exact hone "inner" hinner fun a b hab => same_iff.mpr (.nullable hab)
  | lazy => exact .none
  | record => exact hone "value" hinner fun a b hab => same_iff.mpr (.record hab)
  | map =>
    exact htwo "key" "value" hinner hinner fun a b hab c d hcd => same_iff.mpr (.map hab hcd)
  | set => exact hone "element" hinner fun a b hab => same_iff.mpr (.set hab)
  | _ => exact hbare _ rfl

theorem respects_shapeWithin (depth : Nat) (inside : Bool) :
    Respects (fun s t => s.same t = true) (shapeWithin depth inside) := by
  induction depth generalizing inside with
  | zero => exact fun _ _ _ => .none
  | succ depth ih =>
    intro v w h
    have hread : ∀ v, shapeWithin (depth + 1) inside v = (tagged "kind" v).bind fun p =>
        (TypeKind.shape inside p.1).bind fun kind =>
          variantShape (shapeWithin depth true) kind p.2 := by
      intro v
      rw [shapeWithin]
      rcases tagged "kind" v with _ | ⟨tag, rest⟩
      · rfl
      · simp only [Option.bind_some]
        cases TypeKind.shape inside tag <;> rfl
    rw [hread, hread]
    refine rel_bind (respects_tagged "kind" v w h) fun p q ⟨htag, hrest⟩ => ?_
    refine rel_bind (TypeKind.respects_shape inside _ _ htag) fun kind _ hkind => ?_
    exact hkind ▸ respects_variantShape (ih true) kind _ _ hrest

theorem respects_shapeInside (inside : Bool) :
    Respects (fun s t => s.same t = true) (shapeInside inside) := by
  intro v w h
  rw [shapeInside, shapeInside, h.depth_eq]
  exact respects_shapeWithin _ inside v w h

end TypeSchema

/-! ## Metadata -/

theorem Authorizer.respects_shape : Respects Eq Authorizer.shape := by
  have hblank : ∀ v w : Json, v.Alike w → isNull v = isNull w := by
    intro v w h
    cases h.form <;> rfl
  intro v w h
  refine rel_bind (respects_fields _ v w h) fun fs gs hfs => ?_
  refine rel_bind (rel_required hfs "id" respects_text) ?_
  rintro id _ rfl
  refine rel_bind (rel_withDefault hfs "kind" rfl (respects_choice hblank _)) ?_
  rintro kind _ rfl
  refine rel_bind (rel_maybe hfs "identitySource" respects_text) fun source source' hsource => ?_
  obtain rfl := eq_of_rel_eq hsource
  exact .some rfl

theorem RouteAuth.respects_shape : Respects Eq RouteAuth.shape := by
  intro v w h
  have hauthorizer : Option.Rel Eq ((Authorizer.shape v).map authorizer)
      ((Authorizer.shape w).map authorizer) :=
    rel_map (Authorizer.respects_shape v w h) fun _ _ => congrArg authorizer
  cases h.form with
  | bool b => cases b <;> exact .some rfl
  | _ => exact hauthorizer

/-- Responses with one status code and equal schemas. -/
def ResponseSpec.Agrees (r s : ResponseSpec) : Prop :=
  r.statusCode = s.statusCode ∧ r.schema.same s.schema = true

theorem ResponseSpec.respects_shape (inside : Bool) :
    Respects ResponseSpec.Agrees (ResponseSpec.shape inside) := by
  intro v w h
  refine rel_bind (respects_fields _ v w h) fun fs gs hfs => ?_
  refine rel_bind (rel_required hfs "statusCode" (respects_upTo _)) fun code _ hcode => ?_
  refine rel_bind (rel_required hfs "schema" (TypeSchema.respects_shapeInside inside))
    fun schema _ hschema => ?_
  exact .some ⟨hcode, hschema⟩

namespace Responses

theorem same_list {rs ss : List ResponseSpec} (h : List.Forall₂ ResponseSpec.Agrees rs ss) :
    (list rs).same (list ss) = true := by
  rw [same, h.length_eq, beq_self_eq_true, Bool.true_and]
  induction h with
  | nil => rfl
  | cons hrs _ ih => simp [hrs.1, hrs.2, ih]

theorem respects_shape : Respects (fun r s => r.same s = true) Responses.shape :=
  respects_either (respects_list (ResponseSpec.respects_shape true))
    (TypeSchema.respects_shapeInside true) (fun _ _ => same_list) fun _ _ => id

end Responses

/-! ## Compute units and integrations -/

theorem ComputeUnit.respects_shape : Respects Eq ComputeUnit.shape := by
  intro v w h
  have hfields := respects_fields ["functionName", "arn"] v w h
  cases h.form with
  | str s => exact .some rfl
  | obj _ =>
    refine rel_bind hfields fun fs gs hfs => ?_
    refine rel_bind (rel_required hfs "functionName" respects_text) ?_
    rintro name _ rfl
    refine rel_bind (rel_maybe hfs "arn" respects_text) fun arn arn' harn => ?_
    obtain rfl := eq_of_rel_eq harn
    exact .some rfl
  | _ => exact .none

/-- The compute unit that an integration invokes. -/
def Integration.unit? : Integration → Option ComputeUnit
  | .lambda l => some l.function
  | _ => none

/-- Integrations that are equal, and invoke the same compute unit under the same identifier. -/
def Integration.Agrees (i j : Integration) : Prop := i.same j = true ∧ i.unit? = j.unit?

theorem LambdaIntegration.respects_shape :
    Respects (fun l m => l.same m = true ∧ l.function = m.function) LambdaIntegration.shape := by
  have hnone : Matches Eq ([] : Entries String String) [] := ⟨rfl, nofun⟩
  intro v w h
  refine rel_bind (respects_fields _ v w h) fun fs gs hfs => ?_
  refine rel_bind (rel_required hfs "function" ComputeUnit.respects_shape) ?_
  rintro function _ rfl
  refine rel_bind (rel_withDefault hfs "proxy" rfl respects_flag) ?_
  rintro proxy _ rfl
  refine rel_bind (rel_maybe hfs "timeoutMs" (respects_upTo _)) fun timeout timeout' htimeout => ?_
  obtain rfl := eq_of_rel_eq htimeout
  refine rel_bind (rel_withDefault hfs "requestParameters" hnone (respects_map respects_text))
    fun parameters parameters' hparameters => ?_
  refine rel_bind (rel_withDefault hfs "requestTemplates" hnone (respects_map respects_text))
    fun templates templates' htemplates => ?_
  refine .some ⟨?_, rfl⟩
  rw [← Entries.same_eq_iff] at hparameters htemplates
  simp [same, ComputeUnit.same, hparameters, htemplates]

theorem HttpIntegration.respects_shape : Respects Eq HttpIntegration.shape := by
  have hblank : ∀ v w : Json, v.Alike w → saysNothing v = saysNothing w := by
    intro v w h
    cases h.form with
    | @obj as bs hmatches =>
      match as, bs, hmatches.length_eq with
      | [], [], _ => rfl
      | _ :: _, _ :: _, _ => rfl
    | _ => rfl
  intro v w h
  refine rel_bind (respects_fields _ v w h) fun fs gs hfs => ?_
  refine rel_bind (rel_required hfs "uri" respects_text) ?_
  rintro uri _ rfl
  refine rel_bind (rel_withDefault hfs "httpMethod" rfl (respects_choice hblank _)) ?_
  rintro method _ rfl
  refine rel_bind (rel_withDefault hfs "proxy" rfl respects_flag) ?_
  rintro proxy _ rfl
  exact .some rfl

theorem MockIntegration.respects_shape :
    Respects (fun m n => m.same n = true) MockIntegration.shape := by
  have hnone : Matches Eq ([] : Entries String String) [] := ⟨rfl, nofun⟩
  intro v w h
  refine rel_bind (respects_fields _ v w h) fun fs gs hfs => ?_
  refine rel_bind (rel_withDefault hfs "requestTemplates" hnone (respects_map respects_text))
    fun templates templates' htemplates => ?_
  exact .some (Entries.same_eq_iff.mpr htemplates)

namespace Integration

/-- The integration of a type, given what is left behind the tag. -/
def variantShape (type : Json) : Shape Integration := fun rest =>
  match type with
  | .str "lambda" => (LambdaIntegration.shape rest).map lambda
  | .str "http" => (HttpIntegration.shape rest).map http
  | .str "mock" => (MockIntegration.shape rest).map mock
  | _ => none

theorem shape_eq (v : Json) :
    shape v = (tagged "type" v).bind fun p => variantShape p.1 p.2 := by
  unfold shape
  rcases tagged "type" v with _ | ⟨type, rest⟩
  · rfl
  · unfold variantShape
    simp only [Option.bind_some]
    split <;> simp_all

theorem respects_variantShape (type : Json) : Respects Agrees (variantShape type) := by
  intro v w h
  unfold variantShape
  split
  · exact rel_map (LambdaIntegration.respects_shape v w h) fun l m hlm =>
      ⟨hlm.1, congrArg some hlm.2⟩
  · refine rel_map (HttpIntegration.respects_shape v w h) ?_
    rintro c _ rfl
    exact ⟨beq_self_eq_true c, rfl⟩
  · exact rel_map (MockIntegration.respects_shape v w h) fun _ _ hmn => ⟨hmn, rfl⟩
  · exact .none

theorem respects_shape : Respects Agrees shape := by
  intro v w h
  rw [shape_eq, shape_eq]
  refine rel_bind (respects_tagged "type" v w h) ?_
  rintro ⟨type, rest⟩ ⟨type', rest'⟩ ⟨htype, hrest⟩
  have heq : variantShape type = variantShape type' := by
    cases htype.form <;> rfl
  rw [heq]
  exact respects_variantShape type' rest rest' hrest

end Integration

/-! ## Definitions -/

namespace ResourceDefinition

/-- The compute unit that serves a definition. -/
def unit? : ResourceDefinition → Option ComputeUnit
  | integration i | wrapped i _ => i.unit?
  | compute c => some c.function

/-- Equality of definitions. Compute units are compared by their names. -/
def same : ResourceDefinition → ResourceDefinition → Bool
  | integration i, integration j => i.same j
  | wrapped i m, wrapped j n => i.same j && m.same n
  | compute c, compute d => c.same d
  | _, _ => false

/-- Definitions that are equal, and name the same compute unit under the same identifier. -/
def Agrees (d e : ResourceDefinition) : Prop := d.same e = true ∧ d.unit? = e.unit?

/-- Two definitions were read from these values and go together, or the same field of both is
refused, or each value is refused as it is. -/
inductive AgreeOn (R : ResourceDefinition → ResourceDefinition → Prop) (v w : Json) :
    Except DefinitionError ResourceDefinition → Except DefinitionError ResourceDefinition → Prop
  | ok {d e : ResourceDefinition} (h : R d e) : AgreeOn R v w (.ok d) (.ok e)
  | invalidField (name : String) :
      AgreeOn R v w (.error (.invalidField name)) (.error (.invalidField name))
  | unrecognized : AgreeOn R v w (.error (.unrecognized v)) (.error (.unrecognized w))

/-- Two steps of reading come to values that go together, or refuse the same field. -/
inductive Reads {α : Type} (R : α → α → Prop) :
    Except DefinitionError α → Except DefinitionError α → Prop
  | ok {a b : α} (h : R a b) : Reads R (.ok a) (.ok b)
  | invalidField (name : String) :
      Reads R (.error (.invalidField name)) (.error (.invalidField name))

theorem Reads.bind {α β : Type} {R : α → α → Prop} {S : β → β → Prop}
    {x y : Except DefinitionError α} {f g : α → Except DefinitionError β} (h : Reads R x y)
    (hf : ∀ a b, R a b → Reads S (f a) (g b)) : Reads S (x >>= f) (y >>= g) := by
  cases h with
  | ok hab => exact hf _ _ hab
  | invalidField name => exact .invalidField name

theorem field_of_ne_null {α : Type} {shape : Shape α} {v raw : Json} {name : String}
    (hraw : v.get? name = some raw) (hnull : raw ≠ .null) :
    field v name shape = (shape raw).elim (.error (.invalidField name)) (.ok ∘ some) := by
  unfold field
  rw [hraw]
  cases hshape : shape raw <;> simp [hshape]

/-- A field is read alike from values that hold alike values there, or none. -/
theorem reads_field {α : Type} {R : α → α → Prop} {shape : Shape α} {v w : Json} {name : String}
    (h : Option.Rel Alike (v.get? name) (w.get? name)) (hshape : Respects R shape) :
    Reads (Option.Rel R) (field v name shape) (field w name shape) := by
  rcases hv : v.get? name with _ | raw <;> rcases hw : w.get? name with _ | raw' <;>
    rw [hv, hw] at h
  · rw [field, field, hv, hw]
    exact .ok .none
  · cases h
  · cases h
  · have halike := Option.rel_some_some.mp h
    by_cases hnull : raw = .null
    · subst hnull
      cases halike.form
      rw [field, field, hv, hw]
      exact .ok .none
    · have hnull' : raw' ≠ .null := by
        rintro rfl
        cases halike.form
        exact hnull rfl
      rw [field_of_ne_null hv hnull, field_of_ne_null hw hnull']
      have hrel := hshape raw raw' halike
      generalize shape raw = x, shape raw' = y at hrel ⊢
      cases hrel with
      | some hab => exact .ok (.some hab)
      | none => exact .invalidField name

theorem sameOption_of_rel {α : Type} {eq : α → α → Bool} {x y : Option α}
    (h : Option.Rel (fun a b => eq a b = true) x y) : sameOption eq x y = true := by
  cases h with
  | some hab => exact hab
  | none => rfl

section Reading

variable {v w : Json}

/-- Metadata is read alike from values that hold alike values under its keys. -/
theorem reads_readMetadata (h : ∀ name, Option.Rel Alike (v.get? name) (w.get? name)) :
    Reads (fun m n => m.same n = true) (readMetadata v) (readMetadata w) := by
  refine (reads_field (h "auth") RouteAuth.respects_shape).bind fun auth auth' hauth => ?_
  obtain rfl := eq_of_rel_eq hauth
  refine (reads_field (h "request") (TypeSchema.respects_shapeInside false)).bind
    fun request request' hrequest => ?_
  refine (reads_field (h "responses") Responses.respects_shape).bind
    fun responses responses' hresponses => ?_
  refine (reads_field (h "authorizationScopes") (respects_list respects_text)).bind
    fun scopes scopes' hscopes => ?_
  rw [List.forall₂_eq_eq_eq] at hscopes
  obtain rfl := eq_of_rel_eq hscopes
  refine .ok ?_
  simp [RouteMetadata.same, sameOption_of_rel hrequest, sameOption_of_rel hresponses]

/-- The rest of a definition that names a compute unit is read alike. -/
theorem reads_compute (h : ∀ name, Option.Rel Alike (v.get? name) (w.get? name))
    (function : ComputeUnit) :
    Reads Agrees (ofProbe v (.compute function)) (ofProbe w (.compute function)) := by
  refine (reads_field (h "proxy") respects_flag).bind fun proxy proxy' hproxy => ?_
  obtain rfl := eq_of_rel_eq hproxy
  refine (reads_field (h "timeoutMs") (respects_upTo _)).bind fun timeout timeout' htimeout => ?_
  obtain rfl := eq_of_rel_eq htimeout
  refine (reads_field (h "queryParams") (respects_map respects_flag)).bind
    fun params params' hparams => ?_
  refine (reads_readMetadata h).bind fun metadata metadata' hmetadata => ?_
  have hqueryParams : Entries.same (· == ·) (params.getD []) (params'.getD []) = true := by
    cases hparams with
    | some hmatches => exact Entries.same_eq_iff.mpr hmatches
    | none => rfl
  refine .ok ⟨?_, rfl⟩
  simp [same, ComputeDefinition.same, ComputeUnit.same, hqueryParams, hmetadata]

theorem AgreeOn.of_reads {R : ResourceDefinition → ResourceDefinition → Prop}
    {x y : Except DefinitionError ResourceDefinition} (h : Reads R x y) : AgreeOn R v w x y := by
  cases h with
  | ok hde => exact .ok hde
  | invalidField name => exact .invalidField name

end Reading

/-- Alike values are probed alike. -/
theorem agreeOn_of_alike {v w : Json} (h : v.Alike w) :
    AgreeOn Agrees v w (probe v) (probe w) := by
  have hget : ∀ name, Option.Rel Alike (v.get? name) (w.get? name) := by
    intro name
    cases h.form with
    | obj _ => exact h.of_obj.2.2 name
    | _ => exact .none
  have hintegration := Integration.respects_shape v w h
  have hwrapped := rel_bind (hget "integration") Integration.respects_shape
  have hfunction := rel_bind (hget "function") ComputeUnit.respects_shape
  unfold probe Probe.of
  revert hintegration
  cases Integration.shape v <;> cases Integration.shape w <;> intro hintegration
  · revert hwrapped
    cases (v.get? "integration").bind Integration.shape <;>
      cases (w.get? "integration").bind Integration.shape <;> intro hwrapped
    · rw [eq_of_rel_eq hfunction]
      cases (w.get? "function").bind ComputeUnit.shape with
      | none => exact .unrecognized
      | some u => exact .of_reads (reads_compute hget u)
    · cases hwrapped
    · cases hwrapped
    · rename_i i j
      obtain ⟨hsame, hunit⟩ := Option.rel_some_some.mp hwrapped
      refine .of_reads ((reads_readMetadata hget).bind fun m n hmn => .ok ⟨?_, hunit⟩)
      exact Bool.and_eq_true_iff.mpr ⟨hsame, hmn⟩
  · cases hintegration
  · cases hintegration
  · obtain ⟨hsame, hunit⟩ := Option.rel_some_some.mp hintegration
    exact .ok ⟨hsame, hunit⟩

end ResourceDefinition

end RestContract
