-- What conversion does not see. Wrappers, thunks and discriminators come and go without a trace,
-- at any depth; only the outermost mark of a field is read, for the list of required fields.
import Mathlib.Logic.Relation
import RestContract.Proofs.UnsupportedNodes

namespace RestContract.TypeSchema

/-! ## Rewrites -/

/-- A schema in place of another one that describes the same document. -/
inductive Rule : TypeSchema → TypeSchema → Prop where
  | optional (s : TypeSchema) : Rule s s.optional
  | nullable (s : TypeSchema) : Rule s s.nullable
  | exchange (s : TypeSchema) : Rule s.optional s.nullable
  | union (discriminator : String) (variants : List TypeSchema) :
      Rule (discriminatedUnion discriminator variants) (.union variants)
  | force (thunk : Nat) (built : TypeSchema) : Rule (lazy thunk built) built

/-- A place right below a node: how to build the node around the schema that stands there. The
fields of an object are not among these places. -/
inductive Place : (TypeSchema → TypeSchema) → Prop where
  | array : Place .array
  | tuple (before after : List TypeSchema) : Place fun s => .tuple (before ++ s :: after)
  | union (before after : List TypeSchema) : Place fun s => .union (before ++ s :: after)
  | discriminatedUnion (discriminator : String) (before after : List TypeSchema) :
      Place fun s => .discriminatedUnion discriminator (before ++ s :: after)
  | left (right : TypeSchema) : Place fun s => intersection s right
  | right (left : TypeSchema) : Place (intersection left)
  | optional : Place .optional
  | nullable : Place .nullable
  | lazy (thunk : Nat) : Place (.lazy thunk)
  | record : Place .record
  | key (value : TypeSchema) : Place fun s => map s value
  | value (key : TypeSchema) : Place (map key)
  | set : Place .set

/-- One rule applied at one place of a schema. In a field, the outermost layer has to say as
before whether the field may be absent: no wrapper comes or goes on a bare field, the last one of
a wrapped field stays, and a lazy field is not forced if its thunk builds a wrapped schema. -/
inductive Rewrites : TypeSchema → TypeSchema → Prop where
  | root {s s' : TypeSchema} (h : Rule s s') : Rewrites s s'
  | inside {around : TypeSchema → TypeSchema} {s s' : TypeSchema} (hplace : Place around)
      (h : Rewrites s s') : Rewrites (around s) (around s')
  | field (before : List (String × TypeSchema)) (name : String)
      (after : List (String × TypeSchema)) {s s' : TypeSchema} (h : Rewrites s s')
      (hmark : s.isOptionalOrNullable = s'.isOptionalOrNullable) :
      Rewrites (object (before ++ (name, s) :: after)) (object (before ++ (name, s') :: after))

/-! ## Alike conversions -/

/-- Two conversions give the same document, or both fail at a node of the same kind. -/
inductive Alike {β : Type} : Except SchemaError β → Except SchemaError β → Prop where
  | gives (d : β) : Alike (.ok d) (.ok d)
  | fails (kind node node' : String) :
      Alike (.error (.unsupported kind node)) (.error (.unsupported kind node'))

section Alike

variable {β γ : Type} {x y z : Except SchemaError β}

theorem Alike.symm (h : Alike x y) : Alike y x := by
  cases h with
  | gives d => exact .gives d
  | fails kind node node' => exact .fails kind node' node

theorem Alike.trans (hxy : Alike x y) (hyz : Alike y z) : Alike x z := by
  cases hxy with
  | gives d => exact hyz
  | fails kind node => cases hyz with | fails _ _ node'' => exact .fails kind node node''

theorem Alike.bind {f g : β → Except SchemaError γ} (h : Alike x y)
    (hfg : ∀ d, Alike (f d) (g d)) : Alike (x >>= f) (y >>= g) := by
  cases h with
  | gives d => exact hfg d
  | fails kind node node' => exact .fails kind node node'

theorem alike_self_of_answers {blamed : Option TypeSchema} (h : Answers blamed x) :
    Alike x x := by
  cases h with
  | gives d => exact .gives d
  | blames n => exact .fails _ _ _

end Alike

theorem alike_convert_self (s : TypeSchema) : Alike s.convert s.convert :=
  alike_self_of_answers s.answers_convert

section Congruence

variable {s s' : TypeSchema} (h : Alike s.convert s'.convert)
include h

/-- Lists that differ at one place are converted alike if the schemas there are. -/
theorem alike_mapM (before after : List TypeSchema) :
    Alike ((before ++ s :: after).mapM convert) ((before ++ s' :: after).mapM convert) := by
  induction before with
  | nil =>
    have hafter : Alike (after.mapM convert) (after.mapM convert) :=
      alike_self_of_answers (answers_mapM fun t _ => t.answers_convert)
    simp only [List.nil_append, List.mapM_cons]
    exact h.bind fun d => hafter.bind fun ds => .gives (d :: ds)
  | cons b before ih =>
    simp only [List.cons_append, List.mapM_cons]
    exact (alike_convert_self b).bind fun d => ih.bind fun ds => .gives (d :: ds)

theorem Place.alike {around : TypeSchema → TypeSchema} (hplace : Place around) :
    Alike (around s).convert (around s').convert := by
  cases hplace with
  | array =>
    simp only [convert]
    exact h.bind fun d => .gives _
  | tuple before after | union before after | discriminatedUnion _ before after =>
    simp only [convert, convertAll_eq]
    exact (alike_mapM h before after).bind fun ds => .gives _
  | left right =>
    simp only [convert]
    exact h.bind fun l => (alike_convert_self right).bind fun r => .gives _
  | right left =>
    simp only [convert]
    exact (alike_convert_self left).bind fun l => h.bind fun r => .gives _
  | optional | nullable | lazy => simpa only [convert] using h
  | record | key | value | set =>
    simp only [convert]
    exact .fails _ _ _

/-- The list of required fields reads no more of a field than its outermost layer. -/
theorem alike_field (before : List (String × TypeSchema)) (name : String)
    (after : List (String × TypeSchema))
    (hmark : s.isOptionalOrNullable = s'.isOptionalOrNullable) :
    Alike (object (before ++ (name, s) :: after)).convert
      (object (before ++ (name, s') :: after)).convert := by
  have hrequired : Document.requiredFields (before ++ (name, s) :: after) =
      Document.requiredFields (before ++ (name, s') :: after) := by
    simp only [Document.requiredFields, Entries.keys, List.filter_append, List.filter_cons, hmark]
    split <;> simp
  have hparts := alike_mapM h (Entries.values before) (Entries.values after)
  simp only [convert, convertFields_eq, hrequired, Entries.values, Entries.keys, List.map_append,
    List.map_cons]
  exact Alike.bind (Alike.bind hparts fun ds => .gives _) fun properties => .gives _

end Congruence

/-- A rule at the root changes neither the document nor the error. -/
theorem Rule.convert_eq {s s' : TypeSchema} (h : Rule s s') : s.convert = s'.convert := by
  cases h <;> simp only [convert]

theorem Rewrites.alike {s s' : TypeSchema} (h : Rewrites s s') :
    Alike s.convert s'.convert := by
  induction h with
  | @root s s' hrule => exact hrule.convert_eq ▸ alike_convert_self s
  | inside hplace _ ih => exact hplace.alike ih
  | field before name after _ hmark ih => exact alike_field ih before name after hmark

/-! ## The law -/

/-- However many rewrites lie between two schemas, in either direction, they have the same document
or both fail at a node of the same kind. A lazy field is required whatever its thunk builds. -/
theorem conversion_ignores_wrappers_laziness_and_discriminators :
    (∀ s s' : TypeSchema, Relation.EqvGen Rewrites s s' → Alike s.convert s'.convert) ∧
    ∀ (fields : List (String × TypeSchema)) (d : Document), (object fields).convert = .ok d →
      ∀ name thunk built, (name, lazy thunk built) ∈ fields → name ∈ d.required := by
  refine ⟨fun s s' h => ?_, fun fields d hconvert name thunk built hmem => ?_⟩
  · induction h with
    | rel s s' h => exact h.alike
    | refl s => exact alike_convert_self s
    | symm s s' _ ih => exact ih.symm
    | trans s t s' _ _ ihs iht => exact ihs.trans iht
  · obtain ⟨ds, -, rfl⟩ := exists_parts_of_convert hconvert
    exact List.mem_map_of_mem (List.mem_filter.mpr ⟨hmem, rfl⟩)

/-- A field that changes its mark and loses a thunk, a wrapper and a discriminator below it, and a
thunk that cannot go without its field being required no longer. -/
theorem a_field_is_rewritten_below_its_mark :
    Alike
      (object [("a", (lazy 0 (discriminatedUnion "kind" [string.nullable])).optional)]).convert
      (object [("a", (union [string]).nullable)]).convert ∧
    (∃ d, (object [("a", lazy 0 string.optional)]).convert = .ok d ∧ "a" ∈ d.required) ∧
    ∃ d, (object [("a", string.optional)]).convert = .ok d ∧ d.required = [] := by
  have hfield : ∀ {s s' : TypeSchema}, Rewrites s s' →
      s.isOptionalOrNullable = s'.isOptionalOrNullable →
      Relation.EqvGen Rewrites (object [("a", s)]) (object [("a", s')]) :=
    fun h hmark => .rel _ _ (.field [] "a" [] h hmark)
  have hmark := hfield
    (.root (.exchange (lazy 0 (discriminatedUnion "kind" [string.nullable])))) rfl
  have hthunk := hfield (.inside .nullable
    (.root (.force 0 (discriminatedUnion "kind" [string.nullable])))) rfl
  have hdiscriminator := hfield (.inside .nullable (.root (.union "kind" [string.nullable]))) rfl
  have hwrapper := hfield (.inside .nullable
    (.inside (.union [] []) (.root (.nullable string)))) rfl
  refine ⟨?_, ⟨_, rfl, ?_⟩, _, rfl, rfl⟩
  · exact conversion_ignores_wrappers_laziness_and_discriminators.1 _ _
      (hmark.trans _ _ _ <| hthunk.trans _ _ _ <| hdiscriminator.trans _ _ _ hwrapper.symm)
  · exact conversion_ignores_wrappers_laziness_and_discriminators.2
      [("a", lazy 0 string.optional)] _ rfl "a" 0 string.optional List.mem_cons_self

end RestContract.TypeSchema
