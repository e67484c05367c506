-- Equal schemas convert alike. Equality forgets the order of fields and of enum entries, and what
-- is left of this order in the documents is the order of lists that stand for sets.
import RestContract.Proofs.ConsistentDocuments
import RestContract.Proofs.ReorderedDocuments
import RestContract.Proofs.SchemaEquality
import RestContract.Proofs.UnsupportedNodes

namespace RestContract

open Entries (Matches SameKey)
open HasParts (preorder preorder_subset)

/-! ## Compiled enums in another order -/

namespace Document

section Enums

variable {as bs : Entries String EnumValue}

theorem isForward_eq_of_same (h : List.Forall₂ (SameKey fun v w => v.same w = true) as bs)
    {v w : EnumValue} (hvw : v.same w = true) : isForward as v = isForward bs w := by
  have hfound : ∀ key, (Entries.get? as key).any EnumValue.isNumber =
      (Entries.get? bs key).any EnumValue.isNumber := by
    intro key
    induction h with
    | nil => rfl
    | @cons e f as bs hef _ ih =>
      rw [Entries.get?, Entries.get?, List.lookup_cons, List.lookup_cons, hef.1]
      cases key == f.1
      · exact ih
      · exact EnumValue.isNumber_eq_of_same hef.2
  rw [isForward, isForward, EnumValue.key_eq_of_same hvw, hfound]

/-- Which values are kept does not depend on the order of the entries. -/
theorem keptValues_perm (hbs : (Entries.keys bs).Nodup) (h : as.Perm bs) :
    (keptValues as).Perm (keptValues bs) := by
  have hforward : isForward as = isForward bs := by
    funext v
    rw [isForward, isForward, Entries.get?_perm h ((h.map Prod.fst).nodup_iff.mpr hbs)]
  rw [keptValues, keptValues, hforward]
  exact (h.map Prod.snd).filter _

theorem typesOf_reorders {vs ws : List EnumValue} (h : vs.Perm ws) :
    (typesOf vs).Reorders (typesOf ws) := by
  have hperm : (vs.map typeOf).eraseDups.Perm (ws.map typeOf).eraseDups := by
    rw [List.perm_ext_iff_of_nodup (Entries.nodup_eraseDups _) (Entries.nodup_eraseDups _)]
    simp only [List.mem_eraseDups, (h.map typeOf).mem_iff, implies_true]
  unfold typesOf
  generalize (vs.map typeOf).eraseDups = ts, (ws.map typeOf).eraseDups = us at hperm
  split
  · obtain rfl := List.singleton_perm.mp hperm
    exact .one _
  · rename_i hmany
    split
    · exact absurd (List.perm_singleton.mp hperm) (hmany _)
    · exact .anyOf hperm

theorem typesOf_eq_of_same {vs ws : List EnumValue}
    (h : List.Forall₂ (fun v w => v.same w = true) vs ws) : typesOf vs = typesOf ws := by
  have hmap : vs.map typeOf = ws.map typeOf := by
    rw [← List.forall₂_eq_eq_eq, List.forall₂_map_left_iff, List.forall₂_map_right_iff]
    refine h.imp fun v w hvw => ?_
    rw [typeOf, typeOf, EnumValue.isNumber_eq_of_same hvw]
  rw [typesOf, typesOf, hmap]

theorem agrees_ofNativeEnum (has : (Entries.keys as).Nodup) (hbs : (Entries.keys bs).Nodup)
    (h : Matches (fun v w => v.same w = true) as bs) :
    (ofNativeEnum as).Agrees (ofNativeEnum bs) := by
  obtain ⟨bs', hperm, hside⟩ := h.exists_aligned has
  have hsame : List.Forall₂ (fun v w => v.same w = true) (keptValues as) (keptValues bs') := by
    refine List.rel_filter (fun v w hvw => ?_) (Entries.forall₂_values hside)
    exact Bool.eq_iff_iff.mp (isForward_eq_of_same hside hvw)
  have hkept := keptValues_perm hbs hperm
  by_cases hnone : keptValues as = []
  · rw [hnone, List.forall₂_nil_left_iff] at hsame
    rw [hsame, List.nil_perm] at hkept
    rw [ofNativeEnum_of_isEmpty hnone, ofNativeEnum_of_isEmpty hkept]
    exact .of_same same_never
  · have hsome : keptValues bs ≠ [] := by
      rintro hbs
      rw [hbs, List.perm_nil] at hkept
      rw [hkept, List.forall₂_nil_right_iff] at hsame
      exact hnone hsame
    rw [ofNativeEnum_of_ne_nil hnone, ofNativeEnum_of_ne_nil hsome]
    refine agrees_of_values ?_ (hkept.symm.map EnumValue.toJson) ?_
    · rw [typesOf_eq_of_same hsame]
      exact typesOf_reorders hkept.symm
    · rw [Json.sameItems_iff, List.forall₂_map_left_iff, List.forall₂_map_right_iff]
      exact hsame.imp fun v w hvw => (EnumValue.same_toJson v w).trans hvw

end Enums

theorem agrees_ofLiteral {v w : Json} (h : v.same w = true) :
    ((ofLiteral? v).getD any).Agrees ((ofLiteral? w).getD any) := by
  have hvalues : Json.sameItems [v] [w] = true :=
    Json.sameItems_iff.mpr (.cons h .nil)
  cases Json.same_iff.mp h with
  | null => exact .of_same (same_of_values rfl)
  | arr | obj => exact .of_same same_any
  | bool | num | str => exact .of_same (same_of_values hvalues)

end Document

namespace TypeSchema

open Document

/-! ## The parts of equal schemas -/

/-- A thunk that is in both schemas builds one schema. -/
def ThunksAgree (a b : TypeSchema) : Prop :=
  ∀ n s t, lazy n s ∈ preorder a → lazy n t ∈ preorder b → s = t

section Parts

variable {a b : TypeSchema}

theorem ThunksAgree.symm (h : ThunksAgree a b) : ThunksAgree b a :=
  fun n s t hs ht => (h n t s ht hs).symm

theorem ThunksAgree.of_parts (h : ThunksAgree a b) {p q : TypeSchema} (hp : p ∈ a.parts)
    (hq : q ∈ b.parts) : ThunksAgree p q :=
  fun n s t hs ht => h n s t (preorder_subset hp hs) (preorder_subset hq ht)

theorem isUnsupported_eq_of_same (h : a.same b = true) : a.isUnsupported = b.isUnsupported := by
  cases same_iff.mp h with
  | literal h => cases Json.same_iff.mp h <;> rfl
  | _ => rfl

theorem isOptionalOrNullable_eq_of_same (h : a.same b = true) :
    a.isOptionalOrNullable = b.isOptionalOrNullable := by
  cases same_iff.mp h <;> rfl

/-- Besides objects, equal schemas have equal parts side by side. -/
theorem forall₂_parts_of_same (ha : Everywhere IsNormal a) (hthunks : ThunksAgree a b)
    (h : a.same b = true) (hobject : a.kind ≠ .object) :
    List.Forall₂ (fun p q => p.same q = true) a.parts b.parts := by
  cases same_iff.mp h with
  | object => exact absurd rfl hobject
  | tuple hall | union hall | discriminatedUnion d hall => exact hall
  | array hinner | optional hinner | nullable hinner => exact .cons hinner .nil
  | intersection hleft hright => exact .cons hleft (.cons hright .nil)
  | lazy n s t =>
    have hst : s = t := hthunks n s t (HasParts.mem_preorder_self _) (HasParts.mem_preorder_self _)
    exact .cons (hst ▸ same_self (ha.of_mem List.mem_cons_self)) .nil
  | bare hbare =>
    have hnone : a.parts = [] := by cases a <;> first | rfl | cases hbare
    rw [hnone]
    exact .nil
  | _ => exact .nil

theorem exists_same_part (ha : Everywhere IsNormal a) (hthunks : ThunksAgree a b)
    (h : a.same b = true) {p : TypeSchema} (hp : p ∈ a.parts) :
    ∃ q ∈ b.parts, p.same q = true := by
  cases a with
  | object fields =>
    cases same_iff.mp h with
    | bare hbare => cases hbare
    | object hfields =>
      obtain ⟨e, he, rfl⟩ := List.mem_map.mp hp
      obtain ⟨q, hq, hsame⟩ := hfields.found e he
      exact ⟨q, List.mem_map_of_mem (Entries.mem_of_get? hq), hsame⟩
  | _ => exact exists_mem_of_forall₂ (forall₂_parts_of_same ha hthunks h nofun) hp

end Parts

/-! ## Which schemas have a document -/

/-- A supported schema has a document if all of its parts have one. -/
theorem exists_convert_iff_parts {s : TypeSchema} : (∃ d, s.convert = .ok d) ↔
    s.isUnsupported = false ∧ ∀ p ∈ s.parts, ∃ d, p.convert = .ok d := by
  constructor
  · rintro ⟨d, hd⟩
    obtain ⟨ds, hds, -⟩ := exists_parts_of_convert hd
    rw [mapM_convert_iff] at hds
    refine ⟨?_, fun p hp => (exists_mem_of_forall₂ hds hp).imp fun _ => And.right⟩
    by_contra hunsupported
    rw [convert_eq, if_pos (Bool.of_not_eq_false hunsupported)] at hd
    cases hd
  · rintro ⟨hsupported, hparts⟩
    obtain ⟨ds, hds⟩ := exists_forall₂_of_forall hparts
    refine ⟨s.document ds, ?_⟩
    rw [convert_eq, hsupported, mapM_convert_iff.mpr hds]
    rfl

theorem exists_convert_of_same {a b : TypeSchema} (ha : Everywhere IsNormal a)
    (hb : Everywhere IsNormal b) (hthunks : ThunksAgree a b) (h : a.same b = true)
    (hconvert : ∃ e, b.convert = .ok e) : ∃ d, a.convert = .ok d := by
  induction ha generalizing b with
  | @intro a here below ih =>
    obtain ⟨hsupported, hparts⟩ := exists_convert_iff_parts.mp hconvert
    refine exists_convert_iff_parts.mpr ⟨isUnsupported_eq_of_same h ▸ hsupported, fun p hp => ?_⟩
    obtain ⟨q, hq, hsame⟩ := exists_same_part (.intro here below) hthunks h hp
    exact ih p (a.parts_subset_components hp) (hb.of_mem (b.parts_subset_components hq))
      (hthunks.of_parts hp hq) hsame (hparts q hq)

/-! ## The documents of equal schemas -/

/-- Besides objects, the documents of a node come from the documents of its parts, side by side. -/
theorem agrees_document {a b : TypeSchema} (ha : a.IsNormal) (hb : b.IsNormal)
    (hobject : a.kind ≠ .object) (h : a.same b = true) {ds es : List Document}
    (hds : List.Forall₂ Agrees ds es) : (a.document ds).Agrees (b.document es) := by
  cases same_iff.mp h with
  | object => exact absurd rfl hobject
  | bare hbare =>
    cases a
    case void => exact .of_same same_never
    case unknown | function => exact .of_same same_any
    case string | number | boolean | bigint | null | date => exact .of_same (same_of_values rfl)
    all_goals cases hbare
  | literal hvalue => exact agrees_ofLiteral hvalue
  | enum values =>
    refine .of_same (same_of_values (Json.sameItems_iff.mpr (List.forall₂_same.mpr fun v hv => ?_)))
    obtain ⟨s, -, rfl⟩ := List.mem_map.mp hv
    exact beq_self_eq_true s
  | nativeEnum hvalues => exact agrees_ofNativeEnum ha.1 hb.1 hvalues
  | array => exact agrees_arrayOf (agrees_headD hds)
  | tuple => exact agrees_places hds
  | union | discriminatedUnion => exact agrees_oneOf hds
  | intersection => exact agrees_allOf hds
  | optional | nullable | lazy => exact agrees_headD hds
  | record | map | set => exact .of_same same_any

section Objects

variable {as bs : Entries String TypeSchema}

theorem requiredFields_perm (has : (Entries.keys as).Nodup)
    (h : Matches (fun s t => s.same t = true) as bs) :
    (requiredFields bs).Perm (requiredFields as) := by
  obtain ⟨bs', hperm, hside⟩ := h.exists_aligned has
  have hkeep : List.Forall₂ (SameKey fun s t => s.same t = true)
      (as.filter fun f => !f.2.isOptionalOrNullable)
      (bs'.filter fun f => !f.2.isOptionalOrNullable) := by
    refine List.rel_filter (fun e f hef => ?_) hside
    show (!e.2.isOptionalOrNullable) = true ↔ (!f.2.isOptionalOrNullable) = true
    rw [isOptionalOrNullable_eq_of_same hef.2]
  rw [requiredFields, requiredFields, Entries.keys_eq_of_forall₂ hkeep]
  exact (hperm.symm.filter _).map _

theorem agrees_objects (has : (Entries.keys as).Nodup) (hbs : (Entries.keys bs).Nodup)
    (h : Matches (fun s t => s.same t = true) as bs) {ds es : List Document}
    (hds : List.Forall₂ (fun s d => s.convert = .ok d) (Entries.values as) ds)
    (hes : List.Forall₂ (fun s d => s.convert = .ok d) (Entries.values bs) es)
    (hagree : ∀ p ∈ Entries.values as, ∀ q ∈ Entries.values bs, p.same q = true →
      ∀ d e, p.convert = .ok d → q.convert = .ok e → d.Agrees e) :
    ((object as).document ds).Agrees ((object bs).document es) := by
  have has' := Entries.forall₂_keys_zip hds
  have hbs' := Entries.forall₂_keys_zip hes
  have hps : (Entries.keys ((Entries.keys as).zip ds)).Nodup :=
    Entries.keys_eq_of_forall₂ has' ▸ has
  have hqs : (Entries.keys ((Entries.keys bs).zip es)).Nodup :=
    Entries.keys_eq_of_forall₂ hbs' ▸ hbs
  refine agrees_of_properties (Entries.keys_ofPairs_nodup _) (Entries.keys_ofPairs_nodup _) ?_
    (requiredFields_perm has h)
  rw [Entries.ofPairs_of_nodup hps, Entries.ofPairs_of_nodup hqs]
  exact h.of_aligned hbs has' hbs' fun e he f hf hsame d d' hd hd' =>
    hagree e.2 (List.mem_map_of_mem he) f.2 (List.mem_map_of_mem hf) hsame d d' hd hd'

end Objects

theorem agrees_of_convert {a b : TypeSchema} (ha : Everywhere IsNormal a)
    (hb : Everywhere IsNormal b) (hthunks : ThunksAgree a b) (h : a.same b = true)
    {d e : Document} (hd : a.convert = .ok d) (he : b.convert = .ok e) : d.Agrees e := by
  induction ha generalizing b d e with
  | @intro a here below ih =>
    obtain ⟨ds, hds, rfl⟩ := exists_parts_of_convert hd
    obtain ⟨es, hes, rfl⟩ := exists_parts_of_convert he
    rw [mapM_convert_iff] at hds hes
    have hagree : ∀ p ∈ a.parts, ∀ q ∈ b.parts, p.same q = true → ∀ d e, p.convert = .ok d →
        q.convert = .ok e → d.Agrees e := fun p hp q hq hsame d e hd he =>
      ih p (a.parts_subset_components hp) (hb.of_mem (b.parts_subset_components hq))
        (hthunks.of_parts hp hq) hsame hd he
    cases a with
    | object fields =>
      cases same_iff.mp h with
      | bare hbare => cases hbare
      | object hfields => exact agrees_objects here hb.here hfields hds hes hagree
    | _ =>
      have hparts := forall₂_parts_of_same (.intro here below) hthunks h nofun
      exact agrees_document here hb.here nofun h (forall₂_of_aligned hparts hds hes hagree)

/-! ## The law -/

/-- Of two equal schemas both have a document or none has, and the documents are equal up to the
order of required names, of values and of types. Equality of schemas is an equivalence. -/
theorem equal_schemas_convert_alike :
    (∀ a b : TypeSchema, Everywhere IsNormal a → Everywhere IsNormal b → ThunksAgree a b →
      a.same b = true → ((∃ d, a.convert = .ok d) ↔ ∃ e, b.convert = .ok e) ∧
        ∀ d e, a.convert = .ok d → b.convert = .ok e → ∃ e', e.Reorders e' ∧ d.same e' = true) ∧
    (∀ a : TypeSchema, Everywhere IsNormal a → a.same a = true) ∧
    (∀ a b : TypeSchema, Everywhere IsNormal a → Everywhere IsNormal b → a.same b = true →
      b.same a = true) ∧
    ∀ a b c : TypeSchema, a.same b = true → b.same c = true → a.same c = true := by
  refine ⟨fun a b ha hb hthunks h => ⟨⟨?_, ?_⟩, ?_⟩, fun a => same_self, fun a b => same_symm,
    fun a b c => same_trans⟩
  · exact exists_convert_of_same hb ha hthunks.symm (same_symm ha hb h)
  · exact exists_convert_of_same ha hb hthunks h
  · exact fun d e hd he => agrees_of_convert ha hb hthunks h hd he

/-- Fields and enum entries in two orders, and a shared thunk. -/
theorem an_object_in_two_orders_converts_alike :
    ∃ d e e', (object [("id", string), ("next", lazy 7 (array number)),
        ("state", nativeEnum [("On", .number (.int 1)), ("Label", .text "x")])]).convert = .ok d ∧
      (object [("state", nativeEnum [("Label", .text "x"), ("On", .number (.int 1))]),
        ("next", lazy 7 (array number)), ("id", string)]).convert = .ok e ∧
      d.required = ["id", "next", "state"] ∧ e.required = ["state", "next", "id"] ∧
      e.Reorders e' ∧ d.same e' = true := by
  have hleaf : ∀ s : TypeSchema, s.components = [] → s.IsNormal → Everywhere IsNormal s :=
    fun s hnone hs => .intro hs (by simp [hnone])
  have hnext : Everywhere IsNormal (lazy 7 (array number)) := by
    refine .intro trivial (List.forall_mem_singleton.mpr (.intro trivial ?_))
    exact List.forall_mem_singleton.mpr (hleaf number rfl trivial)
  have ha : Everywhere IsNormal (object [("id", string), ("next", lazy 7 (array number)),
      ("state", nativeEnum [("On", .number (.int 1)), ("Label", .text "x")])]) := by
    refine .intro (by simp [IsNormal, Entries.keys]) ?_
    simp only [components, parts, Entries.values, List.map_cons, List.map_nil, List.forall_mem_cons]
    refine ⟨hleaf string rfl trivial, hnext, hleaf _ rfl ⟨by decide, ?_⟩, List.forall_mem_nil _⟩
    simp [Entries.values, EnumValue.toJson, Json.normal]
  have hb : Everywhere IsNormal (object [("state", nativeEnum [("Label", .text "x"),
      ("On", .number (.int 1))]), ("next", lazy 7 (array number)), ("id", string)]) := by
    refine .intro (by simp [IsNormal, Entries.keys]) ?_
    simp only [components, parts, Entries.values, List.map_cons, List.map_nil, List.forall_mem_cons]
    refine ⟨hleaf _ rfl ⟨by decide, ?_⟩, hnext, hleaf string rfl trivial, List.forall_mem_nil _⟩
    simp [Entries.values, EnumValue.toJson, Json.normal]
  obtain ⟨-, hagree⟩ := equal_schemas_convert_alike.1 _ _ ha hb
    (by
      intro n s t hs ht
      simp [HasParts.preorder_eq, HasParts.parts, parts, Entries.values] at hs ht
      rw [hs.2, ht.2])
    (by simp [same, sameFields, Entries.same, EnumValue.same, Number.same, Entries.get?,
      List.lookup_cons])
  obtain ⟨e', hreorders, hsame⟩ := hagree _ _ rfl rfl
  exact ⟨_, _, e', rfl, rfl, rfl, rfl, hreorders, hsame⟩

end TypeSchema

end RestContract
