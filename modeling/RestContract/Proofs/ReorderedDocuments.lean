-- Documents up to order: the names that are required, the values of an enum and the types of which
-- one has to fit are lists whose order says nothing about the values that are admitted.
import RestContract.Proofs.DocumentEquality
import RestContract.Proofs.Matching

namespace RestContract

open Entries (Matches SameKey)

/-- The same types, in any order. -/
inductive Types.Reorders : Types → Types → Prop where
  | one (t : PrimitiveType) : Reorders (one t) (one t)
  | anyOf {ts us : List PrimitiveType} (h : ts.Perm us) : Reorders (anyOf ts) (anyOf us)

theorem Types.Reorders.refl (ts : Types) : ts.Reorders ts := by
  cases ts with
  | one t => exact .one t
  | anyOf ts => exact .anyOf (List.Perm.refl ts)

/-- Both are for every item or both for places, and their documents go together. -/
inductive Items.Rel {α : Type} (R : α → α → Prop) : Items α → Items α → Prop where
  | every {d e : α} (h : R d e) : Rel R (every d) (every e)
  | places {ds es : List α} (h : List.Forall₂ R ds es) : Rel R (places ds) (places es)

namespace Document

/-- The same document, with its required names, its values and its types in any order, also in the
documents below. -/
inductive Reorders : Document → Document → Prop where
  | intro {d e : Document} (types : Option.Rel Types.Reorders d.types e.types)
    (format : d.format = e.format) (enumValues : d.enumValues.Perm e.enumValues)
    (names : Entries.keys d.properties = Entries.keys e.properties)
    (properties : List.Forall₂ Reorders (Entries.values d.properties) (Entries.values e.properties))
    (required : d.required.Perm e.required)
    (items : Option.Rel (Items.Rel Reorders) d.items e.items) (minItems : d.minItems = e.minItems)
    (oneOf : List.Forall₂ Reorders d.oneOf e.oneOf) (allOf : List.Forall₂ Reorders d.allOf e.allOf)
    (negated : Option.Rel Reorders d.negated e.negated) : Reorders d e

/-- Two documents are equal up to the order of required names, of values and of types. -/
def Agrees (d e : Document) : Prop := ∃ e', e.Reorders e' ∧ d.same e' = true

/-! ## Each document on its own -/

theorem Reorders.refl (d : Document) : d.Reorders d := by
  induction d using HasParts.induct with
  | step d ih =>
    obtain ⟨hproperties, hitems, honeOf, hallOf, hnegated⟩ := forall_mem_parts_iff.mp ih
    refine .intro ?_ rfl (List.Perm.refl _) rfl ?_ (List.Perm.refl _) ?_ rfl
      (List.forall₂_same.mpr honeOf) (List.forall₂_same.mpr hallOf) ?_
    · cases d.types with
      | none => exact .none
      | some ts => exact .some (.refl ts)
    · exact List.forall₂_same.mpr (List.forall_mem_map.mpr hproperties)
    · generalize d.items = items at hitems
      rcases items with _ | e | es
      · exact .none
      · exact .some (.every (hitems e List.mem_cons_self))
      · exact .some (.places (List.forall₂_same.mpr hitems))
    · generalize d.negated = negated at hnegated
      cases negated with
      | none => exact .none
      | some e => exact .some (hnegated e rfl)

theorem Agrees.of_same {d e : Document} (h : d.same e = true) : d.Agrees e :=
  ⟨e, .refl e, h⟩

/-- Documents with a type, a format and values alone are compared by them. -/
theorem same_of_values {types : Option Types} {format : Option String} {vs ws : List Json}
    (h : Json.sameItems vs ws = true) :
    same { types := types, format := format, enumValues := vs }
      { types := types, format := format, enumValues := ws } = true := by
  simp [same_iff, h, sameProperties, sameOptional, sameAll, sameNegated]

theorem sameOptional_of_rel {items items' : Option (Items Document)}
    (h : Option.Rel (Items.Rel fun d e => d.same e = true) items items') :
    sameOptional items items' = true := by
  cases h with
  | none => rw [sameOptional]
  | some h =>
    cases h with
    | every h => rwa [sameOptional]
    | places h => rwa [sameOptional, sameAll_iff]

/-- Documents with a type and documents below alone are compared by them. -/
theorem same_of_parts {types : Option Types} {minItems : Option Nat}
    {items items' : Option (Items Document)} {oneOf oneOf' allOf allOf' : List Document}
    (hitems : Option.Rel (Items.Rel fun d e => d.same e = true) items items')
    (honeOf : List.Forall₂ (fun d e => d.same e = true) oneOf oneOf')
    (hallOf : List.Forall₂ (fun d e => d.same e = true) allOf allOf') :
    same ⟨types, none, [], [], [], items, minItems, oneOf, allOf, none⟩
      ⟨types, none, [], [], [], items', minItems, oneOf', allOf', none⟩ = true := by
  simp [same_iff, sameOptional_of_rel hitems, sameAll_iff.mpr honeOf, sameAll_iff.mpr hallOf,
    Json.sameItems, sameProperties, sameNegated]

theorem same_any : any.same any = true := same_of_values rfl

theorem same_never : never.same never = true := by
  simp [same_iff, never, Json.sameItems, sameProperties, sameOptional, sameAll, sameNegated,
    same_any]

/-! ## Node by node -/

section Nodes

variable {d e : Document} {ds es : List Document}

/-- The other keywords are the same, and the documents below are in another order. -/
theorem Reorders.of_parts {types : Option Types} {format : Option String} {enumValues : List Json}
    {required : List String} {minItems : Option Nat} {negated : Option Document}
    {items items' : Option (Items Document)} {oneOf oneOf' allOf allOf' : List Document}
    (hitems : Option.Rel (Items.Rel Reorders) items items')
    (honeOf : List.Forall₂ Reorders oneOf oneOf') (hallOf : List.Forall₂ Reorders allOf allOf') :
    Reorders ⟨types, format, enumValues, [], required, items, minItems, oneOf, allOf, negated⟩
      ⟨types, format, enumValues, [], required, items', minItems, oneOf', allOf', negated⟩ := by
  have hself := Reorders.refl ⟨types, format, enumValues, [], required, items, minItems, oneOf,
    allOf, negated⟩
  cases hself with
  | intro htypes hformat hvalues hnames hproperties hrequired _ hminItems _ _ hnegated =>
    exact .intro htypes hformat hvalues hnames hproperties hrequired hitems hminItems honeOf hallOf
      hnegated

theorem agrees_headD (h : List.Forall₂ Agrees ds es) : (ds.headD any).Agrees (es.headD any) := by
  cases h with
  | nil => exact .of_same same_any
  | cons h _ => exact h

theorem agrees_arrayOf (h : d.Agrees e) : (arrayOf d).Agrees (arrayOf e) := by
  obtain ⟨e', hreorders, hsame⟩ := h
  exact ⟨arrayOf e', .of_parts (.some (.every hreorders)) .nil .nil,
    same_of_parts (.some (.every hsame)) .nil .nil⟩

theorem agrees_places (h : List.Forall₂ Agrees ds es) :
    Agrees { ofType .array with items := some (.places ds), minItems := some ds.length }
      { ofType .array with items := some (.places es), minItems := some es.length } := by
  obtain ⟨fs, hreorders, hsame⟩ := exists_common_of_forall₂ h
  rw [h.length_eq]
  exact ⟨{ ofType .array with items := some (.places fs), minItems := some es.length },
    .of_parts (.some (.places hreorders)) .nil .nil,
    same_of_parts (.some (.places hsame)) .nil .nil⟩

theorem agrees_oneOf (h : List.Forall₂ Agrees ds es) : Agrees { oneOf := ds } { oneOf := es } := by
  obtain ⟨fs, hreorders, hsame⟩ := exists_common_of_forall₂ h
  exact ⟨{ oneOf := fs }, .of_parts .none hreorders .nil, same_of_parts .none hsame .nil⟩

theorem agrees_allOf (h : List.Forall₂ Agrees ds es) : Agrees { allOf := ds } { allOf := es } := by
  obtain ⟨fs, hreorders, hsame⟩ := exists_common_of_forall₂ h
  exact ⟨{ allOf := fs }, .of_parts .none .nil hreorders, same_of_parts .none .nil hsame⟩

/-- The properties of objects are compared in any order anyway. -/
theorem agrees_of_properties {ps qs : Entries String Document} {rs ss : List String}
    (hps : (Entries.keys ps).Nodup) (hqs : (Entries.keys qs).Nodup) (h : Matches Agrees ps qs)
    (hrequired : ss.Perm rs) :
    Agrees { ofType .object with properties := ps, required := rs }
      { ofType .object with properties := qs, required := ss } := by
  obtain ⟨fs, hreorders, hsame⟩ := h.exists_common hps hqs
  refine ⟨{ ofType .object with properties := fs, required := rs }, ?_, ?_⟩
  · exact .intro (.some (.refl _)) rfl (List.Perm.refl _) (Entries.keys_eq_of_forall₂ hreorders)
      (Entries.forall₂_values hreorders) hrequired .none rfl .nil .nil .none
  · simp [same_iff, ofType, Json.sameItems, sameProperties_iff.mpr hsame.found, sameOptional,
      sameAll, sameNegated, hsame.length_eq]

theorem agrees_of_values {ts us : Types} {vs ws ws' : List Json} (htypes : us.Reorders ts)
    (hvalues : ws.Perm ws') (hsame : Json.sameItems vs ws' = true) :
    Agrees { types := some ts, enumValues := vs } { types := some us, enumValues := ws } := by
  refine ⟨{ types := some ts, enumValues := ws' }, ?_, ?_⟩
  · exact .intro (.some htypes) rfl hvalues rfl .nil (List.Perm.refl _) .none rfl .nil .nil .none
  · exact same_of_values hsame

end Nodes

end Document

end RestContract
