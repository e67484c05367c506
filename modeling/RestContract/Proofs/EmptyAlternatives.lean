-- What is left of a constraint in the document. A node that lists alternatives and lists none has
-- no value. The document of a compiled enum says so, but an empty list in a document demands
-- nothing: without values an enum admits every string, and without variants a union everything.
import RestContract.Proofs.Admission
import RestContract.Proofs.DocumentReading
import RestContract.Proofs.SchemaNodes

namespace RestContract.TypeSchema

open Document
open HasParts (preorder)

/-! ## Nodes without alternatives -/

/-- The schema below all optional, nullable and lazy layers. -/
def core : TypeSchema → TypeSchema
  | optional inner | nullable inner => inner.core
  | lazy _ built => built.core
  | s => s

/-- The node lists its alternatives and lists none, so no value satisfies it. The reverse entries
of a compiled enum are no alternatives. -/
def listsNone : TypeSchema → Bool
  | enum values => values.isEmpty
  | nativeEnum values => ((Entries.values values).filter (isForward values)).isEmpty
  | union variants | discriminatedUnion _ variants => variants.isEmpty
  | _ => false

/-- The node is a union, with a discriminator or without. -/
def isUnion : TypeSchema → Bool
  | union _ | discriminatedUnion .. => true
  | _ => false

/-- The names of the fields of an object are distinct, as in the map that holds them. -/
def HasDistinctFields : TypeSchema → Prop
  | object fields => (Entries.keys fields).Nodup
  | _ => True

theorem convert_of_listsNone {n : TypeSchema} (h : n.listsNone = true) :
    (n.isUnion = true ∧ n.convert = .ok any) ∨
      (n = enum [] ∧ n.convert = .ok (ofType .string)) ∨
      (n.kind = .nativeEnum ∧ n.convert = .ok never) := by
  cases n with
  | union variants | discriminatedUnion _ variants =>
    cases List.isEmpty_iff.mp h
    refine .inl ⟨rfl, ?_⟩
    rw [convert, convertAll]
    rfl
  | enum values =>
    cases List.isEmpty_iff.mp h
    refine .inr (.inl ⟨rfl, ?_⟩)
    rw [convert]
    rfl
  | nativeEnum values =>
    refine .inr (.inr ⟨rfl, ?_⟩)
    rw [convert]
    exact congrArg Except.ok (if_pos h)
  | _ => cases h

/-! ## Documents without a constraint -/

/-- The document of the node demands nothing. -/
def demandsNothing : TypeSchema → Bool
  | unknown => true
  | union variants | discriminatedUnion _ variants => variants.isEmpty
  | _ => false

theorem demandsNothing_iff {s : TypeSchema} :
    s.demandsNothing = true ↔ s = unknown ∨ (s.isUnion = true ∧ s.listsNone = true) := by
  cases s <;> simp [demandsNothing, isUnion, listsNone]

theorem isAny_ofNativeEnum (values : Entries String EnumValue) :
    (ofNativeEnum values).isAny = false := by
  rw [ofNativeEnum]
  split <;> rfl

theorem isAny_eq {s : TypeSchema} {d : Document} (h : s.convert = .ok d) :
    d.isAny = s.core.demandsNothing := by
  induction s using HasParts.induct with
  | step s ih =>
    obtain ⟨ds, hparts, rfl⟩ := exists_parts_of_convert h
    obtain ⟨hlength, -⟩ := of_mapM_convert hparts
    cases s with
    | optional inner | nullable inner | lazy _ inner =>
      exact ih inner List.mem_cons_self (by simpa only [convert] using h)
    | union variants | discriminatedUnion _ variants =>
      have hempty : ds = [] ↔ variants = [] := by
        rw [← List.length_eq_zero_iff, hlength, ← List.length_eq_zero_iff]
        rfl
      rw [Bool.eq_iff_iff]
      simpa [document, isAny, core, demandsNothing] using hempty
    | intersection left right =>
      have hne : ds ≠ [] := List.ne_nil_of_length_pos (by simp [hlength, parts])
      simp [document, isAny, hne, core, demandsNothing]
    | nativeEnum values => exact isAny_ofNativeEnum values
    | literal value =>
      cases value with
      | arr | obj => simp [convert, ofLiteral?] at h
      | _ => rfl
    | record | map | set | function => simp [convert] at h
    | _ => rfl

/-! ## The document of every node -/

/-- The documents of the parts of a node stand in its document. -/
theorem preorder_subset_document {s : TypeSchema} {ds : List Document} (hs : s.HasDistinctFields)
    (hlength : ds.length = s.parts.length) {d : Document} (hd : d ∈ ds) :
    preorder d ⊆ preorder (s.document ds) := by
  cases s with
  | optional | nullable | lazy =>
    obtain ⟨d', rfl⟩ := List.length_eq_one_iff.mp hlength
    cases List.mem_singleton.mp hd
    exact List.Subset.refl _
  | array element =>
    obtain ⟨d', rfl⟩ := List.length_eq_one_iff.mp hlength
    exact HasParts.preorder_subset hd
  | object fields =>
    have hkeys : Entries.keys ((Entries.keys fields).zip ds) = Entries.keys fields :=
      List.map_fst_zip (by simp [hlength, parts, Entries.keys, Entries.values])
    have hvalues : Entries.values ((Entries.keys fields).zip ds) = ds :=
      List.map_snd_zip (by simp [hlength, parts, Entries.keys, Entries.values])
    have hproperties : Entries.ofPairs ((Entries.keys fields).zip ds) =
        (Entries.keys fields).zip ds :=
      Entries.ofPairs_of_nodup (hkeys.symm ▸ hs)
    refine HasParts.preorder_subset ?_
    simpa [HasParts.parts, Document.parts, document, hproperties, hvalues, itemParts, ofType]
      using hd
  | tuple | union | discriminatedUnion | intersection =>
    refine HasParts.preorder_subset ?_
    simpa [HasParts.parts, Document.parts, document, itemParts, Entries.values, ofType] using hd
  | _ =>
    cases List.length_eq_zero_iff.mp hlength
    cases hd

theorem exists_convert_mem_preorder {s : TypeSchema} {d : Document}
    (hs : ∀ m ∈ preorder s, m.HasDistinctFields) (h : s.convert = .ok d) {n : TypeSchema}
    (hn : n ∈ preorder s) : ∃ e ∈ preorder d, n.convert = .ok e := by
  induction s using HasParts.induct generalizing d with
  | step s ih =>
    obtain ⟨hdistinct, hbelow⟩ := HasParts.forall_mem_preorder_iff.mp hs
    obtain ⟨ds, hparts, rfl⟩ := exists_parts_of_convert h
    obtain ⟨hlength, -, hto⟩ := of_mapM_convert hparts
    rw [HasParts.preorder_eq, List.mem_cons, List.mem_flatMap] at hn
    rcases hn with rfl | ⟨p, hp, hnp⟩
    · exact ⟨_, HasParts.mem_preorder_self _, h⟩
    · obtain ⟨dp, hdp, hpd⟩ := hto p hp
      obtain ⟨e, he, hne⟩ := ih p hp (hbelow p hp) hpd hnp
      exact ⟨e, preorder_subset_document hdistinct hlength hdp he, hne⟩

/-! ## The law -/

theorem fits_string_iff {v : Json} :
    PrimitiveType.string.fits v = true ↔ ∃ text, v = .str text := by
  cases v <;> simp [PrimitiveType.fits]

/-- A document demands nothing only for the schema of any value, or for a union without variants.
The document of each node stands in the document of the schema, and where a node lists alternatives
and lists none it admits nothing for a compiled enum. For an enum without values it still admits
the strings, and for a union without variants everything. -/
theorem an_empty_list_of_alternatives_is_kept_by_compiled_enums_alone {s : TypeSchema}
    {d : Document} (hs : ∀ m ∈ preorder s, m.HasDistinctFields) (h : s.convert = .ok d) :
    (d.isAny = true ↔ s.core = unknown ∨ (s.core.isUnion = true ∧ s.core.listsNone = true)) ∧
      ∀ n ∈ preorder s, n.listsNone = true → ∃ e ∈ preorder d, n.convert = .ok e ∧
        ∀ v, e.admits v = true ↔ n.isUnion = true ∨ (n = enum [] ∧ ∃ text, v = .str text) := by
  refine ⟨by rw [isAny_eq h, demandsNothing_iff], fun n hn hnone => ?_⟩
  obtain ⟨e, he, hconvert⟩ := exists_convert_mem_preorder hs h hn
  refine ⟨e, he, hconvert, fun v => ?_⟩
  rcases convert_of_listsNone hnone with ⟨hunion, hany⟩ | ⟨rfl, hstring⟩ | ⟨hkind, hnever⟩
  · cases hany.symm.trans hconvert
    simp [hunion]
  · cases hstring.symm.trans hconvert
    simp [isUnion, fits_string_iff]
  · cases hnever.symm.trans hconvert
    cases n with
    | nativeEnum values => simp [isUnion]
    | _ => cases hkind

/-- The three kinds of alternatives, one below a wrapper and one below a thunk. -/
theorem a_tuple_of_empty_alternatives_keeps_the_compiled_enum_alone :
    ∃ d, (tuple [nativeEnum [], (enum []).optional, lazy 0 (union [])]).convert = .ok d ∧
      d.isAny = false ∧
      (∃ e ∈ preorder d, (nativeEnum []).convert = .ok e ∧ ∀ v, e.admits v = false) ∧
      (∃ e ∈ preorder d, (enum []).convert = .ok e ∧
        ∀ v, e.admits v = true ↔ ∃ text, v = .str text) ∧
      ∃ e ∈ preorder d, (union []).convert = .ok e ∧ ∀ v, e.admits v = true := by
  have hnodes : preorder (tuple [nativeEnum [], (enum []).optional, lazy 0 (union [])]) =
      [tuple [nativeEnum [], (enum []).optional, lazy 0 (union [])], nativeEnum [],
        (enum []).optional, enum [], lazy 0 (union []), union []] := by
    simp [HasParts.preorder_eq, HasParts.parts, parts]
  obtain ⟨hany, hplaces⟩ := an_empty_list_of_alternatives_is_kept_by_compiled_enums_alone
    (s := tuple [nativeEnum [], (enum []).optional, lazy 0 (union [])])
    (by simp [hnodes, HasDistinctFields]) rfl
  refine ⟨_, rfl, ?_, ?_, ?_, ?_⟩
  · simpa [core, isUnion] using hany
  · simpa [isUnion] using hplaces (nativeEnum []) (by simp [hnodes]) rfl
  · simpa [isUnion] using hplaces (enum []) (by simp [hnodes]) rfl
  · simpa [isUnion] using hplaces (union []) (by simp [hnodes]) rfl

/-- No value satisfies either schema, but one document demands nothing and the other one admits a
string. -/
theorem empty_alternatives_lose_their_constraint :
    (∃ d, (union []).convert = .ok d ∧ (union []).listsNone = true ∧ d.isAny = true ∧
      (union []).core ≠ unknown ∧ ∀ v, d.admits v = true) ∧
    ∃ d, (enum []).convert = .ok d ∧ (enum []).listsNone = true ∧
      d.admits (.str "red") = true :=
  ⟨⟨any, rfl, rfl, rfl, nofun, fun v => admits_any v⟩, ofType .string, rfl, rfl,
    admits_ofType _ .string⟩

end RestContract.TypeSchema
