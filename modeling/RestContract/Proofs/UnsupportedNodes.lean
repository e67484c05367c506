-- When a schema has a document. Conversion succeeds on the schemas without an unsupported
-- node, and on every other schema it names the first such node in pre-order.
import RestContract.Proofs.SchemaNodes

namespace RestContract.TypeSchema

open HasParts (preorder preorder_eq)

/-! ## The first unsupported node -/

/-- The first node in pre-order that has no document. -/
def firstUnsupported? (s : TypeSchema) : Option TypeSchema := (preorder s).find? isUnsupported

/-- A conversion gives a document if there is no node to blame, and else names this node. -/
inductive Answers {β : Type} : Option TypeSchema → Except SchemaError β → Prop where
  | gives (d : β) : Answers none (.ok d)
  | blames (n : TypeSchema) : Answers (some n) (.error n.unsupported)

theorem firstUnsupported?_of_isUnsupported {s : TypeSchema} (h : s.isUnsupported = true) :
    s.firstUnsupported? = some s := by
  rw [firstUnsupported?, preorder_eq, List.find?_cons_of_pos h]

/-- A supported node leaves the blame to the first of its parts that has one. -/
theorem firstUnsupported?_of_supported {s : TypeSchema} (h : ¬ s.isUnsupported = true) :
    s.firstUnsupported? = s.parts.findSome? firstUnsupported? := by
  rw [firstUnsupported?, preorder_eq, List.find?_cons_of_neg h, List.find?_flatMap]
  rfl

/-- A list of schemas is converted up to the first one that fails. -/
theorem answers_mapM {ss : List TypeSchema}
    (h : ∀ s ∈ ss, Answers s.firstUnsupported? s.convert) :
    Answers (ss.findSome? firstUnsupported?) (ss.mapM convert) := by
  induction ss with
  | nil => exact .gives []
  | cons s ss ih =>
    obtain ⟨hs, hss⟩ := List.forall_mem_cons.mp h
    have hrest := ih hss
    rw [List.findSome?_cons, List.mapM_cons]
    generalize s.firstUnsupported? = first, s.convert = result at hs ⊢
    generalize ss.findSome? firstUnsupported? = later, ss.mapM convert = results at hrest ⊢
    cases hs with
    | blames n => exact .blames n
    | gives d =>
      cases hrest with
      | blames n => exact .blames n
      | gives ds => exact .gives (d :: ds)

/-- A supported node fails as the first of its parts that fails, and has a document if none
does. -/
theorem answers_convert (s : TypeSchema) : Answers s.firstUnsupported? s.convert := by
  induction s using HasParts.induct with
  | step s ih =>
    rw [convert_eq]
    by_cases hs : s.isUnsupported = true
    · rw [if_pos hs, firstUnsupported?_of_isUnsupported hs]
      exact .blames s
    · rw [if_neg hs, firstUnsupported?_of_supported hs]
      have hparts := answers_mapM ih
      generalize s.parts.findSome? firstUnsupported? = blamed, s.parts.mapM convert = results
        at hparts ⊢
      cases hparts with
      | blames n => exact .blames n
      | gives ds => exact .gives (s.document ds)

theorem exists_convert_iff (s : TypeSchema) :
    (∃ d, s.convert = .ok d) ↔ s.firstUnsupported? = none := by
  have h := s.answers_convert
  generalize s.firstUnsupported? = blamed, s.convert = result at h ⊢
  cases h <;> simp

theorem convert_eq_error_iff (s : TypeSchema) (e : SchemaError) :
    s.convert = .error e ↔ ∃ n, s.firstUnsupported? = some n ∧ e = n.unsupported := by
  have h := s.answers_convert
  generalize s.firstUnsupported? = blamed, s.convert = result at h ⊢
  cases h <;> simp [eq_comm]

/-! ## The law -/

/-- A schema has a document unless a node in it has none, and the first one that has none is
named with its kind and its text. A model has to be an object itself, wrapped in nothing. -/
theorem conversion_fails_exactly_at_the_first_unsupported_node (s : TypeSchema) :
    ((∃ d, s.convert = .ok d) ↔ ¬ ∃ n ∈ preorder s, n.isUnsupported = true) ∧
      (∀ e, s.convert = .error e ↔ ∃ n, (preorder s).find? isUnsupported = some n ∧
        e = .unsupported n.kindName n.render) ∧
      s.convertModel =
        if s.kind = .object then s.convert else .error (.nonObjectModel s.kindName) := by
  refine ⟨?_, s.convert_eq_error_iff, ?_⟩
  · rw [exists_convert_iff, firstUnsupported?, List.find?_eq_none]
    simp
  · cases s <;> rfl

/-- A wrapped map in front of a function in a later field. -/
example : (object [("a", string), ("b", (lazy 0 (map string number)).optional),
    ("c", array function)]).convert = .error (map string number).unsupported := rfl

end RestContract.TypeSchema
