-- What is read from the value of a definition: which fields are looked at, and what an
-- absent field, `null` and each value under a key mean.
import RestContract.Route.Definition

namespace RestContract

/-! ## Authorization -/

namespace RouteAuth

theorem shape_eq_disabled_iff {v : Json} : shape v = some disabled ↔ v = .bool false := by
  constructor
  · intro h
    unfold shape at h
    split at h
    · cases h
    · rfl
    · obtain ⟨a, -, ha⟩ := Option.map_eq_some_iff.mp h
      cases ha
  · rintro rfl
    rfl

theorem shape_eq_inherit_iff {v : Json} : shape v = some inherit ↔ v = .bool true := by
  constructor
  · intro h
    unfold shape at h
    split at h
    · rfl
    · cases h
    · obtain ⟨a, -, ha⟩ := Option.map_eq_some_iff.mp h
      cases ha
  · rintro rfl
    rfl

end RouteAuth

/-! ## Fields -/

namespace ResourceDefinition

/-- A field is read from what stands under its key; absent and `null` are no value. -/
theorem field_cases {α : Type} {v : Json} {name : String} {shape : Shape α} {a : Option α}
    (h : field v name shape = .ok a) :
    (a = none ∧ (v.get? name = none ∨ v.get? name = some .null)) ∨
      ∃ raw x, v.get? name = some raw ∧ raw ≠ .null ∧ shape raw = some x ∧ a = some x := by
  unfold field at h
  split at h
  · rename_i hv
    cases h
    exact Or.inl ⟨rfl, Or.inl hv⟩
  · rename_i hv
    cases h
    exact Or.inl ⟨rfl, Or.inr hv⟩
  · rename_i raw hnull hv
    split at h
    · rename_i x hx
      cases h
      exact Or.inr ⟨raw, x, hv, fun hr => hnull (hr ▸ rfl), hx, rfl⟩
    · cases h

theorem bind_eq_ok {ε α β : Type} {x : Except ε α} {f : α → Except ε β} {r : β}
    (h : x >>= f = .ok r) : ∃ a, x = .ok a ∧ f a = .ok r := by
  cases x with
  | error e => cases h
  | ok a => exact ⟨a, rfl, h⟩

/-! ## Metadata -/

theorem readMetadata_of_probe {v : Json} {d : ResourceDefinition} {m : RouteMetadata}
    (h : probe v = .ok d) (hm : d.metadata? = some m) : readMetadata v = .ok m := by
  unfold probe at h
  cases hp : Probe.of v with
  | integration i =>
    rw [hp] at h
    cases h
    cases hm
  | wrapped i =>
    rw [hp] at h
    obtain ⟨m', hm', hd⟩ := bind_eq_ok h
    cases hd
    cases hm
    exact hm'
  | compute function =>
    rw [hp] at h
    obtain ⟨proxy, -, h⟩ := bind_eq_ok h
    obtain ⟨timeoutMs, -, h⟩ := bind_eq_ok h
    obtain ⟨queryParams, -, h⟩ := bind_eq_ok h
    obtain ⟨m', hm', hd⟩ := bind_eq_ok h
    cases hd
    cases hm
    exact hm'
  | unrecognized =>
    rw [hp] at h
    cases h

theorem field_of_readMetadata {v : Json} {m : RouteMetadata} (h : readMetadata v = .ok m) :
    ∃ auth, field v "auth" RouteAuth.shape = .ok auth ∧ m.auth = auth.getD .inherit := by
  obtain ⟨auth, hauth, h⟩ := bind_eq_ok h
  obtain ⟨request, -, h⟩ := bind_eq_ok h
  obtain ⟨responses, -, h⟩ := bind_eq_ok h
  obtain ⟨scopes, -, h⟩ := bind_eq_ok h
  cases h
  exact ⟨auth, hauth, rfl⟩

variable {v : Json} {d : ResourceDefinition} {m : RouteMetadata}

theorem auth_eq_disabled_iff (h : probe v = .ok d) (hm : d.metadata? = some m) :
    m.auth = .disabled ↔ v.get? "auth" = some (.bool false) := by
  obtain ⟨auth, hfield, hauth⟩ := field_of_readMetadata (readMetadata_of_probe h hm)
  rw [hauth]
  rcases field_cases hfield with ⟨rfl, hv | hv⟩ | ⟨raw, x, hv, -, hx, rfl⟩
  · simp [hv]
  · simp [hv]
  · rw [hv, Option.getD_some, Option.some.injEq, ← RouteAuth.shape_eq_disabled_iff, hx,
      Option.some.injEq]

theorem auth_eq_inherit_iff (h : probe v = .ok d) (hm : d.metadata? = some m) :
    m.auth = .inherit ↔ v.get? "auth" = none ∨ v.get? "auth" = some .null ∨
      v.get? "auth" = some (.bool true) := by
  obtain ⟨auth, hfield, hauth⟩ := field_of_readMetadata (readMetadata_of_probe h hm)
  rw [hauth]
  rcases field_cases hfield with ⟨rfl, hv | hv⟩ | ⟨raw, x, hv, hnull, hx, rfl⟩
  · simp [hv]
  · simp [hv]
  · have hread : x = .inherit ↔ raw = .bool true := by
      rw [← RouteAuth.shape_eq_inherit_iff, hx, Option.some.injEq]
    simp [hv, hnull, hread]

end ResourceDefinition

end RestContract
