-- Values that are built from smaller values of their own type. What holds of a value as soon
-- as it holds of its parts holds of all, and the nodes of a value are listed in pre-order.
import Mathlib.Data.List.Basic
import RestContract.Entries

namespace RestContract

/-- A type whose values have parts of the same type, each one smaller than the whole. -/
class HasParts (α : Type) [SizeOf α] where
  parts : α → List α
  sizeOf_lt_of_mem : ∀ {a p : α}, p ∈ parts a → sizeOf p < sizeOf a

namespace HasParts

variable {α : Type} [SizeOf α] [HasParts α]

/-- What a value has from its parts, every value has. -/
theorem induct {P : α → Prop} (step : ∀ a, (∀ p ∈ parts a, P p) → P a) (a : α) : P a :=
  step a fun p _hp => induct step p
termination_by sizeOf a
decreasing_by exact sizeOf_lt_of_mem _hp

/-- The nodes of a value: each one in front of its parts, and these from left to right. -/
def preorder (a : α) : List α := a :: (parts a).attach.flatMap fun p => preorder p.1
termination_by sizeOf a
decreasing_by exact sizeOf_lt_of_mem p.2

theorem preorder_eq (a : α) : preorder a = a :: (parts a).flatMap preorder := by
  rw [preorder]
  simp [List.flatMap_subtype]

theorem mem_preorder_self (a : α) : a ∈ preorder a := by
  rw [preorder_eq]
  exact List.mem_cons_self

theorem preorder_subset {a p : α} (h : p ∈ parts a) : preorder p ⊆ preorder a := by
  rw [preorder_eq a]
  exact fun n hn => List.mem_cons_of_mem a (List.mem_flatMap_of_mem h hn)

theorem forall_mem_preorder_iff {P : α → Prop} {a : α} :
    (∀ n ∈ preorder a, P n) ↔ P a ∧ ∀ p ∈ parts a, ∀ n ∈ preorder p, P n := by
  rw [preorder_eq]
  simp only [List.forall_mem_cons, List.forall_mem_flatMap]

/-- What a node has exactly if its own share of it is there and its parts have it, a value has
exactly if the share is there at every node. -/
theorem iff_forall_mem_preorder {P Q : α → Prop} {a : α}
    (h : ∀ n ∈ preorder a, (Q n ↔ P n ∧ ∀ p ∈ parts n, Q p)) : Q a ↔ ∀ n ∈ preorder a, P n := by
  induction a using induct with
  | step a ih =>
    obtain ⟨ha, hbelow⟩ := forall_mem_preorder_iff.mp h
    rw [ha, forall_mem_preorder_iff]
    exact and_congr_right fun _ => forall₂_congr fun p hp => ih p hp (hbelow p hp)

end HasParts

/-- The values of entries are smaller than the entries. -/
theorem Entries.sizeOf_lt_of_mem_values {κ α : Type} [SizeOf κ] [SizeOf α] {es : Entries κ α}
    {p : α} (h : p ∈ values es) : sizeOf p < sizeOf es := by
  obtain ⟨⟨k, v⟩, hmem, rfl⟩ := List.mem_map.mp h
  have hentry := List.sizeOf_lt_of_mem hmem
  rw [Prod.mk.sizeOf_spec] at hentry
  show sizeOf v < sizeOf es
  omega

end RestContract
