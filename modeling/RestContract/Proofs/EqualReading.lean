-- Equal values read side by side. In memory two values may be equal and still differ in the order
-- of keys and in the sign of zero. A shape reads such values alike: it refuses both, or what it
-- reads goes together.
import RestContract.Proofs.Records
import RestContract.Proofs.ValueEquality

namespace RestContract

open Entries (Matches SameKey)

/-! ## Equal values in memory -/

namespace Json

theorem depthItems_le {items : List Json} {n : Nat} (h : ∀ v ∈ items, v.depth ≤ n) :
    depthItems items ≤ n := by
  induction items with
  | nil => exact Nat.zero_le n
  | cons v items ih =>
    obtain ⟨hv, hitems⟩ := List.forall_mem_cons.mp h
    exact Nat.max_le.mpr ⟨hv, ih hitems⟩

theorem depthEntries_le {entries : List (String × Json)} {n : Nat}
    (h : ∀ e ∈ entries, e.2.depth ≤ n) : depthEntries entries ≤ n := by
  induction entries with
  | nil => exact Nat.zero_le n
  | cons e entries ih =>
    obtain ⟨he, hentries⟩ := List.forall_mem_cons.mp h
    exact Nat.max_le.mpr ⟨he, ih hentries⟩

/-- Two values in memory are equal. -/
structure Alike (v w : Json) : Prop where
  left : v.normal = v
  right : w.normal = w
  same : v.same w = true

namespace Alike

variable {v w : Json} {as bs : List (String × Json)}

theorem symm (h : v.Alike w) : w.Alike v := ⟨h.right, h.left, same_symm h.left h.right h.same⟩

/-- Alike values are of one form, and the values below are alike. -/
theorem form (h : v.Alike w) : SameForm Alike v w := by
  obtain ⟨hv, hw, hsame⟩ := h
  cases same_iff.mp hsame with
  | null => exact .null
  | bool b => exact .bool b
  | num h => exact .num h
  | str s => exact .str s
  | arr h =>
    rw [normal, normalItems_eq] at hv hw
    have has := map_eq_self_iff.mp (arr.inj hv)
    have hbs := map_eq_self_iff.mp (arr.inj hw)
    refine .arr (forall₂_symm h fun a ha b hb hab => ?_).flip
    exact ⟨has a ha, hbs b hb, hab⟩
  | obj h =>
    obtain ⟨-, has⟩ := normal_obj hv
    obtain ⟨-, hbs⟩ := normal_obj hw
    refine .obj ⟨h.length_eq, fun e he => ?_⟩
    obtain ⟨b, hb, hab⟩ := h.found e he
    exact ⟨b, hb, has e he, hbs _ (Entries.mem_of_get? hb), hab⟩

/-- The keys of alike objects are distinct, and what stands under them is alike. -/
theorem of_obj (h : (obj as).Alike (obj bs)) : (Entries.keys as).Nodup ∧ (Entries.keys bs).Nodup ∧
    ∀ k, Option.Rel Alike (Entries.get? as k) (Entries.get? bs k) := by
  obtain ⟨has, -⟩ := normal_obj h.left
  obtain ⟨hbs, -⟩ := normal_obj h.right
  cases h.form with
  | obj hmatches => exact ⟨has, hbs, (Entries.matches_iff_rel_get? has hbs).mp hmatches⟩

/-- Objects with distinct keys are alike if what stands under each key is alike. -/
theorem obj (has : (Entries.keys as).Nodup) (hbs : (Entries.keys bs).Nodup)
    (h : ∀ k, Option.Rel Alike (Entries.get? as k) (Entries.get? bs k)) :
    (Json.obj as).Alike (.obj bs) := by
  have hmatches := (Entries.matches_iff_rel_get? has hbs).mpr h
  have hback := hmatches.symm has (S := Alike) fun _ _ _ _ => symm
  refine ⟨normal_obj_of_nodup has fun e he => ?_, normal_obj_of_nodup hbs fun e he => ?_,
    same_iff.mpr (.obj ⟨hmatches.length_eq, fun e he => ?_⟩)⟩
  · obtain ⟨b, -, hab⟩ := hmatches.found e he
    exact hab.left
  · obtain ⟨a, -, hab⟩ := hback.found e he
    exact hab.left
  · obtain ⟨b, hb, hab⟩ := hmatches.found e he
    exact ⟨b, hb, hab.same⟩

theorem arr {vs ws : List Json} (h : List.Forall₂ Alike vs ws) : (Json.arr vs).Alike (.arr ws) := by
  have hback : List.Forall₂ Alike ws vs := forall₂_symm h fun _ _ _ _ => symm
  refine ⟨?_, ?_, same_iff.mpr (.arr (h.imp fun _ _ => Alike.same))⟩
  · rw [normal, normalItems_eq, map_eq_self_iff.mpr]
    intro v hv
    obtain ⟨w, -, hvw⟩ := exists_mem_of_forall₂ h hv
    exact hvw.left
  · rw [normal, normalItems_eq, map_eq_self_iff.mpr]
    intro w hw
    obtain ⟨v, -, hwv⟩ := exists_mem_of_forall₂ hback hw
    exact hwv.left

/-- Alike values nest equally deep. -/
theorem depth_eq (h : v.Alike w) : v.depth = w.depth := by
  have hle : ∀ {v w : Json}, v.Alike w → v.depth ≤ w.depth := by
    intro v
    induction v using HasParts.induct with
    | step v ih =>
      intro w h
      cases h.form with
      | arr hitems =>
        refine Nat.succ_le_succ (depthItems_le fun a ha => ?_)
        obtain ⟨b, hb, hab⟩ := exists_mem_of_forall₂ hitems ha
        exact Nat.le_trans (ih a ha hab) (depth_le_of_mem_items hb)
      | obj hentries =>
        refine Nat.succ_le_succ (depthEntries_le fun e he => ?_)
        obtain ⟨b, hb, hab⟩ := hentries.found e he
        exact Nat.le_trans (ih e.2 (List.mem_map_of_mem he) hab)
          (depth_le_of_mem_entries (Entries.mem_of_get? hb))
      | _ => exact Nat.le_refl _
  exact Nat.le_antisymm (hle h) (hle h.symm)

end Alike

end Json

/-! ## Shapes -/

namespace Shape

open Json (Alike)

variable {α β γ : Type} {R : α → α → Prop} {S : β → β → Prop} {T : γ → γ → Prop}

/-- The shape reads alike values alike: it refuses both, or what it reads goes together. -/
def Respects (R : α → α → Prop) (shape : Shape α) : Prop :=
  ∀ v w, v.Alike w → Option.Rel R (shape v) (shape w)

/-! ### Scalars and containers -/

theorem respects_text : Respects Eq text := by
  intro v w h
  cases h.form <;> first | exact .none | exact .some rfl

theorem respects_flag : Respects Eq flag := by
  intro v w h
  cases h.form <;> first | exact .none | exact .some rfl

theorem respects_upTo (limit : Nat) : Respects Eq (upTo limit) := by
  intro v w h
  cases h.form with
  | @num m n hsame =>
    cases m <;> cases n
    case int.int m n =>
      obtain rfl : m = n := beq_iff_eq.mp hsame
      exact rel_eq_self _
    case float.float => exact .none
    all_goals cases hsame
  | _ => exact .none

theorem respects_any : Respects Alike any := by
  intro v w h
  rw [any, any, h.left, h.right]
  exact .some h

theorem respects_list {item : Shape α} (h : Respects R item) :
    Respects (List.Forall₂ R) (list item) := by
  intro v w hvw
  cases hvw.form with
  | arr hitems => exact rel_mapM hitems h
  | _ => exact .none

theorem respects_map {item : Shape α} (h : Respects R item) :
    Respects (Matches R) (map item) := by
  have hread : ∀ {as bs : Entries String Json} {cs : Entries String α},
      (Json.obj as).Alike (.obj bs) → map item (.obj as) = some cs →
        ∃ ds, map item (.obj bs) = some ds ∧ Matches R cs ds := by
    intro as bs cs halike hcs
    obtain ⟨has, hbs, hrel⟩ := halike.of_obj
    have hmatches := (Entries.matches_iff_rel_get? has hbs).mpr hrel
    rw [map_obj_eq_some_iff has] at hcs
    have hvalues : ∀ f ∈ bs, ∃ d, SameKey (fun v a => item v = some a) f d := by
      intro f hf
      obtain ⟨a, ha, hab⟩ := (hmatches.symm has fun _ _ _ _ => Alike.symm).found f hf
      obtain ⟨c, -, -, hc⟩ := exists_mem_of_forall₂ hcs (Entries.mem_of_get? ha)
      obtain ⟨d, hd, -⟩ := exists_of_rel_some (hc ▸ h a f.2 hab.symm)
      exact ⟨(f.1, d), rfl, hd⟩
    obtain ⟨ds, hds⟩ := exists_forall₂_of_forall hvalues
    refine ⟨ds, (map_obj_eq_some_iff hbs).mpr hds, ?_⟩
    refine hmatches.of_aligned hbs hcs hds fun e _ f _ hef c d hc hd => ?_
    have hcd := h e.2 f.2 hef
    rwa [hc, hd, Option.rel_some_some] at hcd
  intro v w hvw
  cases hvw.form with
  | @obj as bs _ =>
    cases hcs : map item (.obj as) with
    | some cs =>
      obtain ⟨ds, hds, hmatches⟩ := hread hvw hcs
      rw [hds]
      exact .some hmatches
    | none =>
      cases hds : map item (.obj bs) with
      | none => exact .none
      | some ds =>
        obtain ⟨cs, hcs', -⟩ := hread hvw.symm hds
        rw [hcs] at hcs'
        cases hcs'
  | _ => exact .none

theorem respects_optional {item : Shape α} (h : Respects R item) :
    Respects (Option.Rel R) (optional item) := by
  intro v w hvw
  have hsome := rel_map (S := Option.Rel R) (h v w hvw) fun _ _ => Option.Rel.some
  cases hvw.form with
  | null => exact .some .none
  | _ => exact hsome

theorem respects_either {left : Shape α} {right : Shape β} {inl : α → γ} {inr : β → γ}
    (hleft : Respects R left) (hright : Respects S right) (hinl : ∀ a b, R a b → T (inl a) (inl b))
    (hinr : ∀ a b, S a b → T (inr a) (inr b)) : Respects T (either left right inl inr) := by
  intro v w hvw
  unfold either
  have hrel := hleft v w hvw
  revert hrel
  cases left v <;> cases left w <;> intro hrel
  · exact rel_map (hright v w hvw) hinr
  · cases hrel
  · cases hrel
  · cases hrel with | some hab => exact .some (hinl _ _ hab)

theorem respects_choice {blank : Json → Bool} (h : ∀ v w, v.Alike w → blank v = blank w)
    (names : List (String × α)) : Respects Eq (choice blank names) := by
  intro v w hvw
  cases hvw.form with
  | str s => exact rel_eq_self _
  | @obj as bs hmatches =>
    match as, bs, hmatches.length_eq with
    | [], [], _ => exact .none
    | _ :: _ :: _, _ :: _ :: _, _ => exact .none
    | [(s, a)], [(t, b)], _ =>
      obtain ⟨x, hx, hax⟩ := hmatches.found _ List.mem_cons_self
      cases List.mem_singleton.mp (Entries.mem_of_get? hx)
      show Option.Rel Eq (if blank a then _ else none) (if blank b then _ else none)
      rw [h a b hax]
      exact rel_eq_self _
  | _ => exact .none

/-! ### Records -/

/-- What is found under each name is alike, or it is found in neither. -/
def FieldsAlike (fs gs : Fields) : Prop :=
  ∀ name, Option.Rel Alike (Entries.get? fs name) (Entries.get? gs name)

/-- The fields of an object with distinct keys are the entries under the known names. -/
theorem fields_obj {es : Entries String Json} (h : (Entries.keys es).Nodup) (names : List String) :
    fields names false (.obj es) = some (es.filter (names.contains ·.1)) := by
  have honce := Entries.keys_filter_nodup h (names.contains ·.1)
  simp only [fields, objectFields, eraseDups_of_nodup honce]
  simp

theorem respects_fields (names : List String) : Respects FieldsAlike (fields names false) := by
  intro v w h
  cases h.form with
  | @obj as bs _ =>
    obtain ⟨has, hbs, hrel⟩ := h.of_obj
    rw [fields_obj has, fields_obj hbs]
    refine .some fun name => ?_
    rw [Entries.get?_filter_key names.contains, Entries.get?_filter_key names.contains]
    split
    · exact hrel name
    · exact .none
  | @arr as bs hitems =>
    rw [fields, fields, hitems.length_eq]
    split
    · exact .some (Entries.rel_get?_zip hitems names)
    · exact .none
  | _ => exact .none

section Fields

variable {fs gs : Fields} {shape : Shape α}

theorem rel_required (h : FieldsAlike fs gs) (name : String) (hshape : Respects R shape) :
    Option.Rel R (required fs name shape) (required gs name shape) :=
  rel_bind (h name) hshape

theorem rel_withDefault (h : FieldsAlike fs gs) (name : String) {default : α}
    (hdefault : R default default) (hshape : Respects R shape) :
    Option.Rel R (withDefault fs name default shape) (withDefault gs name default shape) := by
  have hname := h name
  unfold withDefault
  revert hname
  cases Entries.get? fs name <;> cases Entries.get? gs name <;> intro hname
  · exact .some hdefault
  · cases hname
  · cases hname
  · exact hshape _ _ (Option.rel_some_some.mp hname)

theorem rel_maybe (h : FieldsAlike fs gs) (name : String) (hshape : Respects R shape) :
    Option.Rel (Option.Rel R) (maybe fs name shape) (maybe gs name shape) :=
  rel_withDefault h name .none (respects_optional hshape)

end Fields

/-! ### Tagged unions -/

/-- The tag of an object with distinct keys is what stands under its name. -/
theorem tagged_obj {es : Entries String Json} (h : (Entries.keys es).Nodup) (tag : String) :
    tagged tag (.obj es) =
      (Entries.get? es tag).map fun name => (name, .obj (es.filter (·.1 != tag))) := by
  rw [tagged, Entries.filter_key_eq h]
  cases Entries.get? es tag <;> rfl

/-- The tags are alike, and so is what is left. -/
theorem respects_tagged (tag : String) :
    Respects (fun p q => p.1.Alike q.1 ∧ p.2.Alike q.2) (tagged tag) := by
  intro v w h
  cases h.form with
  | @obj as bs _ =>
    obtain ⟨has, hbs, hrel⟩ := h.of_obj
    rw [tagged_obj has, tagged_obj hbs]
    refine rel_map (hrel tag) fun a b hab => ⟨hab, ?_⟩
    refine Alike.obj (Entries.keys_filter_nodup has _) (Entries.keys_filter_nodup hbs _) fun k => ?_
    rw [Entries.get?_filter_key (· != tag), Entries.get?_filter_key (· != tag)]
    split
    · exact hrel k
    · exact .none
  | @arr as bs hitems =>
    cases hitems with
    | nil => exact .none
    | cons hab hrest => exact .some ⟨hab, Alike.arr hrest⟩
  | _ => exact .none

theorem nothingLeft_eq {v w : Json} (h : v.Alike w) : nothingLeft v = nothingLeft w := by
  cases h.form with
  | arr hitems => cases hitems <;> rfl
  | _ => rfl

end Shape

end RestContract
