-- The laws of entries: what a look-up finds after a value was stored, what is left behind by
-- pairs whose keys repeat, and that entries with distinct keys are found by look-ups one for one.
import RestContract.Entries
import Mathlib.Data.List.Induction
import Mathlib.Data.List.Nodup

namespace RestContract

/-! ## Lists without repeats -/

section Repeats

variable {β : Type} [BEq β] [LawfulBEq β]

theorem eraseDups_of_nodup {l : List β} (h : l.Nodup) : l.eraseDups = l := by
  induction l with
  | nil => rfl
  | cons x l ih =>
    obtain ⟨hx, hl⟩ := List.nodup_cons.mp h
    have hfilter : l.filter (fun y => !y == x) = l := by
      rw [List.filter_eq_self]
      intro y hy
      simpa using fun heq : y = x => hx (heq ▸ hy)
    rw [List.eraseDups_cons, hfilter, ih hl]

/-- What was seen before can be left out. -/
theorem eraseDups_append_of_subset {seen l : List β} (h : l ⊆ seen) (rest : List β) :
    (seen ++ (l ++ rest)).eraseDups = (seen ++ rest).eraseDups := by
  have hnone : l.removeAll seen = [] := by
    unfold List.removeAll
    rw [List.filter_eq_nil_iff]
    intro x hx
    simpa using h hx
  have hsplit : (l ++ rest).removeAll seen = l.removeAll seen ++ rest.removeAll seen :=
    List.filter_append ..
  rw [List.eraseDups_append, List.eraseDups_append, hsplit, hnone, List.nil_append]

end Repeats

namespace Entries

/-! ## Looking -/

variable {κ α : Type}

@[simp] theorem keys_append (es fs : Entries κ α) : keys (es ++ fs) = keys es ++ keys fs :=
  List.map_append

@[simp] theorem keys_map_values {β : Type} (f : α → β) (es : Entries κ α) :
    keys (es.map fun e => (e.1, f e.2)) = keys es := by
  simp [keys, Function.comp_def]

theorem keys_filter_nodup {es : Entries κ α} (h : (keys es).Nodup) (p : κ × α → Bool) :
    (keys (es.filter p)).Nodup := h.sublist (List.filter_sublist.map _)

variable [BEq κ]

/-- A new key comes behind the others. -/
theorem put_of_not_has {es : Entries κ α} {k : κ} (h : has es k = false) (v : α) :
    put es k v = es ++ [(k, v)] := by
  induction es with
  | nil => rfl
  | cons e es ih =>
    simp only [has, List.any_cons, Bool.or_eq_false_iff] at h
    simp only [put, h.1, Bool.false_eq_true, if_false, List.cons_append]
    rw [ih h.2]

theorem mem_of_mem_put {es : Entries κ α} {k : κ} {v : α} {e : κ × α} (h : e ∈ put es k v) :
    e = (k, v) ∨ e ∈ es := by
  induction es with
  | nil => exact .inl (List.mem_singleton.mp h)
  | cons f es ih =>
    rw [put] at h
    split at h
    · exact (List.mem_cons.mp h).imp_right (List.mem_cons_of_mem f)
    · rcases List.mem_cons.mp h with rfl | h
      · exact .inr List.mem_cons_self
      · exact (ih h).imp_right (List.mem_cons_of_mem _)

/-- The last pair is stored last. -/
theorem ofPairs_concat (ps : List (κ × α)) (p : κ × α) :
    ofPairs (ps ++ [p]) = put (ofPairs ps) p.1 p.2 := by
  simp [ofPairs]

/-- Nothing is left behind but what was there. -/
theorem mem_of_mem_ofPairs {ps : List (κ × α)} {e : κ × α} (h : e ∈ ofPairs ps) : e ∈ ps := by
  induction ps using List.reverseRecOn with
  | nil => exact h
  | append_singleton ps p ih =>
    rw [ofPairs_concat] at h
    rw [List.mem_append, List.mem_singleton]
    exact (mem_of_mem_put h).symm.imp_left ih

variable [LawfulBEq κ]

theorem mem_keys_iff {es : Entries κ α} {k : κ} : k ∈ keys es ↔ has es k = true := by
  simp [keys, has]

theorem has_eq_isSome_get? (es : Entries κ α) (k : κ) : has es k = (get? es k).isSome := by
  rw [Bool.eq_iff_iff, get?, List.lookup_isSome_iff, has, List.any_eq_true]
  simp only [beq_iff_eq, @eq_comm κ k]

theorem get?_eq_none_iff {es : Entries κ α} {k : κ} : get? es k = none ↔ has es k = false := by
  rw [has_eq_isSome_get?, Option.isSome_eq_false_iff, Option.isNone_iff_eq_none]

theorem mem_of_get? {es : Entries κ α} {k : κ} {v : α} (h : get? es k = some v) : (k, v) ∈ es := by
  obtain ⟨before, after, rfl, _⟩ := List.lookup_eq_some_iff.mp h
  simp

/-- With distinct keys, a look-up finds each entry. -/
theorem get?_eq_some_iff {es : Entries κ α} (hes : (keys es).Nodup) {k : κ} {v : α} :
    get? es k = some v ↔ (k, v) ∈ es := by
  refine ⟨mem_of_get?, ?_⟩
  intro hmem
  have hk : has es k = true := mem_keys_iff.mp (List.mem_map_of_mem hmem)
  rw [has_eq_isSome_get?] at hk
  obtain ⟨w, hw⟩ := Option.isSome_iff_exists.mp hk
  have hsame : (k, w) = (k, v) := List.inj_on_of_nodup_map hes (mem_of_get? hw) hmem rfl
  rw [hw, (Prod.mk.inj hsame).2]

/-- The entries under some of the keys. -/
theorem get?_filter_key (p : κ → Bool) (es : Entries κ α) (k : κ) :
    get? (es.filter (p ·.1)) k = if p k then get? es k else none := by
  induction es with
  | nil => simp [get?]
  | cons e es ih =>
    obtain ⟨l, v⟩ := e
    simp only [get?] at ih ⊢
    by_cases hkl : k = l
    · subst hkl
      cases hp : p k <;> simp [hp, ih]
    · have hne : (k == l) = false := beq_eq_false_iff_ne.mpr hkl
      cases hp : p l <;> simp [List.lookup_cons, hp, ih, hne]

/-- The entries without one key. -/
theorem get?_filter_ne (es : Entries κ α) (k k' : κ) :
    get? (es.filter fun e => !e.1 == k) k' = if k' == k then none else get? es k' := by
  rw [get?_filter_key fun l => !l == k]
  cases k' == k <;> rfl

/-- With distinct keys, there is one entry under a key or none. -/
theorem filter_key_eq {es : Entries κ α} (h : (keys es).Nodup) (k : κ) :
    es.filter (·.1 == k) = ((get? es k).map (k, ·)).toList := by
  induction es with
  | nil => rfl
  | cons e es ih =>
    obtain ⟨l, v⟩ := e
    obtain ⟨hnew, hrest⟩ := List.nodup_cons.mp h
    have htail := ih hrest
    simp only [get?] at htail ⊢
    by_cases hl : l = k
    · subst hl
      have hnone : get? es l = none := by
        rw [get?_eq_none_iff, ← Bool.not_eq_true, ← mem_keys_iff]
        exact hnew
      rw [get?] at hnone
      simp [htail, hnone]
    · have hne : (k == l) = false := beq_eq_false_iff_ne.mpr (Ne.symm hl)
      simp [List.lookup_cons, hl, hne, htail]

/-! ## Storing -/

theorem get?_put (es : Entries κ α) (k k' : κ) (v : α) :
    get? (put es k v) k' = if k' == k then some v else get? es k' := by
  induction es with
  | nil =>
    by_cases hk : k' = k
    · simp [put, get?, hk]
    · simp [put, get?, List.lookup_cons, beq_eq_false_iff_ne.mpr hk]
  | cons e es ih =>
    obtain ⟨l, w⟩ := e
    simp only [get?] at ih ⊢
    by_cases hl : l = k
    · subst hl
      by_cases hk : k' = l
      · simp [put, hk]
      · simp [put, List.lookup_cons, beq_eq_false_iff_ne.mpr hk]
    · simp only [put, beq_eq_false_iff_ne.mpr hl, Bool.false_eq_true, if_false, List.lookup_cons,
        ih]
      by_cases hk : k' = l
      · subst hk
        simp [hl]
      · simp [beq_eq_false_iff_ne.mpr hk]

theorem has_put (es : Entries κ α) (k k' : κ) (v : α) :
    has (put es k v) k' = (has es k' || k == k') := by
  rw [has_eq_isSome_get?, has_eq_isSome_get?, get?_put]
  by_cases hk : k = k'
  · simp [hk]
  · simp [beq_eq_false_iff_ne.mpr hk, beq_eq_false_iff_ne.mpr (Ne.symm hk)]

/-- A key that is there keeps its place. -/
theorem keys_put_of_has {es : Entries κ α} {k : κ} (h : has es k = true) (v : α) :
    keys (put es k v) = keys es := by
  induction es with
  | nil => cases h
  | cons e es ih =>
    by_cases he : e.1 = k
    · simp [put, keys, he]
    · simp only [has, List.any_cons, beq_eq_false_iff_ne.mpr he, Bool.false_or] at h
      have hrest : (put es k v).map (·.1) = es.map (·.1) := ih h
      simp only [put, keys, beq_eq_false_iff_ne.mpr he, Bool.false_eq_true, if_false,
        List.map_cons, hrest]

theorem keys_put_nodup {es : Entries κ α} (hes : (keys es).Nodup) (k : κ) (v : α) :
    (keys (put es k v)).Nodup := by
  cases hk : has es k with
  | true => rw [keys_put_of_has hk]; exact hes
  | false =>
    have hnew : k ∉ keys es := fun hmem => by simp [mem_keys_iff.mp hmem] at hk
    rw [put_of_not_has hk, keys_append]
    refine List.nodup_append.mpr ⟨hes, List.nodup_singleton k, ?_⟩
    rintro a ha b hb rfl
    rw [List.mem_singleton.mp hb] at ha
    exact hnew ha

theorem put_of_not_mem {es : Entries κ α} {k : κ} (h : k ∉ keys es) (v : α) :
    put es k v = es ++ [(k, v)] := by
  refine put_of_not_has ?_ v
  rw [← Bool.not_eq_true]
  exact fun hhas => h (mem_keys_iff.mpr hhas)

theorem keys_ofPairs_nodup (ps : List (κ × α)) : (keys (ofPairs ps)).Nodup := by
  induction ps using List.reverseRecOn with
  | nil => exact List.nodup_nil
  | append_singleton ps p ih =>
    rw [ofPairs_concat]
    exact keys_put_nodup ih p.1 p.2

/-- Pairs with distinct keys are the entries that they leave behind. -/
theorem ofPairs_of_nodup {ps : List (κ × α)} (h : (keys ps).Nodup) : ofPairs ps = ps := by
  induction ps using List.reverseRecOn with
  | nil => rfl
  | append_singleton ps p ih =>
    rw [keys_append, List.nodup_append] at h
    obtain ⟨hps, -, hapart⟩ := h
    have hnew : p.1 ∉ keys ps := fun hmem => hapart p.1 hmem p.1 List.mem_cons_self rfl
    rw [ofPairs_concat, ih hps, put_of_not_mem hnew]

/-! ## Pairs with repeated keys -/

section Pairs

variable {β : Type}

/-- Every key stands where it first came. -/
theorem keys_ofPairs (ps : List (κ × α)) : keys (ofPairs ps) = (keys ps).eraseDups := by
  induction ps using List.reverseRecOn with
  | nil => rfl
  | append_singleton ps p ih =>
    rw [ofPairs_concat, keys_append]
    by_cases hmem : p.1 ∈ keys ps
    · have hhas : has (ofPairs ps) p.1 = true :=
        mem_keys_iff.mp (ih ▸ List.mem_eraseDups.mpr hmem)
      have hseen := eraseDups_append_of_subset (List.forall_mem_singleton.mpr hmem) []
      rw [List.append_nil, List.append_nil] at hseen
      exact (keys_put_of_has hhas p.2).trans (ih.trans hseen.symm)
    · have hnew : p.1 ∉ keys (ofPairs ps) := fun h => hmem (List.mem_eraseDups.mp (ih ▸ h))
      have hkeep : [p.1].removeAll (keys ps) = [p.1] := by simpa [List.removeAll] using hmem
      rw [put_of_not_mem hnew, keys_append, ih, List.eraseDups_append]
      show _ ++ [p.1] = _ ++ ([p.1].removeAll (keys ps)).eraseDups
      rw [hkeep]
      rfl

theorem nodup_eraseDups (ks : List κ) : ks.eraseDups.Nodup := by
  have hkeys : keys (ks.map (·, ())) = ks := by simp [keys, Function.comp_def]
  rw [← hkeys, ← keys_ofPairs]
  exact keys_ofPairs_nodup _

theorem put_append_of_not_mem {es : Entries κ α} {k : κ} (h : k ∉ keys es) (fs : Entries κ α)
    (v : α) : put (es ++ fs) k v = es ++ put fs k v := by
  induction es with
  | nil => rfl
  | cons e es ih =>
    obtain ⟨hne, hrest⟩ := not_or.mp (mt List.mem_cons.mpr h)
    rw [List.cons_append, put, if_neg (by simpa using Ne.symm hne), ih hrest, List.cons_append]

/-- Pairs with other keys do not meet. -/
theorem ofPairs_append {ps qs : List (κ × α)} (h : ∀ k ∈ keys qs, k ∉ keys ps) :
    ofPairs (ps ++ qs) = ofPairs ps ++ ofPairs qs := by
  induction qs using List.reverseRecOn with
  | nil => rw [List.append_nil]; exact (List.append_nil _).symm
  | append_singleton qs q ih =>
    simp only [keys_append, List.mem_append] at h
    have hnew : q.1 ∉ keys (ofPairs ps) := by
      rw [keys_ofPairs, List.mem_eraseDups]
      exact h q.1 (Or.inr (List.mem_singleton_self _))
    rw [← List.append_assoc, ofPairs_concat, ofPairs_concat, ih fun k hk => h k (Or.inl hk),
      put_append_of_not_mem hnew]

theorem put_map {f : κ → κ} (hf : Function.Injective f) (g : κ → α → β) (es : Entries κ α)
    (k : κ) (v : α) : put (es.map fun e => (f e.1, g e.1 e.2)) (f k) (g k v) =
      (put es k v).map fun e => (f e.1, g e.1 e.2) := by
  induction es with
  | nil => rfl
  | cons e es ih =>
    simp only [List.map_cons, put]
    by_cases hk : e.1 = k
    · simp [hk]
    · simp [hk, hf.ne hk, ih]

/-- Keys may be renamed before or after, as long as no two become one. -/
theorem ofPairs_map {f : κ → κ} (hf : Function.Injective f) (g : κ → α → β)
    (ps : List (κ × α)) : ofPairs (ps.map fun p => (f p.1, g p.1 p.2)) =
      (ofPairs ps).map fun p => (f p.1, g p.1 p.2) := by
  induction ps using List.reverseRecOn with
  | nil => rfl
  | append_singleton ps p ih =>
    rw [List.map_append, List.map_singleton, ofPairs_concat, ofPairs_concat, ih, put_map hf]

/-- Keys whose values are decided by the keys. -/
theorem ofPairs_map_key (f : κ → α) (ks : List κ) :
    ofPairs (ks.map fun k => (k, f k)) = ks.eraseDups.map fun k => (k, f k) := by
  have hkeys : ∀ l : List κ, keys (l.map fun k => (k, f k)) = l := by
    simp [keys, Function.comp_def]
  have hvalue : ∀ e ∈ ofPairs (ks.map fun k => (k, f k)), e = (e.1, f e.1) := by
    intro e he
    obtain ⟨k, -, rfl⟩ := List.mem_map.mp (mem_of_mem_ofPairs he)
    rfl
  calc ofPairs (ks.map fun k => (k, f k))
      = (ofPairs (ks.map fun k => (k, f k))).map fun e => (e.1, f e.1) :=
        (List.map_id' _).symm.trans (List.map_congr_left hvalue)
    _ = (keys (ofPairs (ks.map fun k => (k, f k)))).map fun k => (k, f k) := by
        simp [keys, Function.comp_def]
    _ = ks.eraseDups.map fun k => (k, f k) := by rw [keys_ofPairs, hkeys]

/-- Keys with one and the same value. -/
theorem ofPairs_const (v : α) (ks : List κ) :
    ofPairs (ks.map (·, v)) = ks.eraseDups.map (·, v) := ofPairs_map_key (fun _ => v) ks

end Pairs

/-! ## Entries in another order -/

section Order

variable {es fs : Entries κ α}

theorem get?_perm (h : es.Perm fs) (hes : (keys es).Nodup) (k : κ) : get? es k = get? fs k := by
  have hkeys : (keys es).Perm (keys fs) := h.map _
  have hfs : (keys fs).Nodup := hkeys.nodup_iff.mp hes
  apply Option.ext
  intro v
  rw [get?_eq_some_iff hes, get?_eq_some_iff hfs, h.mem_iff]

theorem perm_of_get?_eq (hes : (keys es).Nodup) (hfs : (keys fs).Nodup)
    (h : ∀ k, get? es k = get? fs k) : es.Perm fs := by
  rw [List.perm_ext_iff_of_nodup hes.of_map hfs.of_map]
  intro e
  rw [← get?_eq_some_iff hes, ← get?_eq_some_iff hfs, h]

end Order

end Entries

end RestContract
