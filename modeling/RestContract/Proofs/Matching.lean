-- Entries that match in any order: under each key of the one stands a value that goes with the
-- value of the other. With distinct keys, one of the two can be put into the order of the other.
import Mathlib.Data.List.Perm.Basic
import RestContract.Proofs.Entries

namespace RestContract

theorem exists_forall₂_of_forall {α β : Type} {R : α → β → Prop} {l : List α}
    (h : ∀ a ∈ l, ∃ b, R a b) : ∃ m, List.Forall₂ R l m := by
  induction l with
  | nil => exact ⟨[], .nil⟩
  | cons a l ih =>
    obtain ⟨⟨b, hb⟩, hl⟩ := List.forall_mem_cons.mp h
    obtain ⟨m, hm⟩ := ih hl
    exact ⟨b :: m, .cons hb hm⟩

theorem exists_mem_of_forall₂ {α β : Type} {R : α → β → Prop} {l : List α} {m : List β}
    (h : List.Forall₂ R l m) {a : α} (ha : a ∈ l) : ∃ b ∈ m, R a b := by
  induction h with
  | nil => cases ha
  | @cons c d l m hcd _ ih =>
    rcases List.mem_cons.mp ha with rfl | hmem
    · exact ⟨d, List.mem_cons_self, hcd⟩
    · obtain ⟨b, hb, hab⟩ := ih hmem
      exact ⟨b, List.mem_cons_of_mem d hb, hab⟩

theorem exists_mem_of_forall₂_right {α β : Type} {R : α → β → Prop} {l : List α} {m : List β}
    (h : List.Forall₂ R l m) {b : β} (hb : b ∈ m) : ∃ a ∈ l, R a b :=
  exists_mem_of_forall₂ (List.Forall₂.flip (R := fun b a => R a b) h) hb

section Chains

variable {α β γ : Type} {R : α → β → Prop} {as : List α} {bs : List β}

theorem forall₂_symm {S : β → α → Prop} (h : List.Forall₂ R as bs)
    (hRS : ∀ a ∈ as, ∀ b ∈ bs, R a b → S b a) : List.Forall₂ S bs as := by
  induction h with
  | nil => exact .nil
  | cons hab _ ih =>
    refine .cons (hRS _ List.mem_cons_self _ List.mem_cons_self hab) (ih fun a ha b hb => ?_)
    exact hRS a (List.mem_cons_of_mem _ ha) b (List.mem_cons_of_mem _ hb)

theorem forall₂_trans {S : β → γ → Prop} {T : α → γ → Prop} {cs : List γ}
    (hab : List.Forall₂ R as bs) (hbc : List.Forall₂ S bs cs)
    (h : ∀ a ∈ as, ∀ b c, R a b → S b c → T a c) : List.Forall₂ T as cs := by
  induction hab generalizing cs with
  | nil =>
    cases hbc
    exact .nil
  | cons hR _ ih =>
    cases hbc with
    | cons hS hrest =>
      obtain ⟨hhead, htail⟩ := List.forall_mem_cons.mp h
      exact .cons (hhead _ _ hR hS) (ih hrest htail)

theorem forall₂_of_aligned {δ : Type} {P : α → γ → Prop} {Q : β → δ → Prop} {T : γ → δ → Prop}
    {cs : List γ} {ds : List δ} (h : List.Forall₂ R as bs) (hcs : List.Forall₂ P as cs)
    (hds : List.Forall₂ Q bs ds)
    (hT : ∀ a ∈ as, ∀ b ∈ bs, R a b → ∀ c d, P a c → Q b d → T c d) : List.Forall₂ T cs ds := by
  induction h generalizing cs ds with
  | nil =>
    cases hcs
    cases hds
    exact .nil
  | cons hab _ ih =>
    cases hcs with
    | cons hc hcs =>
      cases hds with
      | cons hd hds =>
        refine .cons (hT _ List.mem_cons_self _ List.mem_cons_self hab _ _ hc hd)
          (ih hcs hds fun a ha b hb => ?_)
        exact hT a (List.mem_cons_of_mem _ ha) b (List.mem_cons_of_mem _ hb)

/-- What the members of two lists both lead to, pair by pair, makes up one list. -/
theorem exists_common_of_forall₂ {S : β → γ → Prop} {T : α → γ → Prop}
    (h : List.Forall₂ (fun a b => ∃ c, S b c ∧ T a c) as bs) :
    ∃ cs, List.Forall₂ S bs cs ∧ List.Forall₂ T as cs := by
  induction h with
  | nil => exact ⟨[], .nil, .nil⟩
  | cons hab _ ih =>
    obtain ⟨c, hS, hT⟩ := hab
    obtain ⟨cs, hSs, hTs⟩ := ih
    exact ⟨c :: cs, .cons hS hSs, .cons hT hTs⟩

end Chains

/-! ## Optional values -/

section Optional

variable {α β γ δ : Type} {R : α → β → Prop} {S : γ → δ → Prop} {x : Option α} {y : Option β}

theorem exists_of_rel_some {a : α} (h : Option.Rel R (some a) y) : ∃ b, y = some b ∧ R a b := by
  cases h with
  | some hab => exact ⟨_, rfl, hab⟩

theorem eq_of_rel_eq {x y : Option α} (h : Option.Rel Eq x y) : x = y := by
  cases h with
  | some hab => exact congrArg some hab
  | none => rfl

theorem rel_eq_self (x : Option α) : Option.Rel Eq x x := by
  cases x with
  | none => exact .none
  | some a => exact .some rfl

theorem rel_bind {f : α → Option γ} {g : β → Option δ} (h : Option.Rel R x y)
    (hf : ∀ a b, R a b → Option.Rel S (f a) (g b)) : Option.Rel S (x.bind f) (y.bind g) := by
  cases h with
  | some hab => exact hf _ _ hab
  | none => exact .none

theorem rel_map {f : α → γ} {g : β → δ} (h : Option.Rel R x y)
    (hf : ∀ a b, R a b → S (f a) (g b)) : Option.Rel S (x.map f) (y.map g) := by
  cases h with
  | some hab => exact .some (hf _ _ hab)
  | none => exact .none

theorem rel_mapM {f : α → Option γ} {g : β → Option δ} {as : List α} {bs : List β}
    (h : List.Forall₂ R as bs) (hf : ∀ a b, R a b → Option.Rel S (f a) (g b)) :
    Option.Rel (List.Forall₂ S) (as.mapM f) (bs.mapM g) := by
  induction h with
  | nil => exact .some .nil
  | cons hab _ ih =>
    rw [List.mapM_cons, List.mapM_cons]
    exact rel_bind (hf _ _ hab) fun _ _ hcd => rel_bind ih fun _ _ hrest => .some (.cons hcd hrest)

theorem mapM_eq_some_iff {f : α → Option β} {as : List α} {bs : List β} :
    as.mapM f = some bs ↔ List.Forall₂ (fun a b => f a = some b) as bs := by
  induction as generalizing bs with
  | nil => simp [eq_comm]
  | cons a as ih =>
    simp only [List.mapM_cons, Option.bind_eq_bind, Option.bind_eq_some_iff, Option.pure_def,
      Option.some.injEq, ih, List.forall₂_cons_left_iff]
    constructor
    · rintro ⟨b, hb, bs, hbs, rfl⟩
      exact ⟨b, bs, hb, hbs, rfl⟩
    · rintro ⟨b, bs, hb, hbs, rfl⟩
      exact ⟨b, hb, bs, hbs, rfl⟩

end Optional

namespace Entries

variable {κ α β γ : Type}

/-! ## Entries side by side -/

/-- Two entries have the same key, and their values go together. -/
def SameKey (R : α → β → Prop) (e : κ × α) (f : κ × β) : Prop := e.1 = f.1 ∧ R e.2 f.2

section Aligned

variable {R : α → β → Prop} {as : Entries κ α} {bs : Entries κ β}

theorem keys_eq_of_forall₂ (h : List.Forall₂ (SameKey R) as bs) : keys as = keys bs := by
  induction h with
  | nil => rfl
  | cons hef _ ih => exact congrArg₂ List.cons hef.1 ih

theorem forall₂_values (h : List.Forall₂ (SameKey R) as bs) :
    List.Forall₂ R (values as) (values bs) := by
  rw [values, values, List.forall₂_map_left_iff, List.forall₂_map_right_iff]
  exact h.imp fun _ _ => And.right

/-- The keys of entries, with other values under them. -/
theorem forall₂_keys_zip {ds : List β} (h : List.Forall₂ R (values as) ds) :
    List.Forall₂ (SameKey R) as ((keys as).zip ds) := by
  induction as generalizing ds with
  | nil => exact .nil
  | cons e as ih =>
    obtain ⟨d, ds, hd, hds, rfl⟩ := List.forall₂_cons_left_iff.mp h
    exact .cons ⟨rfl, hd⟩ (ih hds)

end Aligned

theorem rel_get?_zip [BEq κ] {R : α → β → Prop} {as : List α} {bs : List β}
    (h : List.Forall₂ R as bs) (ks : List κ) (k : κ) :
    Option.Rel R (get? (ks.zip as) k) (get? (ks.zip bs) k) := by
  induction h generalizing ks with
  | nil => cases ks <;> exact .none
  | cons hab _ ih =>
    cases ks with
    | nil => exact .none
    | cons l ks =>
      have htail := ih ks
      simp only [get?, List.zip_cons_cons, List.lookup_cons] at htail ⊢
      cases k == l with
      | true => exact .some hab
      | false => exact htail

/-! ## Entries in any order -/

variable [BEq κ]

/-- There are as many entries, and what is stored under each key of the first ones goes with what
is stored there in the second ones. -/
@[mk_iff]
structure Matches (R : α → β → Prop) (as : Entries κ α) (bs : Entries κ β) : Prop where
  length_eq : as.length = bs.length
  found : ∀ e ∈ as, ∃ b, get? bs e.1 = some b ∧ R e.2 b

/-- The test for equality compares what matches. -/
theorem same_iff {eq : α → α → Bool} {as bs : Entries κ α} :
    same eq as bs = true ↔ Matches (fun a b => eq a b = true) as bs := by
  rw [same, Bool.and_eq_true, beq_iff_eq, List.all_eq_true, matches_iff]
  refine and_congr_right fun _ => forall₂_congr fun e _ => ?_
  cases get? bs e.1 <;> simp

theorem same_eq_iff [BEq α] [LawfulBEq α] {as bs : Entries κ α} :
    same (· == ·) as bs = true ↔ Matches Eq as bs := by
  simp only [same_iff, beq_iff_eq]

variable [LawfulBEq κ] {R : α → β → Prop} {as : Entries κ α} {bs : Entries κ β}

/-- Entries that match can be put side by side. -/
theorem Matches.exists_aligned (has : (keys as).Nodup) (h : Matches R as bs) :
    ∃ bs', List.Perm bs' bs ∧ List.Forall₂ (SameKey R) as bs' := by
  obtain ⟨bs', haligned⟩ := exists_forall₂_of_forall
    (R := fun e f => f ∈ bs ∧ SameKey R e f) fun e he => by
      obtain ⟨b, hb, hR⟩ := h.found e he
      exact ⟨(e.1, b), mem_of_get? hb, rfl, hR⟩
  have hside : List.Forall₂ (SameKey R) as bs' := haligned.imp fun _ _ => And.right
  have hdistinct : bs'.Nodup := (keys_eq_of_forall₂ hside ▸ has : (keys bs').Nodup).of_map
  have hsubset : bs' ⊆ bs := by
    intro f hf
    obtain ⟨e, -, hmem, -⟩ := exists_mem_of_forall₂_right haligned hf
    exact hmem
  have hlength := Nat.le_of_eq (h.length_eq.symm.trans haligned.length_eq)
  exact ⟨bs', (List.subperm_of_subset hdistinct hsubset).perm_of_length_le hlength, hside⟩

theorem matches_of_aligned {bs' : Entries κ β} (hbs : (keys bs).Nodup) (hperm : List.Perm bs' bs)
    (h : List.Forall₂ (SameKey R) as bs') : Matches R as bs := by
  refine ⟨h.length_eq.trans hperm.length_eq, fun e he => ?_⟩
  obtain ⟨f, hf, hkey, hR⟩ := exists_mem_of_forall₂ h he
  exact ⟨f.2, (get?_eq_some_iff hbs).mpr (hkey ▸ hperm.subset hf), hR⟩

theorem matches_self {S : α → α → Prop} (has : (keys as).Nodup) (h : ∀ e ∈ as, S e.2 e.2) :
    Matches S as as :=
  ⟨rfl, fun e he => ⟨e.2, (get?_eq_some_iff has).mpr he, h e he⟩⟩

theorem Matches.symm {S : β → α → Prop} (has : (keys as).Nodup) (h : Matches R as bs)
    (hRS : ∀ e ∈ as, ∀ f ∈ bs, R e.2 f.2 → S f.2 e.2) : Matches S bs as := by
  obtain ⟨bs', hperm, hside⟩ := h.exists_aligned has
  refine ⟨h.length_eq.symm, fun f hf => ?_⟩
  obtain ⟨e, he, hkey, hR⟩ := exists_mem_of_forall₂_right hside (hperm.symm.subset hf)
  exact ⟨e.2, (get?_eq_some_iff has).mpr (hkey ▸ he), hRS e he f hf hR⟩

theorem Matches.trans {S : β → γ → Prop} {T : α → γ → Prop} {cs : Entries κ γ}
    (hab : Matches R as bs) (hbc : Matches S bs cs)
    (h : ∀ e ∈ as, ∀ b c, R e.2 b → S b c → T e.2 c) : Matches T as cs := by
  refine ⟨hab.length_eq.trans hbc.length_eq, fun e he => ?_⟩
  obtain ⟨b, hb, heb⟩ := hab.found e he
  obtain ⟨c, hc, hbc⟩ := hbc.found _ (mem_of_get? hb)
  exact ⟨c, hc, h e he b c heb hbc⟩

/-- Entries match if those in whose places they stand do. -/
theorem Matches.of_aligned {δ : Type} {P : α → γ → Prop} {Q : β → δ → Prop} {T : γ → δ → Prop}
    {cs : Entries κ γ} {ds : Entries κ δ} (hbs : (keys bs).Nodup) (h : Matches R as bs)
    (hcs : List.Forall₂ (SameKey P) as cs) (hds : List.Forall₂ (SameKey Q) bs ds)
    (hT : ∀ e ∈ as, ∀ f ∈ bs, R e.2 f.2 → ∀ c d, P e.2 c → Q f.2 d → T c d) : Matches T cs ds := by
  refine ⟨hcs.length_eq.symm.trans (h.length_eq.trans hds.length_eq), fun g hg => ?_⟩
  obtain ⟨e, he, hkey, hP⟩ := exists_mem_of_forall₂_right hcs hg
  obtain ⟨b, hb, hR⟩ := h.found e he
  have hmem := mem_of_get? hb
  obtain ⟨⟨k, d⟩, hd, rfl, hQ⟩ := exists_mem_of_forall₂ hds hmem
  exact ⟨d, (get?_eq_some_iff (keys_eq_of_forall₂ hds ▸ hbs)).mpr (hkey ▸ hd),
    hT e he _ hmem hR _ _ hP hQ⟩

/-- What the values of matching entries both lead to makes up entries in the order of the second
ones. -/
theorem Matches.exists_common {S : β → γ → Prop} {T : α → γ → Prop} (has : (keys as).Nodup)
    (hbs : (keys bs).Nodup) (h : Matches (fun a b => ∃ c, S b c ∧ T a c) as bs) :
    ∃ cs, List.Forall₂ (SameKey S) bs cs ∧ Matches T as cs := by
  obtain ⟨bs', hperm, hside⟩ := h.exists_aligned has
  obtain ⟨cs', hS, hT⟩ := exists_common_of_forall₂ (S := SameKey S) (T := SameKey T) <|
    hside.imp fun e f ⟨hkey, c, hS, hT⟩ => ⟨(f.1, c), ⟨rfl, hS⟩, ⟨hkey, hT⟩⟩
  obtain ⟨cs, hcs, hperm'⟩ := List.perm_comp_forall₂ hperm.symm hS
  exact ⟨cs, hcs, matches_of_aligned (keys_eq_of_forall₂ hcs ▸ hbs) hperm'.symm hT⟩

/-- With distinct keys, entries match exactly if look-ups in them go together. -/
theorem matches_iff_rel_get? (has : (keys as).Nodup) (hbs : (keys bs).Nodup) :
    Matches R as bs ↔ ∀ k, Option.Rel R (get? as k) (get? bs k) := by
  constructor
  · intro h k
    cases ha : get? as k with
    | some a =>
      obtain ⟨b, hb, hR⟩ := h.found _ (mem_of_get? ha)
      rw [hb]
      exact .some hR
    | none =>
      obtain ⟨bs', hperm, hside⟩ := h.exists_aligned has
      have hkeys : (keys bs').Perm (keys bs) := hperm.map _
      have hnone : get? bs k = none := by
        rw [get?_eq_none_iff, ← Bool.not_eq_true, ← mem_keys_iff] at ha ⊢
        rwa [← hkeys.mem_iff, ← keys_eq_of_forall₂ hside]
      rw [hnone]
      exact .none
  · intro h
    have hfound : ∀ e ∈ as, ∃ b, get? bs e.1 = some b ∧ R e.2 b := by
      intro e he
      have hrel := h e.1
      rw [(get?_eq_some_iff has).mpr he] at hrel
      exact exists_of_rel_some hrel
    have hkeys : (keys as).Perm (keys bs) := by
      rw [List.perm_ext_iff_of_nodup has hbs]
      intro k
      rw [mem_keys_iff, mem_keys_iff, has_eq_isSome_get?, has_eq_isSome_get?]
      have hrel := h k
      revert hrel
      cases get? as k <;> cases get? bs k <;> intro hrel
      · rfl
      · cases hrel
      · cases hrel
      · rfl
    exact ⟨by simpa [keys] using hkeys.length_eq, hfound⟩

end Entries

end RestContract
