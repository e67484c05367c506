-- The laws of growing path trees. Changing a payload leaves every address as it is, and
-- inserting a path adds the missing addresses on its way, with empty payloads. Nodes that
-- are there keep their numbers, their segments and their payloads.
import RestContract.Proofs.PathTree

namespace RestContract

variable {α : Type}

/-! ## A tree that has grown -/

/-- The same node, with a related payload and with new children behind the ones it had. -/
structure PathNode.Extends (R : α → α → Prop) (n n' : PathNode α) : Prop where
  segment_eq : n'.segment = n.segment
  kind_eq : n'.kind = n.kind
  parent_eq : n'.parent = n.parent
  payload_rel : R n.payload n'.payload
  children_prefix : n.children <+: n'.children

namespace PathTree

/-- Every node of the first tree is a node of the second with the same number. -/
def Extends (R : α → α → Prop) (t t' : PathTree α) : Prop :=
  ∀ i n, t.get? i = some n → ∃ n', t'.get? i = some n' ∧ n.Extends R n'

/-- What stands at an address, or the default if no node is there. -/
def valueAt [Inhabited α] (t : PathTree α) (q : List String) : α :=
  ((t.follow root q).bind t.payload?).getD default

theorem Extends.refl {R : α → α → Prop} (hR : ∀ a, R a a) (t : PathTree α) : t.Extends R t :=
  fun _ n hn => ⟨n, hn, rfl, rfl, rfl, hR _, List.prefix_refl _⟩

theorem Extends.trans {R : α → α → Prop} (hR : ∀ a b c, R a b → R b c → R a c)
    {t u v : PathTree α} (htu : t.Extends R u) (huv : u.Extends R v) : t.Extends R v := by
  intro i n hn
  obtain ⟨n', hn', h1⟩ := htu i n hn
  obtain ⟨n'', hn'', h2⟩ := huv i n' hn'
  exact ⟨n'', hn'', h2.segment_eq.trans h1.segment_eq, h2.kind_eq.trans h1.kind_eq,
    h2.parent_eq.trans h1.parent_eq, hR _ _ _ h1.payload_rel h2.payload_rel,
    h1.children_prefix.trans h2.children_prefix⟩

theorem Extends.trans_eq {t u v : PathTree α} (htu : t.Extends Eq u) (huv : u.Extends Eq v) :
    t.Extends Eq v :=
  htu.trans (by rintro _ _ _ rfl rfl; rfl) huv

theorem Extends.mono {R S : α → α → Prop} {t t' : PathTree α} (h : t.Extends R t')
    (hRS : ∀ x y, R x y → S x y) : t.Extends S t' := by
  intro i n hn
  obtain ⟨n', hn', hext⟩ := h i n hn
  exact ⟨n', hn', hext.segment_eq, hext.kind_eq, hext.parent_eq, hRS _ _ hext.payload_rel,
    hext.children_prefix⟩

theorem Extends.size_le {R : α → α → Prop} {t t' : PathTree α} (h : t.Extends R t') :
    t.size ≤ t'.size := by
  by_contra hlt
  obtain ⟨n, hn⟩ := exists_get?_of_lt (Nat.lt_of_not_le hlt)
  obtain ⟨n', hn', -⟩ := h _ n hn
  exact Nat.lt_irrefl _ (lt_size_of_get? hn')

theorem Extends.segmentsOf_eq {R : α → α → Prop} {t t' : PathTree α} (h : t.Extends R t')
    {i : NodeId} (hi : i < t.size) : t'.segmentsOf i = t.segmentsOf i := by
  apply segmentsOf_congr
  intro j hj
  obtain ⟨n, hn⟩ := exists_get?_of_lt (Nat.lt_of_le_of_lt hj hi)
  obtain ⟨n', hn', hext⟩ := h j n hn
  rw [parent?_of_get? hn, parent?_of_get? hn', segment_of_get? hn, segment_of_get? hn']
  exact ⟨hext.parent_eq, hext.segment_eq⟩

theorem Extends.payload?_eq {t t' : PathTree α} (h : t.Extends Eq t') {i : NodeId}
    (hi : i < t.size) : t'.payload? i = t.payload? i := by
  obtain ⟨n, hn⟩ := exists_get?_of_lt hi
  obtain ⟨n', hn', hext⟩ := h i n hn
  simp [payload?, hn, hn', hext.payload_rel]

/-! ## A changed payload -/

section Payload

variable (t : PathTree α) (id : NodeId) (f : α → α)

theorem get?_modifyPayload (i : NodeId) :
    (t.modifyPayload id f).get? i =
      (t.get? i).map fun n => if id = i then { n with payload := f n.payload } else n := by
  simp only [get?, modifyPayload, Array.getElem?_modify]
  split
  · rfl
  · simp

variable {t id f} in
theorem extends_modifyPayload {R : α → α → Prop} (hR : ∀ x, R x x)
    (h : ∀ x, t.payload? id = some x → R x (f x)) : t.Extends R (t.modifyPayload id f) := by
  intro i n hn
  rw [get?_modifyPayload, hn]
  refine ⟨_, rfl, ?_⟩
  split
  · rename_i hi
    subst hi
    exact ⟨rfl, rfl, rfl, h n.payload (by simp [payload?, hn]), List.prefix_refl _⟩
  · exact ⟨rfl, rfl, rfl, hR _, List.prefix_refl _⟩

@[simp] theorem size_modifyPayload : (t.modifyPayload id f).size = t.size := by
  simp [size, modifyPayload]

@[simp] theorem child?_modifyPayload (p : NodeId) (s : String) :
    (t.modifyPayload id f).child? p s = t.child? p s := by
  unfold child? childEntries
  rw [get?_modifyPayload]
  cases t.get? p with
  | none => rfl
  | some n =>
    simp only [Option.map_some, Option.getD_some]
    split <;> rfl

@[simp] theorem follow_modifyPayload (i : NodeId) (q : List String) :
    (t.modifyPayload id f).follow i q = t.follow i q := by
  have hchild : (t.modifyPayload id f).child? = t.child? := by
    funext p s
    exact child?_modifyPayload t id f p s
  unfold follow
  rw [hchild]

@[simp] theorem segmentsOf_modifyPayload (i : NodeId) :
    (t.modifyPayload id f).segmentsOf i = t.segmentsOf i := by
  apply segmentsOf_congr
  intro j _
  unfold parent? segment
  rw [get?_modifyPayload]
  cases t.get? j with
  | none => exact ⟨rfl, rfl⟩
  | some n =>
    simp only [Option.map_some, Option.bind_some, Option.getD_some]
    split <;> exact ⟨rfl, rfl⟩

theorem payload?_modifyPayload (i : NodeId) :
    (t.modifyPayload id f).payload? i = if id = i then (t.payload? i).map f else t.payload? i := by
  unfold payload?
  rw [get?_modifyPayload]
  cases t.get? i with
  | none => simp
  | some n =>
    simp only [Option.map_some]
    split <;> rfl

variable {t} in
theorem WellFormed.modifyPayload (h : t.WellFormed) : (t.modifyPayload id f).WellFormed := by
  have hback : ∀ i n, (t.modifyPayload id f).get? i = some n → ∃ m, t.get? i = some m ∧
      n.segment = m.segment ∧ n.parent = m.parent ∧ n.children = m.children := by
    intro i n hn
    rw [get?_modifyPayload, Option.map_eq_some_iff] at hn
    obtain ⟨m, hm, rfl⟩ := hn
    refine ⟨m, hm, ?_⟩
    split <;> exact ⟨rfl, rfl, rfl⟩
  have hforth : ∀ i m, t.get? i = some m → ∃ n, (t.modifyPayload id f).get? i = some n ∧
      n.segment = m.segment ∧ n.parent = m.parent := by
    intro i m hm
    rw [get?_modifyPayload, hm]
    refine ⟨_, rfl, ?_⟩
    split <;> exact ⟨rfl, rfl⟩
  constructor
  · obtain ⟨m, hm, hpar⟩ := h.root_first
    obtain ⟨n, hn, -, hpar'⟩ := hforth root m hm
    exact ⟨n, hn, hpar'.trans hpar⟩
  · intro i n hn hi
    obtain ⟨m, hm, hseg, hpar, -⟩ := hback i n hn
    obtain ⟨p, hp, hlt, hchild⟩ := h.parent_before i m hm hi
    exact ⟨p, hpar.trans hp, hlt, by rw [child?_modifyPayload, hseg, hchild]⟩
  · intro p s c hc
    rw [child?_modifyPayload] at hc
    obtain ⟨m, hm, hseg, hpar⟩ := h.child_back p s c hc
    obtain ⟨n, hn, hseg', hpar'⟩ := hforth c m hm
    exact ⟨n, hn, hseg'.trans hseg, hpar'.trans hpar⟩
  · intro i n hn
    obtain ⟨m, hm, -, -, hch⟩ := hback i n hn
    rw [hch]
    exact h.children_once i m hm

variable {t id} in
/-- Only the value at the address of the node changes. -/
theorem WellFormed.valueAt_modifyPayload [Inhabited α] (h : t.WellFormed) (hid : id < t.size)
    (q : List String) : (t.modifyPayload id f).valueAt q =
      if q = t.segmentsOf id then f (t.valueAt q) else t.valueAt q := by
  unfold valueAt
  rw [follow_modifyPayload]
  cases hf : t.follow root q with
  | none =>
    have hne : q ≠ t.segmentsOf id := by
      rintro rfl
      rw [h.follow_segmentsOf hid] at hf
      cases hf
    simp [hne]
  | some i =>
    obtain ⟨hi, rfl⟩ := h.follow_root_eq_some_iff.mp hf
    obtain ⟨n, hn⟩ := exists_get?_of_lt hi
    simp only [Option.bind_some, payload?_modifyPayload]
    by_cases hii : id = i
    · subst hii
      simp [payload?, hn]
    · have hne : t.segmentsOf i ≠ t.segmentsOf id := fun heq =>
        hii (h.segmentsOf_inj hi hid heq).symm
      simp [hii, hne]

end Payload

/-- The second tree is the first one with another value at one address. -/
structure Alters (t t' : PathTree α) [Inhabited α] (q : List String) (f : α → α) : Prop where
  wellFormed : t'.WellFormed
  size_eq : t'.size = t.size
  segmentsOf_eq : ∀ i, t'.segmentsOf i = t.segmentsOf i
  valueAt_eq : ∀ r, t'.valueAt r = if r = q then f (t.valueAt r) else t.valueAt r

section Alters

variable [Inhabited α] {t t' t'' : PathTree α} {q : List String} {f g : α → α}

theorem WellFormed.alters_modifyPayload (h : t.WellFormed) {id : NodeId} (hid : id < t.size)
    (f : α → α) : t.Alters (t.modifyPayload id f) (t.segmentsOf id) f :=
  ⟨h.modifyPayload id f, size_modifyPayload t id f, segmentsOf_modifyPayload t id f,
    h.valueAt_modifyPayload f hid⟩

theorem Alters.trans (hf : t.Alters t' q f) (hg : t'.Alters t'' q g) :
    t.Alters t'' q fun a => g (f a) := by
  refine ⟨hg.wellFormed, hg.size_eq.trans hf.size_eq,
    fun i => (hg.segmentsOf_eq i).trans (hf.segmentsOf_eq i), ?_⟩
  intro r
  rw [hg.valueAt_eq, hf.valueAt_eq]
  split <;> rfl

theorem Alters.congr (hf : t.Alters t' q f) (h : f (t.valueAt q) = g (t.valueAt q)) :
    t.Alters t' q g := by
  refine ⟨hf.wellFormed, hf.size_eq, hf.segmentsOf_eq, ?_⟩
  intro r
  rw [hf.valueAt_eq]
  split
  · rename_i hr
    rw [hr, h]
  · rfl

theorem Alters.addresses_eq (hf : t.Alters t' q f) : t'.addresses = t.addresses := by
  unfold addresses
  rw [hf.size_eq]
  exact List.map_congr_left fun i _ => hf.segmentsOf_eq i

end Alters

/-! ## A new child -/

section Child

variable {t : PathTree α} {p : NodeId} {s : String}

theorem get?_addChild (t : PathTree α) (p : NodeId) (s : String) (x : α) (i : NodeId) :
    (t.addChild p s x).get? i =
      if i = t.size then
        some { segment := s, kind := .of s, parent := some p, children := [], payload := x }
      else (t.get? i).map fun n =>
        if p = i then { n with children := Entries.put n.children s t.size } else n := by
  simp only [get?, addChild, size, Array.getElem?_push, Array.size_modify, Array.getElem?_modify]
  by_cases hi : i = t.nodes.size
  · simp [hi]
  · by_cases hp : p = i <;> simp [hi, hp]

theorem get?_addChild_new (t : PathTree α) (p : NodeId) (s : String) (x : α) :
    (t.addChild p s x).get? t.size =
      some { segment := s, kind := .of s, parent := some p, children := [], payload := x } := by
  rw [get?_addChild, if_pos rfl]

theorem size_addChild (t : PathTree α) (p : NodeId) (s : String) (x : α) :
    (t.addChild p s x).size = t.size + 1 := by
  simp [size, addChild]

theorem get?_size_eq_none (t : PathTree α) : t.get? t.size = none :=
  Array.getElem?_eq_none (Nat.le_refl _)

theorem child?_addChild (hp : p < t.size) (x : α) (i : NodeId) (r : String) :
    (t.addChild p s x).child? i r =
      if i = p ∧ r = s then some t.size else t.child? i r := by
  unfold child? childEntries
  rw [get?_addChild]
  by_cases hi : i = t.size
  · have hip : i ≠ p := by rintro rfl; exact Nat.lt_irrefl _ (hi ▸ hp)
    simp [hi, get?_size_eq_none, hi ▸ hip, Entries.get?]
  · by_cases hip : i = p
    · subst hip
      obtain ⟨n, hn⟩ := exists_get?_of_lt hp
      simp [hi, hn, Entries.get?_put]
    · cases t.get? i <;> simp [hi, hip, Ne.symm hip]

/-- A tree with a new child has all that it had before. -/
theorem extends_addChild (hs : t.child? p s = none) (x : α) :
    t.Extends Eq (t.addChild p s x) := by
  intro i n hn
  have hi : i ≠ t.size := Nat.ne_of_lt (lt_size_of_get? hn)
  rw [get?_addChild, if_neg hi, hn]
  refine ⟨_, rfl, ?_⟩
  split
  · rename_i hip
    subst hip
    have hnew : Entries.has n.children s = false := by
      simpa [child?, childEntries, hn, Entries.get?_eq_none_iff] using hs
    refine ⟨rfl, rfl, rfl, rfl, ?_⟩
    show n.children <+: Entries.put n.children s t.size
    rw [Entries.put_of_not_has hnew]
    exact List.prefix_append _ _
  · exact ⟨rfl, rfl, rfl, rfl, List.prefix_refl _⟩

theorem WellFormed.addChild (h : t.WellFormed) (hp : p < t.size) (hs : t.child? p s = none)
    (x : α) : (t.addChild p s x).WellFormed := by
  have hext := extends_addChild hs x
  constructor
  · obtain ⟨m, hm, hpar⟩ := h.root_first
    obtain ⟨n, hn, he⟩ := hext root m hm
    exact ⟨n, hn, he.parent_eq.trans hpar⟩
  · intro i n hn hi
    by_cases hnew : i = t.size
    · subst hnew
      rw [get?_addChild_new] at hn
      cases hn
      exact ⟨p, rfl, hp, by rw [child?_addChild hp, if_pos ⟨rfl, rfl⟩]⟩
    · have hle : i < t.size + 1 := size_addChild t p s x ▸ lt_size_of_get? hn
      have hlt : i < t.size := Nat.lt_of_le_of_ne (Nat.le_of_lt_succ hle) hnew
      obtain ⟨m, hm⟩ := exists_get?_of_lt hlt
      obtain ⟨n', hn', he⟩ := hext i m hm
      rw [hn] at hn'
      cases hn'
      obtain ⟨q, hq, hqi, hchild⟩ := h.parent_before i m hm hi
      refine ⟨q, he.parent_eq.trans hq, hqi, ?_⟩
      have hold : ¬ (q = p ∧ m.segment = s) := by
        rintro ⟨rfl, rfl⟩
        rw [hs] at hchild
        cases hchild
      rw [child?_addChild hp, he.segment_eq, if_neg hold, hchild]
  · intro i r c hc
    rw [child?_addChild hp] at hc
    split at hc
    · rename_i hnew
      obtain ⟨rfl, rfl⟩ := hnew
      cases hc
      exact ⟨_, get?_addChild_new t i r x, rfl, rfl⟩
    · obtain ⟨m, hm, hseg, hpar⟩ := h.child_back i r c hc
      obtain ⟨n, hn, he⟩ := hext c m hm
      exact ⟨n, hn, he.segment_eq.trans hseg, he.parent_eq.trans hpar⟩
  · intro i n hn
    rw [get?_addChild] at hn
    split at hn
    · cases hn
      exact List.nodup_nil
    · rw [Option.map_eq_some_iff] at hn
      obtain ⟨m, hm, rfl⟩ := hn
      have hm' := h.children_once i m hm
      split
      · exact Entries.keys_put_nodup hm' s t.size
      · exact hm'

theorem segmentsOf_addChild_new (hp : p < t.size) (hs : t.child? p s = none) (x : α) :
    (t.addChild p s x).segmentsOf t.size = t.segmentsOf p ++ [s] := by
  have hn := get?_addChild_new t p s x
  rw [segmentsOf_of_parent? (parent?_of_get? hn) hp, segment_of_get? hn,
    (extends_addChild hs x).segmentsOf_eq hp]

/-- The new child has a new address at the end. -/
theorem addresses_addChild (hp : p < t.size) (hs : t.child? p s = none) (x : α) :
    (t.addChild p s x).addresses = t.addresses ++ [t.segmentsOf p ++ [s]] := by
  have hold : (List.range t.size).map (t.addChild p s x).segmentsOf = t.addresses :=
    List.map_congr_left fun i hi =>
      (extends_addChild hs x).segmentsOf_eq (List.mem_range.mp hi)
  rw [addresses, size_addChild, List.range_succ, List.map_append, hold, List.map_singleton,
    segmentsOf_addChild_new hp hs]

end Child

/-! ## An inserted path -/

section Insertion

variable [Inhabited α]

theorem Arrival.extends_descend (a : Arrival α) (s : String) :
    a.tree.Extends Eq (a.descend s).tree := by
  unfold Arrival.descend
  cases hc : a.tree.child? a.node s with
  | some c => exact Extends.refl (fun _ => rfl) _
  | none => exact extends_addChild hc default

theorem Arrival.extends_foldl_descend (q : List String) (a : Arrival α) :
    a.tree.Extends Eq (q.foldl Arrival.descend a).tree := by
  induction q generalizing a with
  | nil => exact Extends.refl (fun _ => rfl) _
  | cons s q ih => exact (a.extends_descend s).trans_eq (ih (a.descend s))

theorem extends_insertAt (t : PathTree α) (start : NodeId) (path : String) :
    t.Extends Eq (t.insertAt start path).tree :=
  Arrival.extends_foldl_descend (Path.segments path)
    { tree := t, node := start, events := namelessEvents path }

/-- The second arrival is the first one after going down some segments: the tree has all it
had, and besides it the addresses on the way, with empty payloads. -/
structure Arrival.Reaches (a : Arrival α) (q : List String) (b : Arrival α) : Prop where
  wellFormed : b.tree.WellFormed
  node_lt : b.node < b.tree.size
  segmentsOf_node : b.tree.segmentsOf b.node = a.tree.segmentsOf a.node ++ q
  keeps : a.tree.Extends Eq b.tree
  fresh : ∀ i, a.tree.size ≤ i → i < b.tree.size → b.tree.payload? i = some default
  mem_addresses_iff : ∀ r, r ∈ b.tree.addresses ↔
    r ∈ a.tree.addresses ∨ r <+: a.tree.segmentsOf a.node ++ q

theorem Arrival.reaches_descend {a : Arrival α} (h : a.tree.WellFormed)
    (hlt : a.node < a.tree.size) (s : String) : a.Reaches [s] (a.descend s) := by
  have hself : a.tree.segmentsOf a.node ∈ a.tree.addresses := mem_addresses.mpr ⟨_, hlt, rfl⟩
  unfold Arrival.descend
  cases hc : a.tree.child? a.node s with
  | some c =>
    obtain ⟨-, hc_lt, hc_seg⟩ := h.child_spec hc
    have hmem : a.tree.segmentsOf a.node ++ [s] ∈ a.tree.addresses :=
      mem_addresses.mpr ⟨c, hc_lt, hc_seg⟩
    refine ⟨h, hc_lt, hc_seg, Extends.refl (fun _ => rfl) _, ?_, ?_⟩
    · intro i hi hi'
      exact absurd hi' (Nat.not_lt.mpr hi)
    · intro r
      exact ⟨Or.inl, fun hr => hr.elim id fun hr => h.mem_addresses_of_prefix hr hmem⟩
  | none =>
    refine ⟨h.addChild hlt hc default, ?_, segmentsOf_addChild_new hlt hc default,
      extends_addChild hc default, ?_, ?_⟩
    · rw [size_addChild]
      exact Nat.lt_succ_self _
    · intro i hi hi'
      rw [size_addChild] at hi'
      have hnew : i = a.tree.size := Nat.le_antisymm (Nat.le_of_lt_succ hi') hi
      rw [hnew, payload?, get?_addChild_new]
      rfl
    · intro r
      rw [addresses_addChild hlt hc, List.mem_append, List.mem_singleton, List.prefix_concat_iff]
      constructor
      · rintro (hr | rfl)
        · exact Or.inl hr
        · exact Or.inr (Or.inl rfl)
      · rintro (hr | rfl | hr)
        · exact Or.inl hr
        · exact Or.inr rfl
        · exact Or.inl (h.mem_addresses_of_prefix hr hself)

theorem Arrival.reaches_foldl_descend (q : List String) {a : Arrival α} (h : a.tree.WellFormed)
    (hlt : a.node < a.tree.size) : a.Reaches q (q.foldl Arrival.descend a) := by
  induction q generalizing a with
  | nil =>
    have hself : a.tree.segmentsOf a.node ∈ a.tree.addresses := mem_addresses.mpr ⟨_, hlt, rfl⟩
    refine ⟨h, hlt, (List.append_nil _).symm, Extends.refl (fun _ => rfl) _, ?_, ?_⟩
    · intro i hi hi'
      exact absurd hi' (Nat.not_lt.mpr hi)
    · intro r
      rw [List.append_nil]
      exact ⟨Or.inl, fun hr => hr.elim id fun hr => h.mem_addresses_of_prefix hr hself⟩
  | cons s q ih =>
    have hs := Arrival.reaches_descend h hlt s
    have hq := ih hs.wellFormed hs.node_lt
    have hcut : a.tree.segmentsOf a.node ++ [s] ++ q = a.tree.segmentsOf a.node ++ s :: q := by
      rw [List.append_assoc, List.singleton_append]
    refine ⟨hq.wellFormed, hq.node_lt, ?_, a.extends_foldl_descend (s :: q), ?_, ?_⟩
    · rw [List.foldl_cons, hq.segmentsOf_node, hs.segmentsOf_node, hcut]
    · intro i hi hi'
      by_cases hmid : i < (a.descend s).tree.size
      · rw [List.foldl_cons, hq.keeps.payload?_eq hmid]
        exact hs.fresh i hi hmid
      · exact hq.fresh i (Nat.le_of_not_lt hmid) hi'
    · intro r
      rw [List.foldl_cons, hq.mem_addresses_iff, hs.mem_addresses_iff, hs.segmentsOf_node, hcut,
        or_assoc]
      refine or_congr_right (or_iff_right_of_imp fun hr => hr.trans ?_)
      rw [← hcut]
      exact List.prefix_append _ _

/-- Going down leaves what stands at every address as it is. -/
theorem Arrival.Reaches.valueAt_eq {a b : Arrival α} {q : List String} (h : a.Reaches q b)
    (ha : a.tree.WellFormed) (r : List String) : b.tree.valueAt r = a.tree.valueAt r := by
  unfold valueAt
  cases hf : b.tree.follow root r with
  | none =>
    have hnone : a.tree.follow root r = none := by
      rw [Option.eq_none_iff_forall_ne_some]
      intro i hi
      have hmem := (h.mem_addresses_iff r).mpr (Or.inl (ha.mem_addresses_iff_follow.mpr ⟨i, hi⟩))
      obtain ⟨j, hj⟩ := h.wellFormed.mem_addresses_iff_follow.mp hmem
      rw [hf] at hj
      cases hj
    rw [hnone, Option.bind_none, Option.bind_none]
  | some i =>
    obtain ⟨hi, hseg⟩ := h.wellFormed.follow_root_eq_some_iff.mp hf
    by_cases hold : i < a.tree.size
    · have ha_follow : a.tree.follow root r = some i :=
        ha.follow_root_eq_some_iff.mpr ⟨hold, (h.keeps.segmentsOf_eq hold).symm.trans hseg⟩
      rw [ha_follow, Option.bind_some, Option.bind_some, h.keeps.payload?_eq hold]
    · have ha_follow : a.tree.follow root r = none := by
        rw [Option.eq_none_iff_forall_ne_some]
        intro j hj
        obtain ⟨hj_lt, hj_seg⟩ := ha.follow_root_eq_some_iff.mp hj
        have hj_lt' := Nat.lt_of_lt_of_le hj_lt h.keeps.size_le
        have hij : i = j := h.wellFormed.segmentsOf_inj hi hj_lt'
          (hseg.trans (hj_seg.symm.trans (h.keeps.segmentsOf_eq hj_lt).symm))
        exact hold (hij ▸ hj_lt)
      rw [ha_follow, Option.bind_some, h.fresh i (Nat.le_of_not_lt hold) hi]
      rfl

/-- Inserting a path below a node goes down the segments of the path. -/
theorem WellFormed.reaches_insertAt {t : PathTree α} (h : t.WellFormed) {start : NodeId}
    (hlt : start < t.size) (path : String) :
    Arrival.Reaches { tree := t, node := start, events := namelessEvents path }
      (Path.segments path) (t.insertAt start path) :=
  Arrival.reaches_foldl_descend (Path.segments path) h hlt

end Insertion

/-! ## A new tree -/

theorem wellFormed_new (x : α) : (new x).WellFormed := by
  have hget : ∀ i n, (new x).get? i = some n → i = root ∧ n.children = [] := by
    intro i n hn
    have hi : i < 1 := lt_size_of_get? hn
    have hi0 : i = 0 := Nat.lt_one_iff.mp hi
    subst hi0
    cases hn
    exact ⟨rfl, rfl⟩
  constructor
  · exact ⟨_, rfl, rfl⟩
  · intro i n hn hi
    exact absurd (hget i n hn).1 hi
  · intro p s c hc
    obtain ⟨n, hn, hget'⟩ := child?_eq_some_iff.mp hc
    rw [(hget p n hn).2] at hget'
    cases hget'
  · intro i n hn
    rw [(hget i n hn).2]
    exact List.nodup_nil

theorem addresses_new (x : α) : (new x).addresses = [[]] := by
  show [(new x).segmentsOf root] = [[]]
  rw [segmentsOf_root]

theorem valueAt_new [Inhabited α] (q : List String) : (new (default : α)).valueAt q = default := by
  unfold valueAt
  cases hf : (new (default : α)).follow root q with
  | none => rfl
  | some i =>
    obtain ⟨hi, -⟩ := (wellFormed_new default).follow_root_eq_some_iff.mp hf
    have hi0 : i = 0 := Nat.lt_one_iff.mp hi
    subst hi0
    rfl

end PathTree

end RestContract
