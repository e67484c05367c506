-- The documents of compiled enums. A compiler leaves an entry for each member of an enum and, for
-- each number among the values, a reverse entry that leads back to a name. In whatever order the
-- entries stand, the document lists the values of the members, but for texts that name a number.
import Mathlib.Data.List.Sort
import RestContract.Proofs.Admission
import RestContract.Proofs.ValueEquality
import RestContract.Schema.Conversion

namespace RestContract

/-! ## First places -/

section FirstSeen

variable {β : Type} [BEq β] [LawfulBEq β]

/-- The elements of a list, each once and in the order of their first places. -/
structure ListsFirstSeen (firsts l : List β) : Prop where
  mem_iff : ∀ b, b ∈ firsts ↔ b ∈ l
  ordered : firsts.Pairwise fun a b => l.idxOf a < l.idxOf b

theorem listsFirstSeen_eraseDups (l : List β) : ListsFirstSeen l.eraseDups l := by
  refine ⟨fun b => List.mem_eraseDups, ?_⟩
  induction l using List.reverseRecOn with
  | nil => exact List.Pairwise.nil
  | append_singleton l x ih =>
    have hkeep : l.eraseDups.Pairwise fun a b => (l ++ [x]).idxOf a < (l ++ [x]).idxOf b := by
      refine ih.imp_of_mem fun ha hb hlt => ?_
      rwa [List.idxOf_append_of_mem (List.mem_eraseDups.mp ha),
        List.idxOf_append_of_mem (List.mem_eraseDups.mp hb)]
    by_cases hx : x ∈ l
    · have hseen := eraseDups_append_of_subset (List.forall_mem_singleton.mpr hx) []
      rw [List.append_nil, List.append_nil] at hseen
      exact hseen ▸ hkeep
    · have hnew : [x].removeAll l = [x] := by simpa [List.removeAll] using hx
      rw [List.eraseDups_append, hnew]
      refine List.pairwise_append.mpr ⟨hkeep, List.pairwise_singleton _ _, fun a ha b hb => ?_⟩
      have hmem := List.mem_eraseDups.mp ha
      obtain rfl := List.mem_singleton.mp hb
      rw [List.idxOf_append_of_mem hmem, List.idxOf_append_of_notMem hx]
      have hlt := List.idxOf_lt_length_of_mem hmem
      omega

/-- There is only one such list. -/
theorem listsFirstSeen_iff {firsts l : List β} :
    ListsFirstSeen firsts l ↔ firsts = l.eraseDups := by
  refine ⟨fun h => ?_, fun h => h ▸ listsFirstSeen_eraseDups l⟩
  have : Std.Irrefl fun a b : β => l.idxOf a < l.idxOf b := ⟨fun a => Nat.lt_irrefl _⟩
  refine h.ordered.eq_of_mem_iff (listsFirstSeen_eraseDups l).ordered fun b => ?_
  rw [h.mem_iff, List.mem_eraseDups]

omit [LawfulBEq β] in
theorem listsFirstSeen_singleton_iff {b : β} {l : List β} :
    ListsFirstSeen [b] l ↔ l ≠ [] ∧ ∀ c ∈ l, c = b := by
  constructor
  · intro h
    exact ⟨List.ne_nil_of_mem ((h.mem_iff b).mp List.mem_cons_self),
      fun c hc => List.mem_singleton.mp ((h.mem_iff c).mpr hc)⟩
  · rintro ⟨hne, hall⟩
    obtain ⟨c, hc⟩ := List.exists_mem_of_ne_nil l hne
    refine ⟨fun d => ?_, List.pairwise_singleton _ _⟩
    rw [List.mem_singleton]
    exact ⟨fun hd => hd ▸ hall c hc ▸ hc, hall d⟩

end FirstSeen

/-! ## Types -/

/-- The types of which one has to fit. -/
def Types.toList : Types → List PrimitiveType
  | .one t => [t]
  | .anyOf ts => ts

theorem Types.fit_eq (ts : Types) (v : Json) : ts.fit v = ts.toList.any (·.fits v) := by
  cases ts with
  | one t => simp [fit, toList]
  | anyOf ts => rfl

namespace Document

theorem toList_typesOf (values : List EnumValue) :
    (typesOf values).toList = (values.map typeOf).eraseDups := by
  unfold typesOf
  split
  · rename_i t hone
    exact hone.symm
  · rfl

theorem fits_typeOf (v : EnumValue) : (typeOf v).fits v.toJson = true := by
  cases v <;> rfl

/-! ## The document of some entries -/

/-- The values that are kept. -/
def keptValues (values : Entries String EnumValue) : List EnumValue :=
  (Entries.values values).filter (isForward values)

variable {values : Entries String EnumValue}

theorem ofNativeEnum_of_isEmpty (h : keptValues values = []) : ofNativeEnum values = never :=
  if_pos (List.isEmpty_iff.mpr h)

theorem ofNativeEnum_of_ne_nil (h : keptValues values ≠ []) : ofNativeEnum values =
    { types := some (typesOf (keptValues values))
      enumValues := (keptValues values).map EnumValue.toJson } :=
  if_neg (mt List.isEmpty_iff.mp h)

theorem enumValues_ofNativeEnum (values : Entries String EnumValue) :
    (ofNativeEnum values).enumValues = (keptValues values).map EnumValue.toJson := by
  by_cases h : keptValues values = []
  · rw [ofNativeEnum_of_isEmpty h, h]
    rfl
  · rw [ofNativeEnum_of_ne_nil h]

/-- A single type is given if all kept values have it. -/
theorem types_ofNativeEnum_eq_one_iff {t : PrimitiveType} :
    (ofNativeEnum values).types = some (.one t) ↔
      keptValues values ≠ [] ∧ ∀ v ∈ keptValues values, typeOf v = t := by
  by_cases h : keptValues values = []
  · rw [ofNativeEnum_of_isEmpty h]
    simp [never, h]
  · have hone : typesOf (keptValues values) = .one t ↔
        ((keptValues values).map typeOf).eraseDups = [t] := by
      unfold typesOf
      split <;> simp_all
    rw [ofNativeEnum_of_ne_nil h, Option.some_inj, hone, eq_comm, ← listsFirstSeen_iff,
      listsFirstSeen_singleton_iff]
    simp

/-- A list of types is given if the kept values have several, in the order of the first ones. -/
theorem types_ofNativeEnum_eq_anyOf_iff {ts : List PrimitiveType} :
    (ofNativeEnum values).types = some (.anyOf ts) ↔
      2 ≤ ts.length ∧ ListsFirstSeen ts ((keptValues values).map typeOf) := by
  rw [listsFirstSeen_iff]
  by_cases h : keptValues values = []
  · rw [ofNativeEnum_of_isEmpty h, h]
    refine ⟨nofun, ?_⟩
    rintro ⟨hlength, rfl⟩
    cases hlength
  · have hany : typesOf (keptValues values) = .anyOf ts ↔
        ts.length ≠ 1 ∧ ts = ((keptValues values).map typeOf).eraseDups := by
      unfold typesOf
      split
      · rename_i t hone
        rw [hone]
        refine ⟨nofun, ?_⟩
        rintro ⟨hlength, rfl⟩
        exact absurd rfl hlength
      · rename_i hmany
        rw [Types.anyOf.injEq, eq_comm]
        refine ⟨?_, And.right⟩
        rintro rfl
        exact ⟨fun hlength => (List.length_eq_one_iff.mp hlength).elim hmany, rfl⟩
    rw [ofNativeEnum_of_ne_nil h, Option.some_inj, hany]
    refine and_congr_left ?_
    rintro rfl
    have hpos : 0 < ((keptValues values).map typeOf).eraseDups.length := by
      obtain ⟨v, hv⟩ := List.exists_mem_of_ne_nil _ h
      exact List.length_pos_of_mem (List.mem_eraseDups.mpr (List.mem_map_of_mem hv))
    omega

theorem admits_ofNativeEnum {v : EnumValue} (hv : v ∈ keptValues values) :
    (ofNativeEnum values).admits v.toJson = true := by
  have hself : v.toJson.same v.toJson = true := (v.same_toJson v).trans v.same_self
  have hfit : (typesOf (keptValues values)).fit v.toJson = true := by
    rw [Types.fit_eq, toList_typesOf, List.any_eq_true]
    exact ⟨typeOf v, List.mem_eraseDups.mpr (List.mem_map_of_mem hv), fits_typeOf v⟩
  have hlisted : listed ((keptValues values).map EnumValue.toJson) v.toJson = true := by
    rw [listed, Bool.or_eq_true, List.any_eq_true]
    exact .inr ⟨v.toJson, List.mem_map_of_mem hv, hself⟩
  rw [ofNativeEnum_of_ne_nil (List.ne_nil_of_mem hv), admits_plain, hlisted]
  simp [hfit, admitsNegated]

theorem ofNativeEnum_admits_nothing_iff :
    (∀ v, (ofNativeEnum values).admits v = false) ↔ keptValues values = [] := by
  constructor
  · intro h
    by_contra hne
    obtain ⟨v, hv⟩ := List.exists_mem_of_ne_nil _ hne
    exact absurd (admits_ofNativeEnum hv) (by simp [h])
  · intro h v
    rw [ofNativeEnum_of_isEmpty h, admits_never]

/-! ## Compiled mappings -/

/-- The mapping that a compiler leaves behind for the members of an enum, in any order: an entry
for each member and, for each number, one reverse entry to a member with this number. -/
structure Compiles (members values : Entries String EnumValue) : Prop where
  names_nodup : (Entries.keys members).Nodup
  plain : ∀ m ∈ members, (∃ s, m.2 = .text s) ∨ ∃ n, m.2 = .number (.int n)
  /-- No name is the decimal form of a number. -/
  apart : ∀ m ∈ members, ∀ n, m.2 = .number (.int n) → toString n ∉ Entries.keys members
  keys_nodup : (Entries.keys values).Nodup
  forward : ∀ m ∈ members, m ∈ values
  reverse : ∀ m ∈ members, ∀ n, m.2 = .number (.int n) →
    ∃ name, (name, .number (.int n)) ∈ members ∧ (toString n, .text name) ∈ values
  only : ∀ e ∈ values, e ∈ members ∨
    ∃ name n, (name, .number (.int n)) ∈ members ∧ e = (toString n, .text name)

/-- The text is the name of a member with a number. -/
def namesNumber (members : Entries String EnumValue) : EnumValue → Bool
  | .text s => members.any fun m => m.1 == s && m.2.isNumber
  | .number _ => false

/-- The entries of members in the order in which they stand among the others, without the texts
that name a number. -/
def memberEntries (members values : Entries String EnumValue) : Entries String EnumValue :=
  values.filter fun e => members.contains e && !namesNumber members e.2

section Compiled

variable {members : Entries String EnumValue}

/-- A number is found under a key exactly if the key is the name of a member with a number. -/
theorem Compiles.number_found_eq (h : Compiles members values) (key : String) :
    (Entries.get? values key).any EnumValue.isNumber = namesNumber members (.text key) := by
  rw [Bool.eq_iff_iff, Option.any_eq_true, namesNumber, List.any_eq_true]
  constructor
  · rintro ⟨v, hv, hnumber⟩
    rcases h.only _ (Entries.mem_of_get? hv) with hmem | ⟨name, n, -, heq⟩
    · exact ⟨_, hmem, by simp [hnumber]⟩
    · cases heq
      cases hnumber
  · rintro ⟨m, hm, hkey⟩
    rw [Bool.and_eq_true, beq_iff_eq] at hkey
    obtain ⟨rfl, hnumber⟩ := hkey
    exact ⟨m.2, (Entries.get?_eq_some_iff h.keys_nodup).mpr (h.forward m hm), hnumber⟩

/-- Looking a value up again keeps the members and drops the reverse entries: the key of a number
is the name of no member, and a reverse entry leads to the name of a number. -/
theorem Compiles.isForward_eq (h : Compiles members values) {e : String × EnumValue}
    (he : e ∈ values) :
    isForward values e.2 = (members.contains e && !namesNumber members e.2) := by
  rw [isForward, h.number_found_eq]
  rcases h.only e he with hmem | ⟨name, n, hname, rfl⟩
  · rw [List.contains_iff_mem.mpr hmem, Bool.true_and]
    rcases h.plain e hmem with ⟨s, hs⟩ | ⟨n, hn⟩
    · rw [hs]
      rfl
    · have hnone : namesNumber members (.text (toString n)) = false := by
        rw [namesNumber, List.any_eq_false]
        rintro m hm hkey
        rw [Bool.and_eq_true, beq_iff_eq] at hkey
        exact h.apart e hmem n hn (hkey.1 ▸ List.mem_map_of_mem hm)
      rw [hn]
      exact congrArg Bool.not hnone
  · have hnumber : namesNumber members (.text name) = true := by
      rw [namesNumber, List.any_eq_true]
      exact ⟨_, hname, by simp [EnumValue.isNumber]⟩
    rw [hnumber, Bool.not_true, Bool.and_false]
    exact congrArg Bool.not hnumber

theorem Compiles.keptValues_eq (h : Compiles members values) :
    keptValues values = Entries.values (memberEntries members values) := by
  rw [keptValues, memberEntries, Entries.values, Entries.values, List.filter_map]
  exact congrArg _ (List.filter_congr fun e he => h.isForward_eq he)

end Compiled

end Document

/-! ## The law -/

namespace TypeSchema

open Document

/-- The document of a compiled enum lists the values of the members in the order of their entries,
but for the texts that name a number. It has the one type of these values, or the list of their
types in the order of the first ones. It admits nothing exactly if there are no such values. -/
theorem compiled_enums_convert_to_the_values_of_their_members
    {members values : Entries String EnumValue} (h : Compiles members values) :
    ∃ d, (nativeEnum values).convert = .ok d ∧
      d.enumValues = (Entries.values (memberEntries members values)).map EnumValue.toJson ∧
      (∀ t, d.types = some (.one t) ↔ memberEntries members values ≠ [] ∧
        ∀ e ∈ memberEntries members values, typeOf e.2 = t) ∧
      (∀ ts, d.types = some (.anyOf ts) ↔ 2 ≤ ts.length ∧
        ListsFirstSeen ts ((memberEntries members values).map fun e => typeOf e.2)) ∧
      ((∀ v, d.admits v = false) ↔ memberEntries members values = []) ∧
      (memberEntries members values = [] → d = never) := by
  have hkept := h.keptValues_eq
  have hempty : keptValues values = [] ↔ memberEntries members values = [] := by
    rw [hkept, Entries.values, List.map_eq_nil_iff]
  refine ⟨ofNativeEnum values, by rw [convert], ?_, fun t => ?_, fun ts => ?_, ?_,
    fun hnone => ofNativeEnum_of_isEmpty (hempty.mpr hnone)⟩
  · rw [enumValues_ofNativeEnum, hkept]
  · rw [types_ofNativeEnum_eq_one_iff, ne_eq, hempty, hkept]
    simp only [Entries.values, List.forall_mem_map]
  · rw [types_ofNativeEnum_eq_anyOf_iff, hkept, Entries.values, List.map_map]
    rfl
  · rw [ofNativeEnum_admits_nothing_iff, hempty]

/-- Two members with one number, a text that names it, and reverse entries in between. -/
theorem a_mixed_enum_converts_to_the_values_of_its_members :
    ∃ d, (nativeEnum [("0", .text "Off"), ("None", .number (.int 0)), ("Label", .text "label"),
        ("Off", .number (.int 0)), ("Default", .text "None"), ("On", .number (.int 1)),
        ("1", .text "On")]).convert = .ok d ∧
      d.enumValues = [.int 0, .str "label", .int 0, .int 1] ∧
      d.types = some (.anyOf [.number, .string]) := by
  have hcompiles : Compiles
      [("None", .number (.int 0)), ("Off", .number (.int 0)), ("On", .number (.int 1)),
        ("Label", .text "label"), ("Default", .text "None")]
      [("0", .text "Off"), ("None", .number (.int 0)), ("Label", .text "label"),
        ("Off", .number (.int 0)), ("Default", .text "None"), ("On", .number (.int 1)),
        ("1", .text "On")] := by
    refine ⟨by decide, by simp, ?_, by decide, by simp, ?_, ?_⟩
    · simp
      decide
    · simp
      decide
    · simp
      decide
  obtain ⟨d, hd, hvalues, -, htypes, -⟩ :=
    compiled_enums_convert_to_the_values_of_their_members hcompiles
  refine ⟨d, hd, hvalues, (htypes _).mpr ⟨by decide, ?_⟩⟩
  exact listsFirstSeen_iff.mpr (by decide)

end TypeSchema

end RestContract
