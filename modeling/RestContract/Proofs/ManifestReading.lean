-- What reading a manifest comes to. It does not depend on what was told before, so every step
-- is a value, or none if the manifest is refused. Of a route that declares methods, only the
-- values under the keys of methods count, each by itself.
import RestContract.Manifest.Basic
import RestContract.Proofs.Entries

namespace RestContract

/-! ## Steps of reading -/

namespace Reading

variable {α β : Type}

/-- The result is the value, or some error if there is none. -/
inductive EndsIn : EStateM.Result ManifestError (List Event) α → Option α → Prop
  | ok (a : α) (told : List Event) : EndsIn (.ok a told) (some a)
  | error (e : ManifestError) (told : List Event) : EndsIn (.error e told) none

/-- Whatever was told before, the step comes to the value, or to some error if there is none. -/
def ComesTo (r : Reading α) (x : Option α) : Prop := ∀ told, EndsIn (r.run told) x

theorem comesTo_pure (a : α) : ComesTo (pure a) (some a) := fun told => .ok a told

theorem comesTo_throw (e : ManifestError) : ComesTo (throw e : Reading α) none :=
  fun told => .error e told

theorem comesTo_tell (events : List Event) : ComesTo (tell events) (some ()) :=
  fun told => .ok () (told ++ events)

theorem ComesTo.bind {r : Reading α} {x : Option α} {f : α → Reading β} {g : α → Option β}
    (hr : ComesTo r x) (hf : ∀ a, ComesTo (f a) (g a)) : ComesTo (r >>= f) (x.bind g) := by
  intro told
  have hfirst := hr told
  simp only [EStateM.run, Bind.bind, EStateM.bind] at hfirst ⊢
  revert hfirst
  generalize r told = result
  rintro (⟨a, told'⟩ | ⟨e, told'⟩)
  · exact hf a told'
  · exact .error e told'

theorem ComesTo.mapM {f : α → Reading β} {g : α → Option β} (h : ∀ a, ComesTo (f a) (g a))
    (xs : List α) : ComesTo (xs.mapM f) (xs.mapM g) := by
  induction xs with
  | nil => exact comesTo_pure []
  | cons x xs ih =>
    rw [List.mapM_cons, List.mapM_cons]
    exact (h x).bind fun b => ih.bind fun bs => comesTo_pure (b :: bs)

theorem ComesTo.foldlM {f : β → α → Reading β} {g : β → α → Option β}
    (h : ∀ b a, ComesTo (f b a) (g b a)) (xs : List α) (b : β) :
    ComesTo (xs.foldlM f b) (xs.foldlM g b) := by
  induction xs generalizing b with
  | nil => exact comesTo_pure b
  | cons x xs ih =>
    rw [List.foldlM_cons, List.foldlM_cons]
    exact (h b x).bind fun c => ih c

theorem ComesTo.outcome_eq {r : Reading α} {a : α} (h : ComesTo r (some a)) :
    r.outcome.1 = .ok a := by
  have hend := h []
  unfold outcome
  revert hend
  generalize r.run [] = result
  rintro ⟨_, told⟩
  rfl

theorem ComesTo.exists_outcome_eq {r : Reading α} (h : ComesTo r none) :
    ∃ e, r.outcome.1 = .error e := by
  have hend := h []
  unfold outcome
  revert hend
  generalize r.run [] = result
  rintro (_ | ⟨e, told⟩)
  exact ⟨e, rfl⟩

end Reading

/-! ## The keys of methods -/

namespace Method

/-- The key of a method in a route. -/
def routeKey : Method → String
  | .get => "get"
  | .post => "post"
  | .put => "put"
  | .delete => "delete"
  | .options => "options"
  | .any => "any"

theorem map_toLower_name (m : Method) : m.name.map Char.toLower = m.routeKey := by
  apply String.toList_injective
  rw [String.toList_map]
  cases m <;> rfl

theorem routeKey_injective : Function.Injective routeKey := by
  intro m m'
  cases m <;> cases m' <;> decide

/-- The keys of route methods lead to them, and no other text leads to a method. -/
theorem ofRouteKey?_eq_some_iff {key : String} {m : Method} :
    ofRouteKey? key = some m ↔ m.isRouteMethod = true ∧ m.routeKey = key := by
  simp only [ofRouteKey?, map_toLower_name]
  constructor
  · intro h
    exact ⟨List.contains_iff_mem.mpr (List.mem_of_find?_eq_some h),
      beq_iff_eq.mp (List.find?_some (p := fun m : Method => m.routeKey == key) h)⟩
  · rintro ⟨hm, rfl⟩
    revert hm
    cases m <;> decide

end Method

namespace Manifest

open Reading

/-! ## The global section and definitions -/

theorem exists_comesTo_readAuth (auth : Option Json) : ∃ x, ComesTo (readAuth auth) x := by
  unfold readAuth
  split
  · exact ⟨_, comesTo_pure _⟩
  · split
    · exact ⟨_, comesTo_throw _⟩
    · exact ⟨_, comesTo_pure _⟩
    · exact ⟨_, comesTo_pure _⟩
    · exact ⟨_, (comesTo_tell _).bind fun _ => comesTo_pure _⟩

theorem exists_comesTo_readCors (cors : Option Json) : ∃ x, ComesTo (readCors cors) x := by
  unfold readCors
  split
  · exact ⟨_, comesTo_pure _⟩
  · split
    · exact ⟨_, comesTo_throw _⟩
    · exact ⟨_, comesTo_pure _⟩

/-- The definition that a value describes, if it is not refused. -/
def definition? (v : Json) : Option ResourceDefinition := (ResourceDefinition.probe v).toOption

theorem comesTo_probe (path key : String) (v : Json) :
    ComesTo (probe path key v) (definition? v) := by
  refine ComesTo.bind (g := fun _ => definition? v) (comesTo_tell _) fun _ => ?_
  unfold definition?
  cases ResourceDefinition.probe v with
  | ok d => exact comesTo_pure d
  | error e => exact comesTo_throw _

/-! ## Routes -/

/-- The value under a key of a route, if it says something. -/
def said? (entries : Entries String Json) (key : String) : Option Json :=
  (Entries.get? entries key).filter Json.isTruthy

/-- The methods with the one under a key, if there is one and its definition is not refused. -/
def withMethod? (methods : Entries Method ResourceDefinition) (entry : String × Json) :
    Option (Entries Method ResourceDefinition) :=
  match Method.ofRouteKey? entry.1 with
  | none => some methods
  | some m =>
    if entry.2.isTruthy then (definition? entry.2).map (Entries.put methods m) else some methods

/-- The route of some entries, if no definition in it is refused. -/
def routeOf? (entries : Entries String Json) : Option RouteDefinition :=
  match proxy? entries with
  | some v => (definition? v).map .proxy
  | none => (entries.foldlM withMethod? []).map .methods

theorem comesTo_readEntry (path : String) (methods : Entries Method ResourceDefinition)
    (entry : String × Json) :
    ComesTo (readEntry path methods entry) (withMethod? methods entry) := by
  unfold readEntry withMethod?
  cases Method.ofRouteKey? entry.1 with
  | none => exact (comesTo_tell _).bind fun _ => comesTo_pure methods
  | some m =>
    dsimp only
    split
    · rw [Option.map_eq_bind]
      exact (comesTo_probe _ _ _).bind fun _ => comesTo_pure _
    · exact comesTo_pure methods

theorem comesTo_readRoute (path : String) (entries : Entries String Json) :
    ComesTo (readRoute path entries) (routeOf? entries) := by
  unfold readRoute routeOf?
  cases proxy? entries with
  | some v =>
    dsimp only
    rw [Option.map_eq_bind]
    exact (comesTo_tell _).bind fun _ => (comesTo_probe _ _ _).bind fun _ => comesTo_pure _
  | none =>
    dsimp only
    rw [Option.map_eq_bind]
    exact (ComesTo.foldlM (comesTo_readEntry path) entries []).bind fun _ => comesTo_pure _

/-! ## Methods by their keys -/

section Methods

variable {entries : Entries String Json}

theorem said?_cons (key : String) (e : String × Json) (es : Entries String Json) :
    said? (e :: es) key = if key == e.1 then (some e.2).filter Json.isTruthy
      else said? es key := by
  rw [said?, said?, Entries.get?, Entries.get?, List.lookup_cons]
  cases key == e.1 <;> rfl

theorem said?_eq_none_of_not_mem {key : String} (h : key ∉ Entries.keys entries) :
    said? entries key = none := by
  have hnone : Entries.get? entries key = none := by
    rw [Entries.get?_eq_none_iff, ← Bool.not_eq_true]
    exact fun hhas => h (Entries.mem_keys_iff.mpr hhas)
  rw [said?, hnone]
  rfl

/-- An entry either changes nothing, or it is what the route says of one method. -/
theorem withMethod?_cases (ms : Entries Method ResourceDefinition) {e : String × Json}
    {es : Entries String Json} (hnew : e.1 ∉ Entries.keys es) :
    (withMethod? ms e = some ms ∧ ∀ m : Method, m.isRouteMethod = true →
      said? (e :: es) m.routeKey = said? es m.routeKey) ∨
    ∃ m₀ : Method, m₀.isRouteMethod = true ∧
      withMethod? ms e = (definition? e.2).map (Entries.put ms m₀) ∧
      said? es m₀.routeKey = none ∧ ∀ m : Method,
        said? (e :: es) m.routeKey = if m = m₀ then some e.2 else said? es m.routeKey := by
  have hold : said? es e.1 = none := said?_eq_none_of_not_mem hnew
  unfold withMethod?
  cases hkey : Method.ofRouteKey? e.1 with
  | none =>
    refine Or.inl ⟨rfl, fun m hm => ?_⟩
    have hne : m.routeKey ≠ e.1 := by
      intro heq
      rw [Method.ofRouteKey?_eq_some_iff.mpr ⟨hm, heq⟩] at hkey
      cases hkey
    rw [said?_cons, beq_eq_false_iff_ne.mpr hne]
    rfl
  | some m₀ =>
    obtain ⟨hm₀, hkey⟩ := Method.ofRouteKey?_eq_some_iff.mp hkey
    rw [← hkey] at hold
    have hcons : ∀ m : Method, said? (e :: es) m.routeKey =
        if m = m₀ then (some e.2).filter Json.isTruthy else said? es m.routeKey := by
      intro m
      rw [said?_cons, ← hkey]
      by_cases hm : m = m₀
      · simp [hm]
      · rw [if_neg hm, beq_eq_false_iff_ne.mpr (Method.routeKey_injective.ne hm)]
        rfl
    dsimp only
    cases htruthy : e.2.isTruthy with
    | true =>
      refine Or.inr ⟨m₀, hm₀, rfl, hold, fun m => ?_⟩
      rw [hcons, Option.filter_some, htruthy]
      rfl
    | false =>
      refine Or.inl ⟨rfl, fun m _ => ?_⟩
      rw [hcons, Option.filter_some, htruthy]
      split
      · rename_i hm
        rw [hm, hold]
        rfl
      · rfl

/-- The methods of a route are refused if one of their definitions is. -/
theorem foldlM_withMethod?_eq_none_iff (h : (Entries.keys entries).Nodup)
    (ms : Entries Method ResourceDefinition) :
    entries.foldlM withMethod? ms = none ↔ ∃ m : Method, m.isRouteMethod = true ∧
      ∃ v, said? entries m.routeKey = some v ∧ definition? v = none := by
  induction entries generalizing ms with
  | nil => simp [said?, Entries.get?]
  | cons e es ih =>
    obtain ⟨hnew, hes⟩ := List.nodup_cons.mp h
    rw [List.foldlM_cons]
    rcases withMethod?_cases ms hnew with ⟨hsame, hsaid⟩ | ⟨m₀, hm₀, hwith, hold, hsaid⟩
    · rw [hsame]
      refine (ih hes ms).trans (exists_congr fun m => and_congr_right fun hm => ?_)
      rw [hsaid m hm]
    · rw [hwith]
      cases hdef : definition? e.2 with
      | none =>
        refine iff_of_true rfl ⟨m₀, hm₀, e.2, ?_, hdef⟩
        rw [hsaid, if_pos rfl]
      | some d =>
        refine (ih hes _).trans (exists_congr fun m => and_congr_right fun _ => ?_)
        rw [hsaid]
        by_cases hm : m = m₀
        · simp [hm, hold, hdef]
        · rw [if_neg hm]

/-- Each method has the definition that its own key says. -/
theorem get?_of_foldlM_withMethod? (h : (Entries.keys entries).Nodup)
    {ms ms' : Entries Method ResourceDefinition} (hms : entries.foldlM withMethod? ms = some ms')
    {m : Method} (hm : m.isRouteMethod = true) : Entries.get? ms' m =
      match said? entries m.routeKey with
      | some v => definition? v
      | none => Entries.get? ms m := by
  induction entries generalizing ms with
  | nil =>
    cases hms
    simp [said?, Entries.get?]
  | cons e es ih =>
    obtain ⟨hnew, hes⟩ := List.nodup_cons.mp h
    rw [List.foldlM_cons] at hms
    rcases withMethod?_cases ms hnew with ⟨hsame, hsaid⟩ | ⟨m₀, hm₀, hwith, hold, hsaid⟩
    · rw [hsame] at hms
      rw [hsaid m hm]
      exact ih hes hms
    · rw [hwith] at hms
      cases hdef : definition? e.2 with
      | none =>
        rw [hdef] at hms
        cases hms
      | some d =>
        rw [hdef] at hms
        rw [ih hes hms, hsaid]
        by_cases hmm : m = m₀
        · simp [hmm, hold, hdef, Entries.get?_put]
        · rw [if_neg hmm, Entries.get?_put, beq_eq_false_iff_ne.mpr hmm]
          rfl

end Methods

end Manifest

end RestContract
