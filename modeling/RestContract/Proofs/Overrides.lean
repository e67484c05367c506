-- The laws of overrides. A variable whose name is the common beginning and one of thirteen
-- endings sets the setting of its own, and any other variable sets nothing. So the settings
-- under some variables are described setting by setting, and no order of them matters.
import RestContract.Proofs.Entries
import RestContract.Settings.Loading

namespace RestContract

/-! ## Names -/

namespace Overridable

/-- What stands behind the common beginning in the name of the variable of a setting. -/
def ending : Overridable → String
  | apiName => "__API__NAME"
  | stageName => "__API__STAGE_NAME"
  | validateRequestBody => "__API__VALIDATE_REQUEST_BODY"
  | validateRequestParameters => "__API__VALIDATE_REQUEST_PARAMETERS"
  | logEnabled => "__LOGGING__ENABLED"
  | logLevel => "__LOGGING__LEVEL"
  | logFormat => "__LOGGING__FORMAT"
  | logAnsi => "__LOGGING__ANSI_ENABLED"
  | logLocation => "__LOGGING__INCLUDE_LOCATION"
  | corsOrigins => "__CORS__ALLOW_ORIGINS"
  | corsHeaders => "__CORS__ALLOW_HEADERS"
  | corsCredentials => "__CORS__ALLOW_CREDENTIALS"
  | corsMaxAge => "__CORS__MAX_AGE_SECS"

theorem exists_words_eq (cs : List Char) : ∃ w ws, words cs = w :: ws := by
  fun_cases words cs <;> simp_all

theorem intercalate_words (cs : List Char) : separator.intercalate (words cs) = cs := by
  fun_induction words cs with
  | case1 => rfl
  | case2 cs ih =>
    obtain ⟨w, ws, h⟩ := exists_words_eq cs
    rw [h] at ih ⊢
    rw [List.intercalate_cons_cons, ih]
    rfl
  | case3 c cs hsep w ws h ih =>
    rw [h] at ih
    cases ws <;> simp_all [List.intercalate]
  | case4 c cs hsep h ih =>
    obtain ⟨w, ws, h'⟩ := exists_words_eq cs
    rw [h] at h'
    cases h'

theorem words_of_ending (o : Overridable) : ∃ rest, o.ending.toList = separator ++ rest ∧
    words rest = [o.group.toList, o.key.toList] := by
  cases o <;> exact ⟨_, rfl, by decide⟩

theorem ofWords?_eq_some_iff {ws : List (List Char)} {o : Overridable} :
    ofWords? ws = some o ↔ ws = [o.group.toList, o.key.toList] := by
  constructor
  · intro h
    simpa using List.find?_some h
  · rintro rfl
    cases o <;> decide

/-- A variable has a setting exactly if its name is the beginning and the ending of the
setting. -/
theorem ofVariable?_eq_some_iff {beginning name : String} {o : Overridable} :
    ofVariable? beginning name = some o ↔ name = beginning ++ o.ending := by
  obtain ⟨tail, htail, hwords⟩ := o.words_of_ending
  have hname : name = beginning ++ o.ending ↔
      name.toList = beginning.toList ++ (separator ++ tail) := by
    rw [← htail, ← String.toList_append, String.toList_inj]
  rw [hname]
  unfold ofVariable?
  simp only [Option.bind_eq_bind, Option.bind_eq_some_iff, List.isPrefixOf?_eq_some_iff_append_eq,
    ofWords?_eq_some_iff]
  constructor
  · rintro ⟨_, hbeginning, rest, rfl, hrest⟩
    rw [← hbeginning, ← intercalate_words rest, hrest, ← hwords, intercalate_words]
  · intro h
    exact ⟨_, h.symm, tail, rfl, hwords⟩

theorem ending_inj {o o' : Overridable} (h : o.ending = o'.ending) : o = o' := by
  have ho : ofVariable? "" o.ending = some o := ofVariable?_eq_some_iff.mpr (by simp)
  have ho' : ofVariable? "" o.ending = some o' := ofVariable?_eq_some_iff.mpr (by simp [h])
  exact Option.some.inj (ho.symm.trans ho')

end Overridable

/-! ## Values -/

namespace Overridable

open Override

/-- The value of a variable can be read as its setting asks. -/
def fits : Overridable → String → Bool
  | validateRequestBody, value | validateRequestParameters, value | logEnabled, value
  | logAnsi, value | logLocation, value | corsCredentials, value => (readFlag? value).isSome
  | logFormat, value => (readFormat? value).isSome
  | corsMaxAge, value => (readNat? value).isSome
  | apiName, _ | stageName, _ | logLevel, _ | corsOrigins, _ | corsHeaders, _ => true

/-- The settings that make CORS options if there are none. -/
def ofCors : List Overridable := [corsOrigins, corsHeaders, corsCredentials, corsMaxAge]

end Overridable

namespace Settings

open Override Overridable

/-- What is read from a value if there is one, else what was there. -/
def taken {β : Type} (read : String → Option β) (value : Option String) (old : β) : β :=
  (value.bind read).getD old

/-- The CORS options with the values of variables in place of their own. -/
def corsOver (c : CorsOptions) (value : Overridable → Option String) : CorsOptions :=
  { c with
    allowOrigins := taken (fun v => some (readList v)) (value corsOrigins) c.allowOrigins
    allowHeaders := taken (fun v => some (readList v)) (value corsHeaders) c.allowHeaders
    allowCredentials := taken readFlag? (value corsCredentials) c.allowCredentials
    maxAgeSecs := taken (fun v => (readNat? v).map some) (value corsMaxAge) c.maxAgeSecs }

/-- A variable sets one of the CORS options. -/
def setsCors (value : Overridable → Option String) : Bool := ofCors.any fun o => (value o).isSome

/-- CORS options that are there if they were there before or a variable sets one of them.
Those that are made for a variable start as the default ones. -/
def optionsOver (c : Option CorsOptions) (value : Overridable → Option String) :
    Option CorsOptions :=
  if c.isSome || setsCors value then some (corsOver (c.getD {}) value) else none

/-- The settings with the values of variables in place of their own. -/
def overlaid (s : Settings) (value : Overridable → Option String) : Settings where
  api :=
    { name := taken some (value apiName) s.api.name
      stageName := taken some (value stageName) s.api.stageName
      validateRequestBody :=
        taken readFlag? (value validateRequestBody) s.api.validateRequestBody
      validateRequestParameters :=
        taken readFlag? (value validateRequestParameters) s.api.validateRequestParameters }
  logging :=
    { enabled := taken readFlag? (value logEnabled) s.logging.enabled
      level := taken some (value logLevel) s.logging.level
      format := taken readFormat? (value logFormat) s.logging.format
      ansiEnabled := taken readFlag? (value logAnsi) s.logging.ansiEnabled
      includeLocation := taken readFlag? (value logLocation) s.logging.includeLocation }
  cors := optionsOver s.cors value

/-- The value of one variable alone. -/
def only (o : Overridable) (v : String) (o' : Overridable) : Option String :=
  if o' = o then some v else none

theorem overlaid_none (s : Settings) : s.overlaid (fun _ => none) = s := by
  obtain ⟨api, logging, c⟩ := s
  cases c <;> rfl

theorem taken_or {β : Type} (read : String → Option β) {a b : Option String}
    (h : a = none ∨ b = none) (old : β) :
    taken read (a.or b) old = taken read b (taken read a old) := by
  rcases h with rfl | rfl
  · rfl
  · rw [Option.or_none]
    rfl

theorem setsCors_or (f g : Overridable → Option String) :
    setsCors (fun o => (f o).or (g o)) = (setsCors f || setsCors g) := by
  simp only [setsCors, ofCors, List.any_cons, List.any_nil, Option.isSome_or, Bool.or_false]
  ac_rfl

theorem corsOver_of_not_sets {value : Overridable → Option String} (h : setsCors value = false)
    (c : CorsOptions) : corsOver c value = c := by
  simp [setsCors, ofCors] at h
  simp [corsOver, taken, h]

theorem optionsOver_or (c : Option CorsOptions) {f g : Overridable → Option String}
    (h : ∀ o, f o = none ∨ g o = none) :
    optionsOver c (fun o => (f o).or (g o)) = optionsOver (optionsOver c f) g := by
  have hcors : ∀ c : CorsOptions,
      corsOver c (fun o => (f o).or (g o)) = corsOver (corsOver c f) g := by
    intro c
    simp only [corsOver, taken_or _ (h _)]
  unfold optionsOver
  rw [setsCors_or, hcors]
  cases c with
  | some c => rfl
  | none =>
    cases hf : setsCors f with
    | true => rfl
    | false =>
      rw [corsOver_of_not_sets hf]
      rfl

/-- Values of different variables can be set one after another. -/
theorem overlaid_or (s : Settings) {f g : Overridable → Option String}
    (h : ∀ o, f o = none ∨ g o = none) :
    s.overlaid (fun o => (f o).or (g o)) = (s.overlaid f).overlaid g := by
  simp only [overlaid, taken_or _ (h _), optionsOver_or _ h]

theorem set?_of_fits (s : Settings) {o : Overridable} {v : String} (h : o.fits v = true) :
    s.set? o v = some (s.overlaid (only o v)) := by
  obtain ⟨api, logging, c⟩ := s
  cases o with
  | apiName | stageName | logLevel | corsOrigins | corsHeaders => cases c <;> rfl
  | validateRequestBody | validateRequestParameters | logEnabled | logAnsi | logLocation
  | logFormat | corsCredentials | corsMaxAge =>
    obtain ⟨b, hb⟩ := Option.isSome_iff_exists.mp h
    cases c <;>
      simp [set?, withCors, hb, overlaid, taken, only, optionsOver, corsOver, setsCors, ofCors]

/-! ## Variables one after another -/

variable {beginning : String}

/-- The values that variables give to settings. -/
def valuesOf (beginning : String) (vars : Variables) (o : Overridable) : Option String :=
  Entries.get? vars (beginning ++ o.ending)

/-- Every variable of a setting has a value that can be read. -/
def AllFit (beginning : String) (vars : Variables) : Prop :=
  ∀ o, (valuesOf beginning vars o).all o.fits = true

theorem underVariable_of_other {v : String × String} (h : ∀ o, v.1 ≠ beginning ++ ending o)
    (s : Settings) : underVariable beginning s v = .ok s := by
  have hnone : ofVariable? beginning v.1 = none := by
    rw [Option.eq_none_iff_forall_ne_some]
    exact fun o ho => h o (ofVariable?_eq_some_iff.mp ho)
  simp [underVariable, hnone]

theorem underVariable_of_fits {o : Overridable} {v : String} (h : o.fits v = true)
    (s : Settings) :
    underVariable beginning s (beginning ++ o.ending, v) = .ok (s.overlaid (only o v)) := by
  simp [underVariable, ofVariable?_eq_some_iff.mpr rfl, set?_of_fits s h]

theorem valuesOf_cons_of_other {n v : String} (h : ∀ o, n ≠ beginning ++ ending o)
    (vars : Variables) : valuesOf beginning ((n, v) :: vars) = valuesOf beginning vars := by
  funext o
  have hne : (beginning ++ o.ending == n) = false := beq_eq_false_iff_ne.mpr (Ne.symm (h o))
  simp only [valuesOf, Entries.get?, List.lookup_cons, hne]

theorem valuesOf_cons (o : Overridable) (v : String) (vars : Variables) :
    valuesOf beginning ((beginning ++ o.ending, v) :: vars) =
      fun o' => (only o v o').or (valuesOf beginning vars o') := by
  funext o'
  by_cases ho : o' = o
  · simp [valuesOf, Entries.get?, only, ho]
  · have hne : (beginning ++ o'.ending == beginning ++ o.ending) = false := by
      simpa using fun h => ho (ending_inj h)
    simp [valuesOf, Entries.get?, List.lookup_cons, only, ho, hne]

theorem valuesOf_of_not_mem {o : Overridable} {vars : Variables}
    (h : beginning ++ o.ending ∉ Entries.keys vars) : valuesOf beginning vars o = none := by
  rw [valuesOf, Entries.get?_eq_none_iff, ← Bool.not_eq_true]
  exact fun hhas => h (Entries.mem_keys_iff.mpr hhas)

theorem AllFit.of_cons {e : String × String} {vars : Variables}
    (hnew : e.1 ∉ Entries.keys vars) (h : AllFit beginning (e :: vars)) :
    AllFit beginning vars := by
  obtain ⟨n, v⟩ := e
  intro o
  by_cases ho : beginning ++ o.ending = n
  · rw [valuesOf_of_not_mem (ho ▸ hnew)]
    rfl
  · have hne : (beginning ++ o.ending == n) = false := beq_eq_false_iff_ne.mpr ho
    simpa only [valuesOf, Entries.get?, List.lookup_cons, hne] using h o

/-- Variables with distinct names lay all their values over, in any order. -/
theorem foldlM_underVariable {vars : Variables} (hnames : (Entries.keys vars).Nodup)
    (hfit : AllFit beginning vars) (s : Settings) :
    vars.foldlM (underVariable beginning) s = .ok (s.overlaid (valuesOf beginning vars)) := by
  induction vars generalizing s with
  | nil =>
    show Except.ok s = .ok (s.overlaid fun _ => none)
    rw [overlaid_none]
  | cons e vars ih =>
    obtain ⟨n, v⟩ := e
    obtain ⟨hnew, hrest⟩ := List.nodup_cons.mp hnames
    have hlater := ih hrest (hfit.of_cons hnew)
    rw [List.foldlM_cons]
    by_cases hn : ∃ o : Overridable, n = beginning ++ o.ending
    · obtain ⟨o, rfl⟩ := hn
      have hfirst : o.fits v = true := by
        simpa [valuesOf_cons, only] using hfit o
      have hapart : ∀ o', only o v o' = none ∨ valuesOf beginning vars o' = none := by
        intro o'
        by_cases ho : o' = o
        · exact Or.inr (valuesOf_of_not_mem (ho ▸ hnew))
        · exact Or.inl (if_neg ho)
      rw [underVariable_of_fits hfirst, valuesOf_cons, overlaid_or s hapart]
      exact hlater (s.overlaid (only o v))
    · rw [not_exists] at hn
      rw [underVariable_of_other hn, valuesOf_cons_of_other hn]
      exact hlater s

/-- The variable belongs to a setting. -/
def isRecognised (beginning : String) (v : String × String) : Bool :=
  (ofVariable? beginning v.1).isSome

/-- Variables that belong to no setting can be left out. -/
theorem foldlM_filter_isRecognised (vars : Variables) (s : Settings) :
    (vars.filter (isRecognised beginning)).foldlM (underVariable beginning) s =
      vars.foldlM (underVariable beginning) s := by
  induction vars generalizing s with
  | nil => rfl
  | cons v vars ih =>
    cases ho : ofVariable? beginning v.1 with
    | none =>
      have hstep : underVariable beginning s v = .ok s := by simp [underVariable, ho]
      rw [List.filter_cons_of_neg (by simp [isRecognised, ho]), ih, List.foldlM_cons, hstep]
      rfl
    | some o =>
      rw [List.filter_cons_of_pos (by simp [isRecognised, ho]), List.foldlM_cons, List.foldlM_cons]
      exact congrArg _ (funext ih)

theorem filter_isRecognised_perm {vars vars' : Variables} (h : (Entries.keys vars).Nodup)
    (h' : (Entries.keys vars').Nodup)
    (hsame : ∀ o, valuesOf beginning vars o = valuesOf beginning vars' o) :
    (vars.filter (isRecognised beginning)).Perm (vars'.filter (isRecognised beginning)) := by
  rw [List.perm_ext_iff_of_nodup (h.of_map.filter _) (h'.of_map.filter _)]
  rintro ⟨n, v⟩
  simp only [List.mem_filter, isRecognised]
  refine and_congr_left fun hrec => ?_
  obtain ⟨o, ho⟩ := Option.isSome_iff_exists.mp hrec
  rw [← Entries.get?_eq_some_iff h, ← Entries.get?_eq_some_iff h', ofVariable?_eq_some_iff.mp ho]
  exact Eq.congr_left (hsame o)

theorem sorted_perm (vars : Variables) : vars.sorted.Perm vars := List.mergeSort_perm _ _

theorem sorted_pairwise (vars : Variables) : vars.sorted.Pairwise fun a b => a.1 ≤ b.1 := by
  have htrans : ∀ a b c : String × String, decide (a.1 ≤ b.1) = true →
      decide (b.1 ≤ c.1) = true → decide (a.1 ≤ c.1) = true := fun a b c hab hbc =>
    decide_eq_true (String.le_trans (of_decide_eq_true hab) (of_decide_eq_true hbc))
  have htotal : ∀ a b : String × String, (decide (a.1 ≤ b.1) || decide (b.1 ≤ a.1)) = true := by
    intro a b
    simpa using String.le_total a.1 b.1
  exact (List.pairwise_mergeSort htrans htotal vars).imp of_decide_eq_true

/-- Variables that belong to no setting do not change the order of the others. -/
theorem filter_sorted_eq {vars vars' : Variables} (h : (Entries.keys vars).Nodup)
    (h' : (Entries.keys vars').Nodup)
    (hsame : ∀ o, valuesOf beginning vars o = valuesOf beginning vars' o) :
    vars.sorted.filter (isRecognised beginning) =
      vars'.sorted.filter (isRecognised beginning) := by
  have hperm : (vars.sorted.filter (isRecognised beginning)).Perm
      (vars'.sorted.filter (isRecognised beginning)) :=
    ((sorted_perm vars).filter _).trans ((filter_isRecognised_perm h h' hsame).trans
      ((sorted_perm vars').filter _).symm)
  refine hperm.eq_of_pairwise ?_ ((sorted_pairwise vars).filter _)
    ((sorted_pairwise vars').filter _)
  intro a b ha hb hab hba
  have hmem : ∀ e ∈ vars'.sorted.filter (isRecognised beginning), e ∈ vars' := fun e he =>
    (sorted_perm vars').subset (List.mem_of_mem_filter he)
  exact List.inj_on_of_nodup_map h' (hmem a (hperm.subset ha)) (hmem b hb)
    (String.le_antisymm hab hba)

/-- Only the values of the variables that belong to a setting decide the outcome, the error
included. -/
theorem underVariables_congr {vars vars' : Variables} (h : (Entries.keys vars).Nodup)
    (h' : (Entries.keys vars').Nodup)
    (hsame : ∀ o, valuesOf beginning vars o = valuesOf beginning vars' o) (s : Settings) :
    s.underVariables beginning vars = s.underVariables beginning vars' := by
  unfold underVariables
  rw [← foldlM_filter_isRecognised vars.sorted, filter_sorted_eq h h' hsame,
    foldlM_filter_isRecognised]

theorem foldlM_of_perm {vars vars' : Variables} (hperm : vars'.Perm vars)
    (hnames : (Entries.keys vars).Nodup) (hfit : AllFit beginning vars) (s : Settings) :
    vars'.foldlM (underVariable beginning) s =
      .ok (s.overlaid (valuesOf beginning vars)) := by
  have hnames' : (Entries.keys vars').Nodup := (hperm.map _).nodup_iff.mpr hnames
  have hvalues : valuesOf beginning vars' = valuesOf beginning vars :=
    funext fun o => Entries.get?_perm hperm hnames' _
  have hfit' : AllFit beginning vars' := by
    unfold AllFit
    rw [hvalues]
    exact hfit
  rw [foldlM_underVariable hnames' hfit', hvalues]

/-! ## The law -/

/-- If the value of every variable of a setting can be read, each setting has the value of its
variable, or the one it had without one. The order of the variables does not matter, and
neither do all other variables, with whatever name. -/
theorem each_variable_sets_its_own_setting_alone (look : String → Found) (l : Loader)
    (p : String) (hnames : (Entries.keys l.environment).Nodup)
    (hfit : AllFit (Text.upper p) l.environment) :
    (l.apply look (.overrides p)).bind Loader.overridden =
        .ok (l.settings.overlaid (valuesOf (Text.upper p) l.environment)) ∧
      (∀ vars : Variables, vars.Perm l.environment →
        vars.foldlM (underVariable (Text.upper p)) l.settings =
          .ok (l.settings.overlaid (valuesOf (Text.upper p) l.environment))) ∧
      (∀ vars : Variables, (Entries.keys vars).Nodup →
        (∀ name, (∃ o : Overridable, name = Text.upper p ++ o.ending) →
          Entries.get? vars name = Entries.get? l.environment name) →
        (({ l with environment := vars }).apply look (.overrides p)).bind Loader.overridden =
          (l.apply look (.overrides p)).bind Loader.overridden) := by
  refine ⟨?_, ?_, ?_⟩
  · exact foldlM_of_perm (sorted_perm l.environment) hnames hfit l.settings
  · intro vars hperm
    exact foldlM_of_perm hperm hnames hfit l.settings
  · intro vars hvars hsame
    exact underVariables_congr hvars hnames (fun o => hsame _ ⟨o, rfl⟩) l.settings

/-- Variables of settings among others with names that are almost theirs. -/
def mixedVariables : Variables :=
  [("PORTICO__CORS__MAX_AGE_SECS", "600"), ("PORTICO__API__NAME_", "x"),
    ("PORTICO__API__NAME", "Orders"), ("PORTICO_API__NAME", "y"),
    ("PORTICO__LOGGING___LEVEL", "z"), ("PORTICO__API__VALIDATE__REQUEST_BODY", "perhaps"),
    ("PORTICO__CORS__ALLOW_CREDENTIALS", "on"), ("portico__API__STAGE_NAME", "prod")]

theorem the_mixed_variables_set_their_own_settings_alone :
    (Entries.keys mixedVariables).Nodup ∧ AllFit (Text.upper "portico") mixedVariables ∧
      (({ environment := mixedVariables } : Loader).apply (fun _ => .nothing)
        (.overrides "portico")).bind Loader.overridden = .ok
          { api := { name := "Orders" }
            cors := some { allowCredentials := true, maxAgeSecs := some 600 } } := by
  have hnames : (Entries.keys mixedVariables).Nodup := by decide
  have hupper : Text.upper "portico" = "PORTICO" := by decide +kernel
  have hfit : AllFit (Text.upper "portico") mixedVariables := by
    intro o
    rw [hupper]
    cases o <;> decide +kernel
  refine ⟨hnames, hfit, ?_⟩
  rw [(each_variable_sets_its_own_setting_alone (fun _ => .nothing)
    { environment := mixedVariables } "portico" hnames hfit).1, hupper]
  decide +kernel

end Settings

end RestContract
