-- Keys that mean nothing change nothing. Two manifests are read side by side that agree on the
-- keys that mean something. Both are refused, or they declare the same route by route, so that
-- no assembly tells them apart.
import RestContract.Proofs.LikeRoutes
import RestContract.Proofs.ManifestReading
import RestContract.Proofs.Matching
import RestContract.Proofs.Records

namespace RestContract

namespace Manifest

open Reading

/-! ## Manifests as objects -/

/-- The value of a field. An absent one is the same as `null`. -/
def member (fields : Entries String Json) (name : String) : Json :=
  (Entries.get? fields name).getD .null

/-- The entries of an object. -/
def members : Json → Entries String Json
  | .obj entries => entries
  | _ => []

/-- The entries of the global section. An absent one is the same as an empty one. -/
def globalOf (fields : Entries String Json) : Entries String Json :=
  members (member fields "global")

/-- The values of a route by key, with repeated keys collapsed. -/
def entriesOf (route : Json) : Entries String Json :=
  Entries.ofPairs ((members route).map fun e => (e.1, e.2.normal))

/-- The routes by path, with repeated paths collapsed. -/
def pathsOf (fields : Entries String Json) : Entries String (Entries String Json) :=
  Entries.ofPairs ((members (member fields "paths")).map fun r => (r.1, entriesOf r.2))

/-- The global section, if there is one, the paths, if there are any, and every route are
objects. -/
structure IsObject (fields : Entries String Json) : Prop where
  global_obj : ∀ v, Entries.get? fields "global" = some v → ∃ entries, v = .obj entries
  paths_obj : ∀ v, Entries.get? fields "paths" = some v → ∃ routes, v = .obj routes ∧
    ∀ r ∈ routes, ∃ entries, r.2 = .obj entries

/-- The routes say the same: both have the same proxy that is neither `null` nor `false`, or
neither has one and they have the same definition of each method. -/
def SaySame (es fs : Entries String Json) : Prop :=
  (∃ v, said? es "proxy" = some v ∧ said? fs "proxy" = some v) ∨
    (said? es "proxy" = none ∧ said? fs "proxy" = none ∧
      ∀ key ∈ ["get", "post", "put", "delete"], said? es key = said? fs key)

/-- The manifests agree on all keys that mean something. A field that repeats and must not does
so in both. -/
structure Agree (fs gs : Entries String Json) : Prop where
  once_eq : ∀ name ∈ ["name", "global", "paths"],
    NodeView.isOnce fs name = NodeView.isOnce gs name
  name_eq : member fs "name" = member gs "name"
  global_once_eq : ∀ name ∈ ["auth", "cors"],
    NodeView.isOnce (globalOf fs) name = NodeView.isOnce (globalOf gs) name
  auth_eq : member (globalOf fs) "auth" = member (globalOf gs) "auth"
  cors_eq : member (globalOf fs) "cors" = member (globalOf gs) "cors"
  routes_agree : List.Forall₂ (fun r s => r.1 = s.1 ∧ SaySame r.2 s.2) (pathsOf fs) (pathsOf gs)

/-! ## Outlines -/

section Outlines

variable {fs : Entries String Json}

/-- What a field of the global section says. -/
def globalField (fields : Entries String Json) (name : String) : Option Json :=
  match member fields name with
  | .null => none
  | v => some v.normal

theorem maybe?_eq (fields : Entries String Json) (name : String) :
    Json.view.maybe? fields name = some (globalField fields name) := by
  unfold NodeView.maybe? globalField member
  cases Entries.get? fields name with
  | none => rfl
  | some v => cases v <;> rfl

theorem text?_eq (fields : Entries String Json) (name : String) :
    ((Entries.get? fields name).map Json.view.text?).getD (some none) =
      Json.view.text? (member fields name) := by
  unfold member
  cases Entries.get? fields name <;> rfl

/-- A map whose values can all be read. -/
theorem map?_obj {α : Type} {item : Json → Option α} {f : Json → α} {entries : Entries String Json}
    (h : ∀ e ∈ entries, item e.2 = some (f e.2)) :
    Json.view.map? item (.obj entries) =
      some (Entries.ofPairs (entries.map fun e => (e.1, f e.2))) := by
  have hobj : Json.view.entries? (.obj entries) = some entries := rfl
  have hread : entries.mapM (fun e : String × Json => (item e.2).map (e.1, ·)) =
      some (entries.map fun e => (e.1, f e.2)) :=
    Shape.mapM_eq_some_map fun e he => by rw [h e he]; rfl
  rw [NodeView.map?, hobj, Option.bind_eq_bind, Option.bind_some, hread]
  rfl

theorem map?_paths (h : IsObject fs) :
    ((Entries.get? fs "paths").map
      (Json.view.map? (Json.view.map? fun v => (Json.view.value? v).map Json.normal))).getD
        (some []) = some (pathsOf fs) := by
  unfold pathsOf member
  cases hpaths : Entries.get? fs "paths" with
  | none => rfl
  | some v =>
    obtain ⟨routes, rfl, hroutes⟩ := h.paths_obj v hpaths
    refine map?_obj fun r hr => ?_
    obtain ⟨entries, hentries⟩ := hroutes r hr
    rw [hentries]
    exact map?_obj fun _ _ => rfl

theorem others?_eq (known : List String) (fields : Entries String Json) :
    ∃ others, Json.view.others? known fields = some others := by
  unfold NodeView.others?
  exact ⟨_, if_pos (List.all_eq_true.mpr fun _ _ => rfl)⟩

/-- The global section only fills in what it is asked for. -/
theorem readGlobal?_eq (h : IsObject fs) : ∃ unknownGlobal, ∀ name paths unknown,
    ((Entries.get? fs "global").map (Json.view.readGlobal? { name, paths, unknown })).getD
        (some { name, paths, unknown }) =
      if ["auth", "cors"].all (NodeView.isOnce (globalOf fs)) then
        some { name, auth := globalField (globalOf fs) "auth"
               cors := globalField (globalOf fs) "cors", paths, unknown, unknownGlobal }
      else none := by
  unfold globalOf member
  cases hglobal : Entries.get? fs "global" with
  | none => exact ⟨[], fun name paths unknown => rfl⟩
  | some v =>
    obtain ⟨entries, rfl⟩ := h.global_obj v hglobal
    obtain ⟨unknownGlobal, hothers⟩ := others?_eq ["auth", "cors"] entries
    refine ⟨unknownGlobal, fun name paths unknown => ?_⟩
    have hobj : Json.view.entries? (.obj entries) = some entries := rfl
    show Json.view.readGlobal? { name, paths, unknown } (.obj entries) =
      if ["auth", "cors"].all (NodeView.isOnce entries) then _ else none
    rw [NodeView.readGlobal?, hobj, Option.bind_eq_bind, Option.bind_some, maybe?_eq, maybe?_eq,
      hothers, List.all_cons, List.all_cons, List.all_nil, Bool.and_true]
    cases NodeView.isOnce entries "auth" && NodeView.isOnce entries "cors" <;> rfl

/-- The outline of a manifest that is an object. Its global section is checked last. -/
theorem outline?_obj (h : IsObject fs) : ∃ unknown unknownGlobal,
    Json.view.outline? (.obj fs) =
      if ["name", "global", "paths"].all (NodeView.isOnce fs) &&
          ["auth", "cors"].all (NodeView.isOnce (globalOf fs)) then
        (Json.view.text? (member fs "name")).map fun name =>
          { name, auth := globalField (globalOf fs) "auth"
            cors := globalField (globalOf fs) "cors"
            paths := pathsOf fs, unknown, unknownGlobal }
      else none := by
  obtain ⟨unknown, hunknown⟩ := others?_eq ["name", "global", "paths"] fs
  obtain ⟨unknownGlobal, hglobal⟩ := readGlobal?_eq h
  refine ⟨unknown, unknownGlobal, ?_⟩
  have hobj : Json.view.entries? (.obj fs) = some fs := rfl
  rw [NodeView.outline?, hobj, Option.bind_eq_bind, Option.bind_some, text?_eq, map?_paths h,
    hunknown]
  cases ["name", "global", "paths"].all (NodeView.isOnce fs) with
  | false => rfl
  | true =>
    cases Json.view.text? (member fs "name") with
    | none => cases ["auth", "cors"].all (NodeView.isOnce (globalOf fs)) <;> rfl
    | some name =>
      refine (hglobal name (pathsOf fs) unknown).trans ?_
      cases ["auth", "cors"].all (NodeView.isOnce (globalOf fs)) <;> rfl

/-- Manifests that agree have outlines that differ only in what they call unknown and in what
the routes hold beside what they say. -/
theorem Agree.outlines {gs : Entries String Json} (h : Agree fs gs) (hfs : IsObject fs)
    (hgs : IsObject gs) : Option.Rel (fun o o' => o.name = o'.name ∧ o.auth = o'.auth ∧
      o.cors = o'.cors ∧ o.paths = pathsOf fs ∧ o'.paths = pathsOf gs)
      (Json.view.outline? (.obj fs)) (Json.view.outline? (.obj gs)) := by
  obtain ⟨unknown, unknownGlobal, houtline⟩ := outline?_obj hfs
  obtain ⟨unknown', unknownGlobal', houtline'⟩ := outline?_obj hgs
  have honce : ["name", "global", "paths"].all (NodeView.isOnce fs) =
      ["name", "global", "paths"].all (NodeView.isOnce gs) := by
    rw [Bool.eq_iff_iff, List.all_eq_true, List.all_eq_true]
    exact forall₂_congr fun name hname => by rw [h.once_eq name hname]
  have hglobalOnce : ["auth", "cors"].all (NodeView.isOnce (globalOf fs)) =
      ["auth", "cors"].all (NodeView.isOnce (globalOf gs)) := by
    rw [Bool.eq_iff_iff, List.all_eq_true, List.all_eq_true]
    exact forall₂_congr fun name hname => by rw [h.global_once_eq name hname]
  have hfield : ∀ name, member (globalOf fs) name = member (globalOf gs) name →
      globalField (globalOf fs) name = globalField (globalOf gs) name := by
    intro name hname
    rw [globalField, globalField, hname]
  rw [houtline, houtline', honce, hglobalOnce, h.name_eq]
  split
  · cases Json.view.text? (member gs "name") with
    | none => exact .none
    | some name => exact .some ⟨rfl, hfield _ h.auth_eq, hfield _ h.cors_eq, rfl, rfl⟩
  · exact .none

end Outlines

/-! ## Routes -/

/-- Routes that say the same are refused both, or declare the same. -/
theorem SaySame.routeOf? {es fs : Entries String Json} (h : SaySame es fs)
    (hes : (Entries.keys es).Nodup) (hfs : (Entries.keys fs).Nodup) (path : String) :
    Option.Rel (fun r s => LikeRoutes (path, r) (path, s)) (routeOf? es) (routeOf? fs) := by
  have hproxy : ∀ entries, proxy? entries = said? entries "proxy" := fun _ => rfl
  unfold Manifest.routeOf?
  rw [hproxy, hproxy]
  rcases h with ⟨v, hv, hv'⟩ | ⟨hnone, hnone', hkeys⟩
  · rw [hv, hv']
    dsimp only
    cases definition? v with
    | none => exact .none
    | some definition => exact .some ⟨rfl, fun _ => rfl, rfl⟩
  · have hsaid : ∀ m : Method, m.isRouteMethod = true →
        said? es m.routeKey = said? fs m.routeKey := by
      intro m hm
      refine hkeys _ ?_
      revert hm
      cases m <;> decide
    rw [hnone, hnone']
    dsimp only
    have hrefused : es.foldlM withMethod? [] = none ↔ fs.foldlM withMethod? [] = none := by
      rw [foldlM_withMethod?_eq_none_iff hes, foldlM_withMethod?_eq_none_iff hfs]
      exact exists_congr fun m => and_congr_right fun hm => by rw [hsaid m hm]
    cases hms : es.foldlM withMethod? [] with
    | none =>
      rw [hrefused.mp hms]
      exact .none
    | some ms =>
      cases hms' : fs.foldlM withMethod? [] with
      | none =>
        rw [hrefused.mpr hms'] at hms
        cases hms
      | some ms' =>
        refine .some ⟨rfl, fun m => ?_, rfl⟩
        simp only [RouteDefinition.declared?]
        split
        · rename_i hm
          rw [get?_of_foldlM_withMethod? hes hms hm, get?_of_foldlM_withMethod? hfs hms' hm,
            hsaid m hm]
        · rfl

/-- Lists of routes that say the same, one for one. -/
theorem rel_mapM_routeOf? {ps qs : Entries String (Entries String Json)}
    (h : List.Forall₂ (fun r s => r.1 = s.1 ∧ SaySame r.2 s.2) ps qs)
    (hps : ∀ r ∈ ps, (Entries.keys r.2).Nodup) (hqs : ∀ r ∈ qs, (Entries.keys r.2).Nodup) :
    Option.Rel (List.Forall₂ fun r s => r.1 = s.1 ∧ LikeRoutes r s)
      (ps.mapM fun r => (routeOf? r.2).map (r.1, ·))
      (qs.mapM fun r => (routeOf? r.2).map (r.1, ·)) := by
  induction h with
  | nil => exact .some .nil
  | @cons r s ps qs hrs _ ih =>
    obtain ⟨hpath, hsame⟩ := hrs
    obtain ⟨hr, hps⟩ := List.forall_mem_cons.mp hps
    obtain ⟨hs, hqs⟩ := List.forall_mem_cons.mp hqs
    have hfirst : Option.Rel (fun r s : String × RouteDefinition => r.1 = s.1 ∧ LikeRoutes r s)
        ((routeOf? r.2).map (r.1, ·)) ((routeOf? s.2).map (s.1, ·)) := by
      rw [Option.map_eq_bind, Option.map_eq_bind, ← hpath]
      exact rel_bind (hsame.routeOf? hr hs r.1) fun _ _ hlike => .some ⟨rfl, hlike⟩
    rw [List.mapM_cons, List.mapM_cons]
    exact rel_bind hfirst fun _ _ hx => rel_bind (ih hps hqs) fun _ _ hxs => .some (.cons hx hxs)

/-! ## Manifests -/

theorem comesTo_ofOutline {o : Outline} {authorizer? : Option (Option Authorizer)}
    {cors? : Option (Option CorsOptions)} (hauth : ComesTo (readAuth o.auth) authorizer?)
    (hcors : ComesTo (readCors o.cors) cors?) :
    ComesTo (ofOutline o) (authorizer?.bind fun authorizer => cors?.bind fun cors =>
      (o.paths.mapM fun r => (routeOf? r.2).map (r.1, ·)).bind fun routes =>
        some { name := o.name, policy := { authorizer, cors }, routes }) := by
  have hroute : ∀ r : String × Entries String Json,
      ComesTo (return (r.1, ← readRoute r.1 r.2)) ((routeOf? r.2).map (r.1, ·)) := by
    intro r
    rw [Option.map_eq_bind]
    exact (comesTo_readRoute r.1 r.2).bind fun route => comesTo_pure (r.1, route)
  have hfields := hauth.bind fun authorizer => hcors.bind fun cors =>
    (ComesTo.mapM hroute o.paths).bind fun routes =>
      comesTo_pure ({ name := o.name, policy := { authorizer, cors }, routes } : Manifest)
  exact (comesTo_tell _).bind fun _ => (comesTo_tell _).bind fun _ => hfields

/-- The manifests have one name and one policy, and declare the same at the same paths, one for
one. -/
structure Alike (m m' : Manifest) : Prop where
  name_eq : m.name = m'.name
  policy_eq : m.policy = m'.policy
  routes_alike : List.Forall₂ (fun r s => r.1 = s.1 ∧ LikeRoutes r s) m.routes m'.routes

theorem Alike.keys_eq {m m' : Manifest} (h : m.Alike m') :
    Entries.keys m.routes = Entries.keys m'.routes := by
  have hkeys := h.routes_alike.imp fun _ _ hrs => hrs.1
  rw [← List.forall₂_eq_eq_eq, Entries.keys, Entries.keys, List.forall₂_map_left_iff,
    List.forall₂_map_right_iff]
  exact hkeys

/-- No assembly tells the manifests apart, whatever completes them. -/
theorem Alike.assemble_eq {m m' : Manifest} (h : m.Alike m') (s : Settings) :
    (m.declaration s).assemble = (m'.declaration s).assemble := by
  have hroutes : List.Forall₂ LikeRoutes (m.declaration s).routes m'.routes :=
    h.routes_alike.imp fun _ _ hrs => hrs.2
  have hdeclaration : m'.declaration s = { m.declaration s with routes := m'.routes } := by
    simp [declaration, Declaration.completedBy, h.name_eq, h.policy_eq]
  rw [hdeclaration, Declaration.assemble_congr hroutes]

/-- Manifests that agree come to nothing both, or to manifests that are alike. -/
theorem Agree.alike {fs gs : Entries String Json} (h : Agree fs gs) (hfs : IsObject fs)
    (hgs : IsObject gs) {a b : String} (ha : Json.read? a = some (.obj fs))
    (hb : Json.read? b = some (.obj gs)) : ∃ x y, ComesTo (parse a .json) x ∧
      ComesTo (parse b .json) y ∧ Option.Rel Alike x y := by
  have hnodup : ∀ es : Entries String Json, ∀ r ∈ pathsOf es, (Entries.keys r.2).Nodup := by
    intro es r hr
    obtain ⟨_, -, rfl⟩ := List.mem_map.mp (Entries.mem_of_mem_ofPairs hr)
    exact Entries.keys_ofPairs_nodup _
  have houtlines := h.outlines hfs hgs
  have hoa : outline? a .json = Json.view.outline? (.obj fs) := by rw [outline?, ha]; rfl
  have hob : outline? b .json = Json.view.outline? (.obj gs) := by rw [outline?, hb]; rfl
  unfold parse
  rw [hoa, hob]
  revert houtlines
  generalize Json.view.outline? (.obj fs) = x
  generalize Json.view.outline? (.obj gs) = y
  rintro (⟨hname, hauth, hcors, hpaths, hpaths'⟩ | _)
  · rename_i o o'
    obtain ⟨authorizer?, hreadAuth⟩ := exists_comesTo_readAuth o.auth
    obtain ⟨cors?, hreadCors⟩ := exists_comesTo_readCors o.cors
    refine ⟨_, _, comesTo_ofOutline hreadAuth hreadCors,
      comesTo_ofOutline (hauth ▸ hreadAuth) (hcors ▸ hreadCors), ?_⟩
    have hroutes := rel_mapM_routeOf? h.routes_agree (hnodup fs) (hnodup gs)
    rw [hpaths, hpaths']
    cases authorizer? with
    | none => exact .none
    | some authorizer =>
      cases cors? with
      | none => exact .none
      | some cors =>
        simp only [Option.bind_some]
        exact rel_bind (S := Alike) hroutes fun _ _ hrs => .some ⟨hname, rfl, hrs⟩
  · exact ⟨none, none, comesTo_throw _, comesTo_throw _, .none⟩

/-! ## The law -/

/-- Keys that mean nothing are inert from the text to the contract. Two texts of manifests that
agree on all other keys are refused both, or both are read, with the same paths in the same
order, and completed from any settings they are assembled into one contract or fail with one
error. -/
theorem keys_without_a_meaning_are_inert (a b : String) (fs gs : Entries String Json)
    (ha : Json.read? a = some (.obj fs)) (hb : Json.read? b = some (.obj gs))
    (hfs : IsObject fs) (hgs : IsObject gs) (h : Agree fs gs) :
    (∃ e e', (parse a .json).outcome.1 = .error e ∧ (parse b .json).outcome.1 = .error e') ∨
      ∃ m m', (parse a .json).outcome.1 = .ok m ∧ (parse b .json).outcome.1 = .ok m' ∧
        Entries.keys m.routes = Entries.keys m'.routes ∧
        ∀ s, (m.declaration s).assemble = (m'.declaration s).assemble := by
  obtain ⟨x, y, hx, hy, hxy⟩ := h.alike hfs hgs ha hb
  cases hxy with
  | none =>
    obtain ⟨e, he⟩ := hx.exists_outcome_eq
    obtain ⟨e', he'⟩ := hy.exists_outcome_eq
    exact Or.inl ⟨e, e', he, he'⟩
  | some halike =>
    exact Or.inr ⟨_, _, hx.outcome_eq, hy.outcome_eq, halike.keys_eq, halike.assemble_eq⟩

/-- A manifest without a key that means nothing. -/
def plainText : String :=
  "\x7b\"name\":\"jobs\",\"paths\":\x7b\"/a\":\x7b\"get\":\x7b\"type\":\"mock\"\x7d\x7d," ++
    "\"/b\":\x7b\"proxy\":\x7b\"type\":\"mock\"\x7d\x7d\x7d\x7d"

/-- The same manifest with other keys in every place and its own keys in another order. -/
def clutteredText : String :=
  "\x7b\"paths\":\x7b\"/a\":\x7b\"GET\":true,\"put\":null,\"get\":\x7b\"type\":\"mock\"\x7d\x7d," ++
    "\"/b\":\x7b\"post\":true,\"proxy\":\x7b\"type\":\"mock\"\x7d\x7d\x7d," ++
    "\"v\":[null],\"global\":\x7b\"debug\":true\x7d,\"name\":\"jobs\"\x7d"

/-- A definition without a backend. -/
def mockJson : Json := .obj [("type", .str "mock")]

def plainFields : Entries String Json :=
  [("name", .str "jobs"),
    ("paths", .obj [("/a", .obj [("get", mockJson)]), ("/b", .obj [("proxy", mockJson)])])]

def clutteredFields : Entries String Json :=
  [("paths", .obj [("/a", .obj [("GET", .bool true), ("put", .null), ("get", mockJson)]),
      ("/b", .obj [("post", .bool true), ("proxy", mockJson)])]),
    ("v", .arr [.null]), ("global", .obj [("debug", .bool true)]), ("name", .str "jobs")]

theorem agree_clutteredFields : Agree plainFields clutteredFields where
  once_eq := by decide
  name_eq := rfl
  global_once_eq := by decide
  auth_eq := rfl
  cors_eq := rfl
  routes_agree := by
    refine .cons ⟨rfl, .inr ⟨rfl, rfl, ?_⟩⟩ (.cons ⟨rfl, .inl ⟨mockJson, rfl, rfl⟩⟩ .nil)
    simp only [List.forall_mem_cons]
    exact ⟨rfl, rfl, rfl, rfl, nofun⟩

theorem the_clutter_of_a_manifest_is_inert :
    ∃ m m', (parse plainText .json).outcome.1 = .ok m ∧
      (parse clutteredText .json).outcome.1 = .ok m' ∧
      Entries.keys m.routes = Entries.keys m'.routes ∧
      ∀ s, (m.declaration s).assemble = (m'.declaration s).assemble := by
  have hread : Json.read? plainText = some (.obj plainFields) := by cbv
  have hread' : Json.read? clutteredText = some (.obj clutteredFields) := by cbv
  have hplain : IsObject plainFields := by
    refine ⟨fun v hv => ?_, fun v hv => ?_⟩
    · cases hv
    · cases hv
      exact ⟨_, rfl, by simp⟩
  have hcluttered : IsObject clutteredFields := by
    refine ⟨fun v hv => ?_, fun v hv => ?_⟩
    · cases hv
      exact ⟨_, rfl⟩
    · cases hv
      exact ⟨_, rfl, by simp⟩
  have hok : (parse plainText .json).outcome.1.toOption.isSome = true := by decide +kernel
  rcases keys_without_a_meaning_are_inert _ _ _ _ hread hread' hplain hcluttered
    agree_clutteredFields with ⟨e, -, he, -⟩ | h
  · rw [he] at hok
    cases hok
  · exact h

end Manifest

end RestContract
