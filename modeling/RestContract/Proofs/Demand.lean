-- What the routes of a declaration demand of the tree of a contract, and when nothing in
-- it gets in the way of something else. A demand grows by paths, endpoints and proxies.
import RestContract.Proofs.ArtifactNames
import RestContract.Proofs.EndpointSteps

namespace RestContract

/-! ## What a route declares -/

def Endpoint.segments (e : Endpoint) : List String := Path.segments e.path

/-- A proxy route with its path. -/
structure Proxy where
  /-- The path as it is declared. -/
  path : String
  definition : ResourceDefinition

namespace Proxy

def segments (p : Proxy) : List String := Path.segments p.path

/-- The segments of the child through which a proxy passes requests on. -/
def childSegments (p : Proxy) : List String := p.segments ++ [proxySegment]

/-- The segments of both nodes of a proxy. -/
def addresses (p : Proxy) : List (List String) := [p.segments, p.childSegments]

end Proxy

namespace RouteDefinition

/-- The definition of a method that a route may declare and does. -/
def declared? (r : RouteDefinition) (m : Method) : Option ResourceDefinition :=
  match r with
  | proxy _ => none
  | methods ds => if m.isRouteMethod then Entries.get? ds m else none

def proxied? : RouteDefinition → Option ResourceDefinition
  | proxy definition => some definition
  | methods _ => none

/-- The endpoints of a route, in the order in which they are attached. -/
def endpoints (r : RouteDefinition) (path : String) : List Endpoint :=
  Method.routeMethods.filterMap fun method =>
    (r.declared? method).map fun definition => { method, path, definition }

/-- The proxies of a route: itself or none. -/
def proxies (r : RouteDefinition) (path : String) : List Proxy :=
  (r.proxied?.map fun definition => { path, definition }).toList

/-- The segments of the nodes that a route goes to. -/
def places (r : RouteDefinition) (path : String) : List (List String) :=
  Path.segments path :: (r.proxies path).map Proxy.childSegments

theorem isRouteMethod_of_declared? {r : RouteDefinition} {m : Method}
    {definition : ResourceDefinition} (h : r.declared? m = some definition) :
    m.isRouteMethod = true := by
  cases r with
  | proxy _ => cases h
  | methods ds =>
    simp only [declared?] at h
    split at h
    · assumption
    · cases h

theorem mem_endpoints_iff {r : RouteDefinition} {path : String} {e : Endpoint} :
    e ∈ r.endpoints path ↔ e.path = path ∧ r.declared? e.method = some e.definition := by
  simp only [endpoints, List.mem_filterMap, Option.map_eq_some_iff]
  constructor
  · rintro ⟨m, -, definition, hdef, rfl⟩
    exact ⟨rfl, hdef⟩
  · rintro ⟨rfl, hdef⟩
    have hm := List.contains_iff_mem.mp (isRouteMethod_of_declared? hdef)
    exact ⟨e.method, hm, e.definition, hdef, rfl⟩

theorem mem_proxies_iff {r : RouteDefinition} {path : String} {p : Proxy} :
    p ∈ r.proxies path ↔ p.path = path ∧ r.proxied? = some p.definition := by
  simp only [proxies, Option.mem_toList, Option.map_eq_some_iff]
  constructor
  · rintro ⟨definition, hdef, rfl⟩
    exact ⟨rfl, hdef⟩
  · rintro ⟨rfl, hdef⟩
    exact ⟨p.definition, hdef, rfl⟩

theorem endpoints_pairwise (r : RouteDefinition) (path : String) :
    (r.endpoints path).Pairwise fun e e' => e.method ≠ e'.method := by
  have honce : Method.routeMethods.Pairwise (· ≠ ·) := by decide
  refine honce.filterMap _ ?_
  intro m m' hne e he e' he'
  obtain ⟨_, -, rfl⟩ := Option.map_eq_some_iff.mp he
  obtain ⟨_, -, rfl⟩ := Option.map_eq_some_iff.mp he'
  exact hne

theorem proxies_pairwise (r : RouteDefinition) (path : String) (R : Proxy → Proxy → Prop) :
    (r.proxies path).Pairwise R := by
  unfold proxies
  cases r.proxied? <;> simp

end RouteDefinition

namespace Declaration

def endpoints (d : Declaration) : List Endpoint := d.routes.flatMap fun r => r.2.endpoints r.1

def proxies (d : Declaration) : List Proxy := d.routes.flatMap fun r => r.2.proxies r.1

theorem mem_endpoints_iff {d : Declaration} {e : Endpoint} :
    e ∈ d.endpoints ↔
      ∃ r ∈ d.routes, e.path = r.1 ∧ r.2.declared? e.method = some e.definition := by
  simp only [endpoints, List.mem_flatMap, RouteDefinition.mem_endpoints_iff]

end Declaration

/-! ## The roles of an endpoint -/

namespace ResourceDefinition

/-- The status codes of the responses of a definition. -/
def statuses (d : ResourceDefinition) : List Nat := d.responses.map (·.1)

/-- The schemas of the request and of the responses of a definition. -/
def schemas (d : ResourceDefinition) : List TypeSchema :=
  d.request?.toList ++ d.responses.map (·.2.2)

/-- Each response has a role of its own if it has a status code of its own. -/
theorem responses_roles_nodup_iff (d : ResourceDefinition) :
    (d.responses.map (·.2.1)).Nodup ↔ d.statuses.Nodup := by
  unfold statuses responses
  cases d.metadata?.bind (·.responses) with
  | none => simp
  | some rs =>
    cases rs with
    | single schema => simp [Responses.entries]
    | list specs =>
      have hroles : (fun x : Nat × TypeSchema => Naming.Role.responseModelFor x.1) =
          Naming.Role.responseModelFor ∘ (·.1) := rfl
      have hinj : Function.Injective Naming.Role.responseModelFor := fun _ _ => by simp
      simp only [Responses.isShorthand, List.map_map, Function.comp_def]
      simp only [Bool.false_eq_true, if_false]
      rw [hroles, ← List.map_map, List.nodup_map_iff hinj]

/-- No response has the role of a validator or of a request. -/
theorem responses_roles_ne (d : ResourceDefinition) {role : Naming.Role}
    (h : role ∈ d.responses.map (·.2.1)) : role ≠ .requestValidator ∧ role ≠ .requestModel := by
  unfold responses at h
  cases hrs : d.metadata?.bind (·.responses) with
  | none => simp [hrs] at h
  | some rs =>
    simp only [hrs, List.map_map, List.mem_map] at h
    obtain ⟨x, -, rfl⟩ := h
    simp only [Function.comp_def]
    split <;> simp

end ResourceDefinition

namespace Endpoint

/-- The roles of the artifacts of an endpoint, the validator first. -/
def roles (e : Endpoint) : List Naming.Role :=
  .requestValidator :: ((e.definition.request?.map fun _ => .requestModel).toList ++
    e.definition.responses.map (·.2.1))

theorem artifactNames_eq (e : Endpoint) : e.artifactNames = e.roles.map e.artifact := by
  unfold artifactNames roles models
  cases e.definition.request? <;> simp [Function.comp_def]

theorem schemas_eq (e : Endpoint) : e.definition.schemas = e.models.map (·.2) := by
  unfold ResourceDefinition.schemas models
  cases e.definition.request? <;> simp [Function.comp_def]

/-- Equal names of artifacts come from one method, one role and paths with the same words. -/
theorem artifact_eq_iff {e e' : Endpoint} {role role' : Naming.Role} :
    e.artifact role = e'.artifact role' ↔ e.method = e'.method ∧ role = role' ∧
      Naming.alphanumeric e.path = Naming.alphanumeric e'.path := by
  constructor
  · exact Naming.parts_eq_of_artifactName_eq
  · rintro ⟨hm, rfl, hp⟩
    simp [artifact, Naming.artifactName, hm, hp]

theorem artifact_injective (e : Endpoint) : Function.Injective e.artifact :=
  fun _ _ h => (artifact_eq_iff.mp h).2.1

/-- The names of one endpoint differ exactly if the status codes of its responses do. -/
theorem artifactNames_nodup_iff (e : Endpoint) :
    e.artifactNames.Nodup ↔ e.definition.statuses.Nodup := by
  rw [artifactNames_eq, List.nodup_map_iff e.artifact_injective,
    ← e.definition.responses_roles_nodup_iff]
  have hne : ∀ role ∈ e.definition.responses.map (·.2.1),
      role ≠ .requestValidator ∧ role ≠ .requestModel :=
    fun _ h => e.definition.responses_roles_ne h
  unfold roles
  cases e.definition.request? with
  | none =>
    simp only [Option.map_none, Option.toList_none, List.nil_append, List.nodup_cons]
    exact and_iff_right fun h => (hne _ h).1 rfl
  | some schema =>
    simp only [Option.map_some, Option.toList_some, List.singleton_append, List.nodup_cons,
      List.mem_cons, reduceCtorEq, false_or]
    exact (and_iff_right fun h => (hne _ h).1 rfl).trans
      (and_iff_right fun h => (hne _ h).2 rfl)

/-- Two endpoints share a name exactly if they have one method and the words of their paths are
the same: then at least their validators do. -/
theorem artifactNames_disjoint_iff {e e' : Endpoint} :
    e.artifactNames.Disjoint e'.artifactNames ↔
      (e.method = e'.method → Naming.alphanumeric e.path ≠ Naming.alphanumeric e'.path) := by
  rw [artifactNames_eq, artifactNames_eq]
  constructor
  · intro h hm hp
    exact h List.mem_cons_self (List.mem_cons.mpr (Or.inl (artifact_eq_iff.mpr ⟨hm, rfl, hp⟩)))
  · intro h name hname hname'
    obtain ⟨role, -, rfl⟩ := List.mem_map.mp hname
    obtain ⟨role', -, heq⟩ := List.mem_map.mp hname'
    obtain ⟨hm, -, hp⟩ := artifact_eq_iff.mp heq.symm
    exact h hm hp

end Endpoint

/-! ## Demands -/

/-- What some routes demand of a tree. -/
structure Demand where
  /-- The segments of the nodes that have to be there. -/
  places : List (List String) := []
  endpoints : List Endpoint := []
  proxies : List Proxy := []

/-- The two proxies do not meet on any node. -/
def Proxy.Apart (p p' : Proxy) : Prop :=
  p.segments ≠ p'.segments ∧ p'.segments ≠ p.childSegments ∧ p.segments ≠ p'.childSegments

/-- The two endpoints do not meet: with one method, neither their nodes nor the names of their
artifacts are the same. -/
def Endpoint.Apart (e e' : Endpoint) : Prop :=
  e.method = e'.method →
    e.segments ≠ e'.segments ∧ Naming.alphanumeric e.path ≠ Naming.alphanumeric e'.path

/-- The definition can be served by itself: no status code comes twice among its responses, and
every schema has a document. -/
structure ResourceDefinition.Servable (d : ResourceDefinition) : Prop where
  statuses_once : d.statuses.Nodup
  schemas_convert : ∀ s ∈ d.schemas, ∃ document, s.convertModel = .ok document

namespace Demand

def withPlace (D : Demand) (q : List String) : Demand := { D with places := D.places ++ [q] }

def withEndpoints (D : Demand) (es : List Endpoint) : Demand :=
  { D with endpoints := D.endpoints ++ es }

def withProxy (D : Demand) (p : Proxy) : Demand :=
  { D with places := D.places ++ [p.childSegments], proxies := D.proxies ++ [p] }

/-- The demand with all that a route declares. -/
def withRoute (D : Demand) (path : String) (r : RouteDefinition) : Demand :=
  { places := D.places ++ r.places path
    endpoints := D.endpoints ++ r.endpoints path
    proxies := D.proxies ++ r.proxies path }

/-- The demand with all that some routes declare. -/
def withRoutes (D : Demand) (rs : Entries String RouteDefinition) : Demand :=
  { places := D.places ++ rs.flatMap fun r => r.2.places r.1
    endpoints := D.endpoints ++ rs.flatMap fun r => r.2.endpoints r.1
    proxies := D.proxies ++ rs.flatMap fun r => r.2.proxies r.1 }

/-- All that is demanded can be served together. -/
structure Compatible (D : Demand) : Prop where
  endpoints_apart : D.endpoints.Pairwise Endpoint.Apart
  endpoints_servable : ∀ e ∈ D.endpoints, e.definition.Servable
  proxies_apart : D.proxies.Pairwise Proxy.Apart

theorem withRoutes_nil (D : Demand) : D.withRoutes [] = D := by simp [withRoutes]

theorem withRoutes_cons (D : Demand) (path : String) (r : RouteDefinition)
    (rs : Entries String RouteDefinition) :
    D.withRoutes ((path, r) :: rs) = (D.withRoute path r).withRoutes rs := by
  simp [withRoutes, withRoute]

theorem withEndpoints_nil (D : Demand) : D.withEndpoints [] = D := by simp [withEndpoints]

theorem withEndpoints_cons (D : Demand) (e : Endpoint) (es : List Endpoint) :
    D.withEndpoints (e :: es) = (D.withEndpoints [e]).withEndpoints es := by
  simp [withEndpoints]

theorem Compatible.mono {D D' : Demand} (h : D'.Compatible) (he : D.endpoints <+: D'.endpoints)
    (hp : D.proxies <+: D'.proxies) : D.Compatible where
  endpoints_apart := h.endpoints_apart.sublist he.sublist
  endpoints_servable e hmem := h.endpoints_servable e (he.subset hmem)
  proxies_apart := h.proxies_apart.sublist hp.sublist

/-- A new endpoint has to be apart from all others and servable by itself. -/
theorem Compatible.withEndpoints_iff {D : Demand} (h : D.Compatible) (e : Endpoint) :
    (D.withEndpoints [e]).Compatible ↔
      (∀ e' ∈ D.endpoints, e'.Apart e) ∧ e.definition.Servable := by
  constructor
  · intro hnew
    refine ⟨?_, hnew.endpoints_servable e (List.mem_append_right _ (List.mem_singleton_self e))⟩
    intro e' he'
    exact (List.pairwise_append.mp hnew.endpoints_apart).2.2 e' he' e (List.mem_singleton_self e)
  · rintro ⟨hapart, hservable⟩
    refine ⟨?_, ?_, h.proxies_apart⟩
    · refine List.pairwise_append.mpr ⟨h.endpoints_apart, List.pairwise_singleton _ e, ?_⟩
      intro e' he' x hx
      rw [List.mem_singleton.mp hx]
      exact hapart e' he'
    · intro x hx
      rcases List.mem_append.mp hx with hx | hx
      · exact h.endpoints_servable x hx
      · rw [List.mem_singleton.mp hx]
        exact hservable

theorem Compatible.withProxy_iff {D : Demand} (h : D.Compatible) (p : Proxy) :
    (D.withProxy p).Compatible ↔ ∀ p' ∈ D.proxies, p'.Apart p := by
  constructor
  · intro hnew p' hp'
    exact (List.pairwise_append.mp hnew.proxies_apart).2.2 p' hp' p (List.mem_singleton_self p)
  · intro hapart
    refine ⟨h.endpoints_apart, h.endpoints_servable, ?_⟩
    refine List.pairwise_append.mpr ⟨h.proxies_apart, List.pairwise_singleton _ p, ?_⟩
    intro p' hp' x hx
    rw [List.mem_singleton.mp hx]
    exact hapart p' hp'

end Demand

/-- The proxies meet on no node exactly if their nodes are different ones. -/
theorem Proxy.apart_iff {p p' : Proxy} : p.Apart p' ↔ p.addresses.Disjoint p'.addresses := by
  have hchild : p.childSegments = p'.childSegments ↔ p.segments = p'.segments :=
    List.append_left_inj [proxySegment]
  simp only [Apart, addresses, List.disjoint_cons_left, List.disjoint_nil_left, List.mem_cons,
    List.not_mem_nil, or_false, not_or, and_true, hchild]
  constructor
  · rintro ⟨h1, h2, h3⟩
    exact ⟨⟨h1, h3⟩, Ne.symm h2, h1⟩
  · rintro ⟨⟨h1, h3⟩, h2, -⟩
    exact ⟨h1, Ne.symm h2, h3⟩

theorem Proxy.segments_ne_childSegments (p : Proxy) : p.segments ≠ p.childSegments := by
  intro h
  have hlen := congrArg List.length h
  simp [childSegments] at hlen

/-! ## Declarations that can be assembled -/

namespace Declaration

/-- All that a declaration demands. -/
def demand (d : Declaration) : Demand := Demand.withRoutes {} d.routes

@[simp] theorem demand_endpoints (d : Declaration) : d.demand.endpoints = d.endpoints := rfl

@[simp] theorem demand_proxies (d : Declaration) : d.demand.proxies = d.proxies := rfl

/-- What a declaration has to keep to be assembled. Routes are compared by the segments and by
the words of their paths. -/
structure Assemblable (d : Declaration) : Prop where
  cors_valid : ∀ c, d.policy.cors = some c → c.validate = .ok ()
  /-- No method is declared twice on one node. -/
  methods_apart : d.routes.Pairwise fun r r' => Path.segments r.1 = Path.segments r'.1 →
    ∀ m, ¬ ((r.2.declared? m).isSome ∧ (r'.2.declared? m).isSome)
  /-- No two proxies meet on one node. -/
  proxies_apart : d.routes.Pairwise fun r r' => r.2.proxied?.isSome → r'.2.proxied?.isSome →
    Path.segments r.1 ≠ Path.segments r'.1 ∧
    Path.segments r'.1 ≠ Path.segments r.1 ++ [proxySegment] ∧
    Path.segments r.1 ≠ Path.segments r'.1 ++ [proxySegment]
  /-- No method is declared on two nodes with paths of the same words. -/
  names_apart : d.routes.Pairwise fun r r' => Path.segments r.1 ≠ Path.segments r'.1 →
    (∃ m, (r.2.declared? m).isSome ∧ (r'.2.declared? m).isSome) →
    Naming.alphanumeric r.1 ≠ Naming.alphanumeric r'.1
  statuses_once : ∀ r ∈ d.routes, ∀ m definition, r.2.declared? m = some definition →
    definition.statuses.Nodup
  schemas_convert : ∀ r ∈ d.routes, ∀ m definition, r.2.declared? m = some definition →
    ∀ s ∈ definition.schemas, ∃ document, s.convertModel = .ok document

/-- The endpoints of two routes are apart if the routes are. -/
theorem endpoints_apart_iff {r r' : String × RouteDefinition} :
    (∀ e ∈ r.2.endpoints r.1, ∀ e' ∈ r'.2.endpoints r'.1, e.Apart e') ↔
      (Path.segments r.1 = Path.segments r'.1 →
        ∀ m, ¬ ((r.2.declared? m).isSome ∧ (r'.2.declared? m).isSome)) ∧
      (Path.segments r.1 ≠ Path.segments r'.1 →
        (∃ m, (r.2.declared? m).isSome ∧ (r'.2.declared? m).isSome) →
        Naming.alphanumeric r.1 ≠ Naming.alphanumeric r'.1) := by
  simp only [RouteDefinition.mem_endpoints_iff, Option.isSome_iff_exists]
  constructor
  · intro h
    refine ⟨?_, ?_⟩
    · rintro hseg m ⟨⟨x, hx⟩, y, hy⟩
      exact (h ⟨m, r.1, x⟩ ⟨rfl, hx⟩ ⟨m, r'.1, y⟩ ⟨rfl, hy⟩ rfl).1 hseg
    · rintro - ⟨m, ⟨x, hx⟩, y, hy⟩
      exact (h ⟨m, r.1, x⟩ ⟨rfl, hx⟩ ⟨m, r'.1, y⟩ ⟨rfl, hy⟩ rfl).2
  · rintro ⟨hmethods, hnames⟩ e ⟨hpath, hdef⟩ e' ⟨hpath', hdef'⟩ hm
    have hboth : (∃ x, r.2.declared? e.method = some x) ∧ ∃ y, r'.2.declared? e.method = some y :=
      ⟨⟨_, hdef⟩, _, hm ▸ hdef'⟩
    have hseg : Path.segments r.1 ≠ Path.segments r'.1 := fun heq => hmethods heq e.method hboth
    rw [Endpoint.segments, Endpoint.segments, hpath, hpath']
    exact ⟨hseg, hnames hseg ⟨e.method, hboth⟩⟩

theorem proxies_apart_iff {r r' : String × RouteDefinition} :
    (∀ p ∈ r.2.proxies r.1, ∀ p' ∈ r'.2.proxies r'.1, p.Apart p') ↔
      (r.2.proxied?.isSome → r'.2.proxied?.isSome →
        Path.segments r.1 ≠ Path.segments r'.1 ∧
        Path.segments r'.1 ≠ Path.segments r.1 ++ [proxySegment] ∧
        Path.segments r.1 ≠ Path.segments r'.1 ++ [proxySegment]) := by
  simp only [RouteDefinition.mem_proxies_iff, Option.isSome_iff_exists]
  constructor
  · rintro h ⟨x, hx⟩ ⟨y, hy⟩
    exact h ⟨r.1, x⟩ ⟨rfl, hx⟩ ⟨r'.1, y⟩ ⟨rfl, hy⟩
  · rintro h p ⟨hpath, hp⟩ p' ⟨hpath', hp'⟩
    unfold Proxy.Apart Proxy.childSegments Proxy.segments
    rw [hpath, hpath']
    exact h ⟨_, hp⟩ ⟨_, hp'⟩

/-- A declaration can be assembled if its CORS options can be used and all that it demands can
be served together. -/
theorem assemblable_iff (d : Declaration) : d.Assemblable ↔
    (∀ c, d.policy.cors = some c → c.validate = .ok ()) ∧ d.demand.Compatible := by
  have hinside : ∀ r ∈ d.routes, (r.2.endpoints r.1).Pairwise Endpoint.Apart := fun r _ =>
    (r.2.endpoints_pairwise r.1).imp fun hne hm => absurd hm hne
  have hproxies : ∀ r ∈ d.routes, (r.2.proxies r.1).Pairwise Proxy.Apart := fun r _ =>
    r.2.proxies_pairwise r.1 Proxy.Apart
  have hmem := fun e => d.mem_endpoints_iff (e := e)
  constructor
  · rintro ⟨hcors, hmethods, hp, hnames, hstatuses, hschemas⟩
    refine ⟨hcors, ?_, ?_, ?_⟩
    · rw [demand_endpoints, endpoints, List.pairwise_flatMap]
      exact ⟨hinside, (List.pairwise_and_iff.mpr ⟨hmethods, hnames⟩).imp endpoints_apart_iff.mpr⟩
    · intro e he
      obtain ⟨r, hr, -, hdef⟩ := (hmem e).mp he
      exact ⟨hstatuses r hr _ _ hdef, hschemas r hr _ _ hdef⟩
    · rw [demand_proxies, proxies, List.pairwise_flatMap]
      exact ⟨hproxies, hp.imp proxies_apart_iff.mpr⟩
  · rintro ⟨hcors, hapart, hservable, hp⟩
    rw [demand_endpoints, endpoints, List.pairwise_flatMap] at hapart
    rw [demand_proxies, proxies, List.pairwise_flatMap] at hp
    have hroutes := hapart.2.imp endpoints_apart_iff.mp
    have hdefs : ∀ r ∈ d.routes, ∀ m definition, r.2.declared? m = some definition →
        definition.Servable := fun r hr m definition hdef =>
      hservable ⟨m, r.1, definition⟩ ((hmem _).mpr ⟨r, hr, rfl, hdef⟩)
    exact ⟨hcors, hroutes.imp And.left, hp.2.imp proxies_apart_iff.mp, hroutes.imp And.right,
      fun r hr m definition hdef => (hdefs r hr m definition hdef).statuses_once,
      fun r hr m definition hdef => (hdefs r hr m definition hdef).schemas_convert⟩

end Declaration

end RestContract
