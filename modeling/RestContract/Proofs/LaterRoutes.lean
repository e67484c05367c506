-- Later routes never disturb earlier ones. The assembly of all routes passes through the build
-- that the first ones leave, and from there it only grows.
import RestContract.Proofs.BuildGrowth
import RestContract.Proofs.References

namespace RestContract

namespace Entries

variable {κ α : Type} [BEq κ]

theorem get?_of_prefix {es fs : Entries κ α} (h : es <+: fs) {k : κ} {v : α}
    (hk : get? es k = some v) : get? fs k = some v := by
  obtain ⟨rest, rfl⟩ := h
  rw [get?, List.lookup_append]
  rw [get?] at hk
  rw [hk]
  rfl

end Entries

theorem Assembling.gives_forM_append {α : Type} {f : α → Assembling PUnit} {xs ys : List α}
    {b b' : Build} : Gives ((xs ++ ys).forM f) b () b' ↔
      ∃ c, Gives (xs.forM f) b () c ∧ Gives (ys.forM f) c () b' := by
  induction xs generalizing b with
  | nil => simp
  | cons x xs ih =>
    simp only [List.cons_append, gives_forM_cons, ih]
    constructor
    · rintro ⟨c, hx, m, hxs, hys⟩
      exact ⟨m, ⟨c, hx, hxs⟩, hys⟩
    · rintro ⟨m, ⟨c, hx, hxs⟩, hys⟩
      exact ⟨c, hx, m, hxs, hys⟩

/-! ## Contracts that grow -/

/-- The second contract has everything of the first at the same places: the nodes with their
numbers, segments, kinds and parents, their children and methods in front of new ones, the
options of their preflights, and the models and validators in front of new ones. -/
structure Contract.Extends (c c' : Contract) : Prop where
  name_eq : c.name = c'.name
  stageName_eq : c.stageName = c'.stageName
  resources_grow : c.resources.Extends Attachments.Extends c'.resources
  models_grow : c.models <+: c'.models
  validators_grow : c.validators <+: c'.validators

namespace Contract.Extends

variable {c c' : Contract}

theorem attachments_extend (h : c.Extends c') {id : NodeId} (hid : id < c.resources.size) :
    (c.resources.attachments id).Extends (c'.resources.attachments id) := by
  obtain ⟨n, hn⟩ := PathTree.exists_get?_of_lt hid
  obtain ⟨n', hn', hext⟩ := h.resources_grow id n hn
  simpa [ResourceTree.attachments, PathTree.payload?, hn, hn'] using hext.payload_rel

/-- What is attached stays attached to the same node, unchanged. -/
theorem attached (h : c.Extends c') {id : NodeId} {m : Method} {am : AttachedMethod}
    (hat : c.Attached id m am) : c'.Attached id m am := by
  obtain ⟨hid, hget⟩ := hat
  have hmethods := (h.attachments_extend hid).methods_grow
  exact ⟨Nat.lt_of_lt_of_le hid h.resources_grow.size_le, Entries.get?_of_prefix hmethods hget⟩

end Contract.Extends

/-! ## More routes -/

namespace Declaration

theorem attachRoutes_withRoutes {d : Declaration}
    (h : ∀ c, d.policy.cors = some c → c.validate = .ok ())
    (rs : Entries String RouteDefinition) : Assembling.attachRoutes { d with routes := rs } =
      rs.forM fun r => Assembling.attachRoute d r.1 r.2 :=
  attachRoutes_eq (d := { d with routes := rs }) h

/-- A declaration with more routes behind its own never leaves less: without them there is a
contract, which the one with them extends. -/
theorem later_routes_never_disturb_earlier_ones (d : Declaration)
    (rs later : Entries String RouteDefinition) (c : Contract)
    (hc : assemble { d with routes := rs ++ later } = .ok c) :
    ∃ c₀, assemble { d with routes := rs } = .ok c₀ ∧ c₀.Extends c ∧
      ∀ id m am, c₀.Attached id m am → c.Attached id m am := by
  obtain ⟨b, hall, rfl⟩ := assemble_eq_ok_iff.mp hc
  have hcors : ∀ o, d.policy.cors = some o → o.validate = .ok () := by
    intro o ho
    exact cors_valid_of_gives hall o ho
  rw [attachRoutes_withRoutes hcors] at hall
  obtain ⟨m, hfirst, hrest⟩ := Assembling.gives_forM_append.mp hall
  have hgrows : ∀ rs : Entries String RouteDefinition,
      Assembling.Grows (rs.forM fun r => Assembling.attachRoute d r.1 r.2) :=
    Assembling.Grows.forM fun r => Assembling.grows_attachRoute d r.1 r.2
  have hstart : (start { d with routes := rs ++ later }).Agrees (start { d with routes := rs }) :=
    ⟨rfl, rfl, rfl⟩
  obtain ⟨b₀, hb₀, hagrees⟩ := (hgrows rs).gives_of_agrees _ _ _ _ hstart hfirst
  rw [← attachRoutes_withRoutes hcors] at hb₀
  have hkept := (hgrows later).extends_of_gives m () b hrest
  have hext : (b₀.contract { d with routes := rs }).Extends
      (b.contract { d with routes := rs ++ later }) := by
    refine ⟨rfl, rfl, ?_, ?_, ?_⟩
    · show b₀.resources.Extends Attachments.Extends b.resources
      exact hagrees.resources_eq ▸ hkept.resources_grow
    · show b₀.models <+: b.models
      exact hagrees.models_eq ▸ hkept.models_grow
    · show b₀.validators <+: b.validators
      exact hagrees.validators_eq ▸ hkept.validators_grow
  exact ⟨_, assemble_eq_ok_iff.mpr ⟨b₀, hb₀, rfl⟩, hext, fun _ _ _ => hext.attached⟩

theorem the_proxy_of_the_report_api_disturbs_no_other_route :
    ∃ c₀ c, assemble { Samples.reportApi with routes := Samples.reportApi.routes.take 2 } =
        .ok c₀ ∧ Samples.reportApi.assemble = .ok c ∧ c₀.Extends c ∧
      ∀ id m am, c₀.Attached id m am → c.Attached id m am := by
  have hok : ∃ c, Samples.reportApi.assemble = .ok c := ⟨_, rfl⟩
  obtain ⟨c, hc⟩ := hok
  obtain ⟨c₀, hc₀, hext, hkept⟩ := later_routes_never_disturb_earlier_ones Samples.reportApi
    (Samples.reportApi.routes.take 2) (Samples.reportApi.routes.drop 2) c hc
  exact ⟨c₀, c, hc₀, hc, hext, hkept⟩

end Declaration

end RestContract
