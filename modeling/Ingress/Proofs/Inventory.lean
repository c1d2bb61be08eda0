-- What a rendered snapshot holds. A draft has the endpoints of its declaration and the hostpaths of
-- its rules, and an update rewrites nothing of them but weights. Main statement: a render loses and
-- invents no backend, no hostpath and no endpoint.
import Ingress.Proofs.References

namespace Ingress

/-! ## Endpoints -/

/-- An endpoint behind changes of its weight. One that was disabled stays so. -/
structure Endpoint.Remains (e e' : Endpoint) : Prop where
  ip : e'.ip = e.ip
  port : e'.port = e.port
  targetRef : e'.targetRef = e.targetRef
  disabled : e.weight = 0 → e'.weight = 0

instance : Std.Refl Endpoint.Remains := ⟨fun _ => ⟨rfl, rfl, rfl, id⟩⟩

theorem remains_reweigh (e : Endpoint) (cluster : ClusterView) (groups : List BalanceGroup)
    (weights : List Nat) : e.Remains (e.reweigh cluster groups weights) := by
  have hsite := site_reweigh e cluster groups weights
  simp only [Endpoint.site, Prod.mk.injEq] at hsite
  obtain ⟨hip, hport, htarget⟩ := hsite
  refine ⟨hip, hport, htarget, ?_⟩
  intro h0
  rw [reweigh_of_weight_eq_zero h0]
  exact h0

theorem remain_balance (endpoints : List Endpoint) (expression mode : String)
    (cluster : ClusterView) (origin : Origin) :
    List.Forall₂ Endpoint.Remains endpoints
      (balance endpoints expression mode cluster origin).value := by
  rw [value_balance]
  split
  · exact List.forall₂_refl endpoints
  · cases weighing? endpoints expression mode cluster with
    | none => exact List.forall₂_refl endpoints
    | some read =>
      apply List.forall₂_map_right_iff.mpr
      apply List.forall₂_same.mpr
      intro e _
      exact remains_reweigh e cluster read.1 read.2

theorem remain_update (d : Draft) (cluster : ClusterView) (routes : RouteTable)
    (lists : List Userlist) :
    List.Forall₂ Endpoint.Remains d.backend.endpoints
      (d.update cluster routes lists).value.1.endpoints := by
  rw [Draft.value_update, Draft.value_endpoints]
  exact remain_balance _ _ _ _ _

/-! ## Drafts -/

theorem mem_hostpaths_draft {s : Snapshot} {settings : Settings} {b : DeclaredBackend}
    {hostpath : String} :
    hostpath ∈ (s.draft settings b).backend.paths.hostpaths ↔
      ∃ resource ∈ s.resources, ∃ rule ∈ resource.rules,
        resource.target rule = b.id ∧ rule.hostpath = hostpath := by
  have hbare : hostpath ∉ (b.draft settings).backend.paths.hostpaths := List.not_mem_nil
  unfold Snapshot.draft
  rw [mem_hostpaths_attachAll]
  simp only [hbare, false_or, Snapshot.rulesFor, List.mem_filter, decide_eq_true_eq, mem_routes_iff]
  constructor
  · rintro ⟨⟨resource, rule⟩, ⟨⟨hresource, hrule⟩, htarget⟩, hhostpath⟩
    exact ⟨resource, hresource, rule, hrule, htarget, hhostpath⟩
  · rintro ⟨resource, hresource, rule, hrule, htarget, hhostpath⟩
    exact ⟨(resource, rule), ⟨⟨hresource, hrule⟩, htarget⟩, hhostpath⟩

/-! ## Rendering -/

/-- What a render has to show of a declared backend: its identity, each hostpath that a rule of the
snapshot routes to it once and in order, and its endpoints. -/
structure Snapshot.Shows (s : Snapshot) (declared : DeclaredBackend) (b : Backend) : Prop where
  id : b.id = declared.id
  tcp : b.tcp = declared.tcp
  routed : ∀ hostpath, hostpath ∈ b.paths.hostpaths ↔
    ∃ resource ∈ s.resources, ∃ rule ∈ resource.rules,
      resource.target rule = declared.id ∧ rule.hostpath = hostpath
  ascending : b.paths.hostpaths.Pairwise (· < ·)
  endpoints : List.Forall₂ Endpoint.Remains declared.endpoints b.endpoints

theorem shows_update (s : Snapshot) (settings : Settings) (declared : DeclaredBackend)
    (routes : RouteTable) (lists : List Userlist) :
    s.Shows declared ((s.draft settings declared).update s.cluster routes lists).value.1 where
  id := id_draft s settings declared
  tcp := by
    rw [Draft.value_update, backend_draft]
    rfl
  routed := fun _ => mem_hostpaths_draft
  ascending := List.pairwise_map.mpr (s.draft settings declared).backend.paths.ascending
  endpoints := by
    have hendpoints : (s.draft settings declared).backend.endpoints = declared.endpoints := by
      rw [backend_draft]
      rfl
    have hremain := remain_update (s.draft settings declared) s.cluster routes lists
    rwa [hendpoints] at hremain

theorem nothing_is_lost_or_invented {s : Snapshot} {settings : Settings} {rendered : Rendered}
    (h : (s.render settings).value = .ok rendered) :
    List.Forall₂ s.Shows s.backends rendered.backends := by
  apply (updated_render h).imp
  rintro declared b ⟨lists, rfl⟩
  exact shows_update s settings declared _ lists

/-- A shop with a disabled endpoint. Its rules come out of order, and one hostpath comes twice. -/
def shopOutOfOrder : Snapshot where
  resources := [
    ⟨⟨"ingress", "shop", "front"⟩, .ofList [(Key.balance, "v=1=50")],
      [⟨"b.test", "/", "web", "80"⟩, ⟨"a.test", "/api", "web", "80"⟩]⟩,
    ⟨⟨"ingress", "shop", "back"⟩, .empty, [⟨"b.test", "/", "web", "80"⟩]⟩]
  backends := [⟨⟨"shop", "web", "80"⟩, false,
    [⟨"10.0.0.1", 80, 0, some "pod"⟩, ⟨"10.0.0.2", 80, 1, some "pod"⟩, ⟨"10.0.0.3", 80, 7, none⟩]⟩]
  pods := .ofList [("pod", .ofList [("v", "1")])]
  secrets := .empty

theorem shop_out_of_order_is_shown : ∃ rendered,
    (shopOutOfOrder.render .plain).value = .ok rendered ∧
      List.Forall₂ shopOutOfOrder.Shows shopOutOfOrder.backends rendered.backends := by
  obtain ⟨rendered, hrender⟩ := (exists_render_iff .plain).mpr
    (⟨by decide, by decide⟩ : shopOutOfOrder.GoodReferences)
  exact ⟨rendered, hrender, nothing_is_lost_or_invented hrender⟩

end Ingress
