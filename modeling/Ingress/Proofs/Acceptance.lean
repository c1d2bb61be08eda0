-- Which endpoints an accepted balance enables. An endpoint is told from the others by the first
-- entry that its pod belongs to, and neither its place nor the amount of its weight counts. Main
-- statement: exactly the endpoints that were enabled and whose entry has a weight stay enabled,
-- those of one entry alike, and so they do in any other order.
import Ingress.Proofs.Balance

namespace Ingress

/-! ## Entries -/

/-- The pod behind an endpoint is known, and `g` is the first entry whose label and value it
carries. -/
def Endpoint.Joins (e : Endpoint) (cluster : ClusterView) (groups : List BalanceGroup)
    (g : BalanceGroup) : Prop :=
  ∃ targetRef labels, e.targetRef = some targetRef ∧ cluster.podLabels targetRef = .ok labels ∧
    groups.find? (fun g => labels.find? g.label = some g.value) = some g

theorem findIdx?_of_find? {α : Type} [DecidableEq α] {p : α → Bool} {as : List α} {a : α}
    (h : as.find? p = some a) : as.findIdx? p = some (as.idxOf a) := by
  induction as with
  | nil => cases h
  | cons b as ih =>
    rw [List.find?_cons] at h
    rw [List.findIdx?_cons]
    split at h
    · next hb =>
      obtain rfl := Option.some.inj h
      rw [if_pos hb, List.idxOf_cons_self]
    · next hb =>
      have hne : b ≠ a := by
        rintro rfl
        rw [List.find?_some h] at hb
        cases hb
      rw [ih h, List.idxOf_cons_ne _ hne, hb]
      rfl

variable {cluster : ClusterView} {groups : List BalanceGroup} {weights : List Nat}
  {endpoints : List Endpoint}

theorem labels_eq_ok_iff {e : Endpoint} {labels : Table String} :
    e.labels cluster = .ok labels ↔
      ∃ targetRef, e.targetRef = some targetRef ∧ cluster.podLabels targetRef = .ok labels := by
  unfold Endpoint.labels
  cases e.targetRef with
  | none => simp
  | some targetRef => cases hlabels : cluster.podLabels targetRef <;> simp [hlabels]

theorem group?_of_joins {e : Endpoint} (hpos : 0 < e.weight) {g : BalanceGroup}
    (h : e.Joins cluster groups g) : e.group? cluster groups = some (groups.idxOf g) := by
  obtain ⟨targetRef, labels, htarget, hpod, hfind⟩ := h
  have hlabels := labels_eq_ok_iff.mpr ⟨targetRef, htarget, hpod⟩
  unfold Endpoint.group?
  rw [if_neg (Nat.pos_iff_ne_zero.mp hpos), hlabels]
  exact findIdx?_of_find? hfind

theorem joins_of_group? {e : Endpoint} {i : Nat} (h : e.group? cluster groups = some i) :
    ∃ g, e.Joins cluster groups g ∧ groups[i]? = some g := by
  unfold Endpoint.group? at h
  split at h
  · cases h
  · cases hlabels : e.labels cluster with
    | error cause => simp [hlabels] at h
    | ok labels =>
      simp only [hlabels] at h
      obtain ⟨hi, hmatch, hbefore⟩ := List.findIdx?_eq_some_iff_getElem.mp h
      obtain ⟨targetRef, htarget, hpod⟩ := labels_eq_ok_iff.mp hlabels
      refine ⟨groups[i], ⟨targetRef, labels, htarget, hpod, ?_⟩, List.getElem?_eq_getElem hi⟩
      refine List.find?_eq_some_iff_getElem.mpr ⟨hmatch, i, hi, rfl, fun j hj => ?_⟩
      simpa [BalanceGroup.matches] using hbefore j hj

/-- No two entries are the first one. -/
theorem Endpoint.Joins.unique {e : Endpoint} {g g' : BalanceGroup}
    (h : e.Joins cluster groups g) (h' : e.Joins cluster groups g') : g = g' := by
  obtain ⟨targetRef, labels, htarget, hpod, hfind⟩ := h
  obtain ⟨targetRef', labels', htarget', hpod', hfind'⟩ := h'
  obtain rfl := Option.some.inj (htarget.symm.trans htarget')
  obtain rfl := Except.ok.inj (hpod.symm.trans hpod')
  exact Option.some.inj (hfind.symm.trans hfind')

/-! ## Weights of groups -/

theorem clampWeight_le (weight : Int) : clampWeight weight ≤ maxWeight := by
  unfold clampWeight maxWeight
  split
  · omega
  · split <;> omega

theorem clampWeight_pos_iff {weight : Int} : 0 < clampWeight weight ↔ 0 < weight := by
  unfold clampWeight maxWeight
  split
  · omega
  · split <;> omega

theorem groupWeights_le {mode : BalanceMode} {sizes : List Nat}
    (h : groupWeights mode groups sizes = some weights) : ∀ w ∈ weights, w ≤ maxWeight := by
  intro w hw
  cases mode with
  | pod =>
    rw [← Option.some.inj h] at hw
    obtain ⟨g, -, rfl⟩ := List.mem_map.mp hw
    exact clampWeight_le g.weight
  | deploy => exact Share.le_of_mem_limit (Share.limit_of_weights h) hw

/-! ## One endpoint -/

theorem weight_reweigh_le (h : ∀ w ∈ weights, w ≤ maxWeight) (e : Endpoint) :
    (e.reweigh cluster groups weights).weight ≤ maxWeight := by
  unfold Endpoint.reweigh
  split
  · next h0 =>
    rw [h0]
    exact Nat.zero_le _
  · cases hw : (e.group? cluster groups).bind (weights[·]?) with
    | none => exact Nat.zero_le _
    | some w =>
      obtain ⟨i, -, hi⟩ := Option.bind_eq_some_iff.mp hw
      exact h w (List.mem_of_getElem? hi)

theorem weight_reweigh_pos_iff {mode : BalanceMode} {e : Endpoint} (he : e ∈ endpoints)
    (h : groupWeights mode groups (groupSizes cluster groups endpoints) = some weights) :
    0 < (e.reweigh cluster groups weights).weight ↔
      0 < e.weight ∧ ∃ g, e.Joins cluster groups g ∧ 0 < g.weight := by
  rcases Nat.eq_zero_or_pos e.weight with h0 | hpos
  · simp [reweigh_of_weight_eq_zero h0, h0]
  · cases hgroup : e.group? cluster groups with
    | none =>
      rw [reweigh_of_group?_eq_none hgroup]
      constructor
      · intro hlt
        exact absurd hlt (Nat.lt_irrefl 0)
      · rintro ⟨-, g, hjoins, -⟩
        rw [group?_of_joins hpos hjoins] at hgroup
        cases hgroup
    | some i =>
      have hi := lt_length_of_group? hgroup
      obtain ⟨w, hw, hzero⟩ := weight_of_group? he h hgroup hi
      obtain ⟨g, hjoins, hg⟩ := joins_of_group? hgroup
      rw [List.getElem?_eq_getElem hi, Option.some.injEq] at hg
      have hweight : 0 < w ↔ 0 < g.weight := by
        rw [← clampWeight_pos_iff, ← hg]
        omega
      rw [reweigh_of_group?_eq_some hgroup hw]
      constructor
      · intro hlt
        exact ⟨hpos, g, hjoins, hweight.mp hlt⟩
      · rintro ⟨-, g', hjoins', hlt⟩
        rw [← hjoins.unique hjoins'] at hlt
        exact hweight.mpr hlt

theorem weight_reweigh_eq {e e' : Endpoint} (hpos : 0 < e.weight) (hpos' : 0 < e'.weight)
    {g : BalanceGroup} (hjoins : e.Joins cluster groups g) (hjoins' : e'.Joins cluster groups g) :
    (e.reweigh cluster groups weights).weight = (e'.reweigh cluster groups weights).weight := by
  unfold Endpoint.reweigh
  rw [if_neg (Nat.pos_iff_ne_zero.mp hpos), if_neg (Nat.pos_iff_ne_zero.mp hpos'),
    group?_of_joins hpos hjoins, group?_of_joins hpos' hjoins']

/-! ## Other weights and another order -/

/-- The same endpoint with another weight, enabled or disabled as it was. -/
structure Endpoint.Alike (e e' : Endpoint) : Prop where
  ip : e'.ip = e.ip
  port : e'.port = e.port
  targetRef : e'.targetRef = e.targetRef
  enabled : 0 < e'.weight ↔ 0 < e.weight

theorem Endpoint.Alike.disabled {e e' : Endpoint} (h : e.Alike e') (h0 : e.weight = 0) :
    e' = e := by
  have h0' : e'.weight = 0 := by
    have henabled := h.enabled
    omega
  obtain ⟨ip, port, weight, targetRef⟩ := e
  obtain ⟨ip', port', weight', targetRef'⟩ := e'
  obtain ⟨rfl, rfl, rfl, -⟩ := h
  subst h0 h0'
  rfl

theorem Endpoint.Alike.group? {e e' : Endpoint} (h : e.Alike e') :
    e'.group? cluster groups = e.group? cluster groups := by
  rcases Nat.eq_zero_or_pos e.weight with h0 | hpos
  · rw [h.disabled h0]
  · have hpos' := h.enabled.mpr hpos
    unfold Endpoint.group? Endpoint.labels
    rw [if_neg (Nat.pos_iff_ne_zero.mp hpos), if_neg (Nat.pos_iff_ne_zero.mp hpos'), h.targetRef]

theorem Endpoint.Alike.reweigh {e e' : Endpoint} (h : e.Alike e') :
    e'.reweigh cluster groups weights = e.reweigh cluster groups weights := by
  rcases Nat.eq_zero_or_pos e.weight with h0 | hpos
  · rw [h.disabled h0]
  · have hpos' := h.enabled.mpr hpos
    unfold Endpoint.reweigh
    rw [if_neg (Nat.pos_iff_ne_zero.mp hpos), if_neg (Nat.pos_iff_ne_zero.mp hpos'), h.group?,
      h.ip, h.port, h.targetRef]

section Reordered

variable {others : List Endpoint} {σ : Equiv.Perm (Fin endpoints.length)}
  (h : List.Forall₂ Endpoint.Alike (reordered endpoints σ) others)
include h

theorem groupSizes_reordered : groupSizes cluster groups others =
    groupSizes cluster groups endpoints := by
  have hgroups : others.map (·.group? cluster groups) =
      (reordered endpoints σ).map (·.group? cluster groups) :=
    (map_eq_of_forall₂ h fun _ _ halike => halike.group?.symm).symm
  have hperm := (reordered_perm endpoints σ).map (·.group? cluster groups)
  unfold groupSizes
  dsimp only
  rw [hgroups]
  refine List.map_congr_left fun i _ => hperm.count_eq (some i)

theorem weighing?_reordered (expression mode : String) :
    weighing? others expression mode cluster = weighing? endpoints expression mode cluster := by
  unfold weighing?
  simp only [groupSizes_reordered h]

theorem getElem?_map_reweigh (i : Fin endpoints.length) :
    (others.map (·.reweigh cluster groups weights))[(i : Nat)]? =
      (endpoints.map (·.reweigh cluster groups weights))[(σ i : Nat)]? := by
  have hmap : others.map (·.reweigh cluster groups weights) =
      (reordered endpoints σ).map (·.reweigh cluster groups weights) :=
    (map_eq_of_forall₂ h fun _ _ halike => halike.reweigh.symm).symm
  rw [hmap]
  exact getElem?_map_reordered endpoints σ _ i

end Reordered

/-! ## The law -/

/-- What an accepted expression makes of endpoints: weights in range, positive exactly at the
endpoints that had a positive one and whose entry has one, and the same weight for all endpoints of
an entry. -/
structure Balanced (groups : List BalanceGroup) (cluster : ClusterView)
    (endpoints balanced : List Endpoint) : Prop where
  le : ∀ e ∈ balanced, e.weight ≤ maxWeight
  enabled : List.Forall₂ (fun e e' => 0 < e'.weight ↔
    0 < e.weight ∧ ∃ g, e.Joins cluster groups g ∧ 0 < g.weight) endpoints balanced
  even : ∀ p ∈ endpoints.zip balanced, ∀ p' ∈ endpoints.zip balanced,
    0 < p.1.weight → 0 < p'.1.weight → ∀ g, p.1.Joins cluster groups g →
      p'.1.Joins cluster groups g → p.2.weight = p'.2.weight

theorem balanced_map_reweigh {mode : BalanceMode}
    (h : groupWeights mode groups (groupSizes cluster groups endpoints) = some weights) :
    Balanced groups cluster endpoints (endpoints.map (·.reweigh cluster groups weights)) where
  le := by
    intro e' he'
    obtain ⟨e, -, rfl⟩ := List.mem_map.mp he'
    exact weight_reweigh_le (groupWeights_le h) e
  enabled := by
    rw [List.forall₂_map_right_iff, List.forall₂_same]
    intro e he
    exact weight_reweigh_pos_iff he h
  even := by
    intro p hp p' hp' hpos hpos' g hjoins hjoins'
    rw [(of_mem_zip_map hp).2, (of_mem_zip_map hp').2]
    exact weight_reweigh_eq hpos hpos' hjoins hjoins'

/-- An accepted expression enables the endpoints whose entry has a weight, and every endpoint would
get the same weight at any other place and behind any other positive weight. -/
theorem accepted_balance_enables_by_first_entry {expression mode : String} {origin : Origin}
    (hne : expression ≠ "") (h : ¬Refused (balance endpoints expression mode cluster origin)) :
    (∃ groups, readBalance expression = .ok groups ∧ Balanced groups cluster endpoints
      (balance endpoints expression mode cluster origin).value) ∧
      ∀ σ others, List.Forall₂ Endpoint.Alike (reordered endpoints σ) others →
        ¬Refused (balance others expression mode cluster origin) ∧
          ∀ i : Fin endpoints.length,
            (balance others expression mode cluster origin).value[(i : Nat)]? =
              (balance endpoints expression mode cluster origin).value[(σ i : Nat)]? := by
  rw [refused_balance_iff, not_and] at h
  obtain ⟨⟨groups, weights⟩, hweighing⟩ := Option.ne_none_iff_exists'.mp (h hne)
  constructor
  · rw [value_balance, if_neg hne, hweighing]
    unfold weighing? at hweighing
    cases hread : readBalance expression with
    | error error => simp [hread] at hweighing
    | ok read =>
      simp only [hread, Option.map_eq_some_iff, Prod.mk.injEq] at hweighing
      obtain ⟨_, hweights, rfl, rfl⟩ := hweighing
      exact ⟨read, rfl, balanced_map_reweigh hweights⟩
  · intro σ others halike
    have hothers : weighing? others expression mode cluster = some (groups, weights) := by
      rw [weighing?_reordered halike, hweighing]
    rw [refused_balance_iff, value_balance, value_balance, if_neg hne, if_neg hne, hothers,
      hweighing]
    exact ⟨by simp, fun i => getElem?_map_reweigh halike i⟩

/-- The endpoints of three versions in reverse order, with weight 9 in place of 1. -/
def heavyEndpoints : List Endpoint :=
  versionEndpoints.reverse.map fun e => { e with weight := 9 }

theorem heavy_endpoints_get_the_same_weights :
    ¬Refused (balance versionEndpoints "v=1=50,v=2=25,v=3=0" "deploy" versionPods none) ∧
      (∃ groups, readBalance "v=1=50,v=2=25,v=3=0" = .ok groups ∧
        Balanced groups versionPods versionEndpoints
          (balance versionEndpoints "v=1=50,v=2=25,v=3=0" "deploy" versionPods none).value) ∧
      ¬Refused (balance heavyEndpoints "v=1=50,v=2=25,v=3=0" "deploy" versionPods none) ∧
      ∀ i : Fin 7,
        (balance heavyEndpoints "v=1=50,v=2=25,v=3=0" "deploy" versionPods none).value[(i : Nat)]? =
          (balance versionEndpoints "v=1=50,v=2=25,v=3=0" "deploy" versionPods
            none).value[(i.rev : Nat)]? := by
  have h : ¬Refused (balance versionEndpoints "v=1=50,v=2=25,v=3=0" "deploy" versionPods none) := by
    rw [refused_balance_iff]
    decide
  have halike : List.Forall₂ Endpoint.Alike (reordered versionEndpoints Fin.revPerm)
      heavyEndpoints := by
    have hreverse : reordered versionEndpoints Fin.revPerm = versionEndpoints.reverse := by decide
    have hpos : ∀ e ∈ versionEndpoints, 0 < e.weight := by decide
    unfold heavyEndpoints
    rw [hreverse, List.forall₂_map_right_iff, List.forall₂_same]
    intro e he
    have hpos' := hpos e (List.mem_reverse.mp he)
    exact ⟨rfl, rfl, rfl, by simp [hpos']⟩
  obtain ⟨hbalanced, horder⟩ := accepted_balance_enables_by_first_entry (by decide) h
  obtain ⟨haccepted, hsame⟩ := horder Fin.revPerm heavyEndpoints halike
  exact ⟨h, hbalanced, haccepted, hsame⟩

end Ingress
