-- Weights and proportions. What a group gets depends on how the weights per endpoint stand to each
-- other and on nothing else. Main statement: the order of the groups, a factor that all weights or
-- all sizes have in common and groups without weight or endpoints make no difference to the others.
import Ingress.Proofs.ExactShare
import Mathlib.Data.List.InsertIdx

namespace Ingress.Share

/-! ## The same proportions -/

variable {groups others : List Group} {ws ws' : List Nat}

/-- Proportional numbers without a common factor are the reduced numerators. -/
theorem reduce_numerators_eq {vs : List Nat} (h : Proportional groups vs)
    (hgcd : vs.foldl Nat.gcd 0 = 1 ∨ ∀ v ∈ vs, v = 0) : reduce (numerators groups) = vs :=
  (smallest_reduce_numerators groups).unique (smallest_of_coprime h hgcd)

theorem proportional_map {f : Group → Group} {c : ℚ} (hc : 0 < c)
    (hf : ∀ g, (f g).ratio = c * g.ratio) {vs : List Nat} (h : Proportional groups vs) :
    Proportional (groups.map f) vs := by
  obtain ⟨q, hq, hvs⟩ := h
  refine ⟨q / c, div_pos hq hc, ?_⟩
  apply List.forall₂_map_left_iff.mpr
  apply hvs.imp
  intro g v hv
  rw [hv, hf, ← mul_assoc, div_mul_cancel₀ _ hc.ne']

/-- A change that multiplies all ratios by one number changes no weight. -/
theorem weights_map_eq {f : Group → Group} {c : ℚ} (hc : 0 < c)
    (hf : ∀ g, (f g).ratio = c * g.ratio) (h : weights groups = some ws)
    (h' : weights (groups.map f) = some ws') : ws' = ws := by
  have hshares : reduce (numerators (groups.map f)) = reduce (numerators groups) :=
    reduce_numerators_eq (proportional_map hc hf (smallest_reduce_numerators groups).proportional)
      (gcd_reduce _)
  have hlimit := limit_of_weights h'
  rw [hshares, limit_of_weights h] at hlimit
  exact (Option.some.inj hlimit).symm

theorem ratio_weight_mul (k : Nat) (g : Group) :
    ({ g with weight := k * g.weight } : Group).ratio = k * g.ratio := by
  unfold Group.ratio
  rw [Nat.cast_mul, mul_div_assoc]

theorem ratio_size_mul (k : Nat) (g : Group) :
    ({ g with size := k * g.size } : Group).ratio = (k : ℚ)⁻¹ * g.ratio := by
  unfold Group.ratio
  rw [Nat.cast_mul, div_mul_eq_div_div_swap, ← div_eq_inv_mul]

/-! ## The same groups -/

theorem ratio_of_weightless {g : Group} (h : g.weight = 0 ∨ g.size = 0) : g.ratio = 0 := by
  unfold Group.ratio
  rcases h with h | h <;> simp [h]

section Extended

/-! Here `others` are the groups in any order, and beside them groups that get nothing. -/

variable (hothers : ∀ g ∈ others, g ∈ groups ∨ g.weight = 0 ∨ g.size = 0)
  (hgroups : ∀ g ∈ groups, g ∈ others)
include hothers hgroups

theorem mem_map_share_iff (n : Nat) (hn : n ≠ 0) :
    n ∈ others.map (share groups) ↔ n ∈ groups.map (share groups) := by
  simp only [List.mem_map]
  constructor
  · rintro ⟨g, hg, rfl⟩
    rcases hothers g hg with hmem | hnothing
    · exact ⟨g, hmem, rfl⟩
    · exact absurd (share_of_weightless hnothing) hn
  · rintro ⟨g, hg, rfl⟩
    exact ⟨g, hgroups g hg, rfl⟩

omit hgroups in
theorem proportional_map_share : Proportional others (others.map (share groups)) := by
  obtain ⟨q, hq, hshare⟩ := exists_share_eq groups
  refine ⟨q, hq, ?_⟩
  rw [List.forall₂_map_right_iff, List.forall₂_same]
  intro g hg
  rcases hothers g hg with hmem | hnothing
  · exact hshare g hmem
  · simp [share_of_weightless hnothing, ratio_of_weightless hnothing]

theorem reduce_numerators_others : reduce (numerators others) = others.map (share groups) := by
  have hgcd := foldl_gcd_congr (mem_map_share_iff hothers hgroups)
  have hcoprime := gcd_reduce (numerators groups)
  rw [reduce_numerators, ← hgcd] at hcoprime
  refine reduce_numerators_eq (proportional_map_share hothers) ?_
  refine hcoprime.imp_right fun hzero n hn => ?_
  by_contra hne
  exact hne (hzero n ((mem_map_share_iff hothers hgroups n hne).mp hn))

/-- A group gets among the others what it gets among its own. -/
theorem weights_others (h : weights others = some ws') : ws' = others.map (weightIn groups) := by
  obtain ⟨-, hws⟩ := limit_eq_some_iff.mp (limit_of_weights h)
  rwa [reduce_numerators_others hothers hgroups,
    foldl_max_congr (mem_map_share_iff hothers hgroups), foldl_max_shares, List.map_map] at hws

end Extended

theorem weights_reordered {σ : Equiv.Perm (Fin groups.length)} (h : weights groups = some ws)
    (h' : weights (reordered groups σ) = some ws') :
    ws'.length = ws.length ∧ ∀ i : Fin groups.length, ws'[(i : Nat)]? = ws[(σ i : Nat)]? := by
  have hperm := reordered_perm groups σ
  have hws : ws' = (reordered groups σ).map (weightIn groups) :=
    weights_others (fun g hg => .inl (hperm.mem_iff.mp hg)) (fun g hg => hperm.mem_iff.mpr hg) h'
  rw [hws, (weights_eq_map h).2]
  refine ⟨?_, getElem?_map_reordered groups σ (weightIn groups)⟩
  rw [List.length_map, List.length_map, hperm.length_eq]

theorem weights_insertIdx {i : Nat} {g : Group} (hi : i ≤ groups.length)
    (hg : g.weight = 0 ∨ g.size = 0) (h : weights groups = some ws)
    (h' : weights (groups.insertIdx i g) = some ws') : ws' = ws.insertIdx i 0 := by
  have hmem : ∀ g', g' ∈ groups.insertIdx i g ↔ g' = g ∨ g' ∈ groups :=
    fun g' => List.mem_insertIdx hi
  have hothers : ∀ g' ∈ groups.insertIdx i g, g' ∈ groups ∨ g'.weight = 0 ∨ g'.size = 0 := by
    intro g' hg'
    rcases (hmem g').mp hg' with rfl | hold
    · exact .inr hg
    · exact .inl hold
  have hzero : weightIn groups g = 0 := by
    rw [weightIn, share_of_weightless hg, scaled_zero]
  rw [weights_others hothers (fun g' hg' => (hmem g').mpr (.inr hg')) h', List.map_insertIdx,
    hzero, ← (weights_eq_map h).2]

/-! ## The law -/

/-- Weights depend only on the proportions: another order of the groups orders the weights alike, a
factor of all weights or of all sizes changes none, and a group that has nothing to give or nobody
to give it to gets 0 wherever it is put and changes no other weight. -/
theorem weights_depend_only_on_proportions (h : weights groups = some ws) :
    (∀ σ ws', weights (reordered groups σ) = some ws' →
        ws'.length = ws.length ∧ ∀ i : Fin groups.length, ws'[(i : Nat)]? = ws[(σ i : Nat)]?) ∧
      (∀ k ws', 0 < k →
        weights (groups.map fun g => { g with weight := k * g.weight }) = some ws' → ws' = ws) ∧
      (∀ k ws', 0 < k →
        weights (groups.map fun g => { g with size := k * g.size }) = some ws' → ws' = ws) ∧
      ∀ i g ws', i ≤ groups.length → g.weight = 0 ∨ g.size = 0 →
        weights (groups.insertIdx i g) = some ws' → ws' = ws.insertIdx i 0 := by
  refine ⟨fun σ ws' h' => weights_reordered h h', ?_, ?_, fun i g ws' hi hg h' =>
    weights_insertIdx hi hg h h'⟩
  · intro k ws' hk h'
    have hk' : (0 : ℚ) < k := by exact_mod_cast hk
    exact weights_map_eq hk' (ratio_weight_mul k) h h'
  · intro k ws' hk h'
    have hk' : (0 : ℚ) < k := by exact_mod_cast hk
    exact weights_map_eq (inv_pos.mpr hk') (ratio_size_mul k) h h'

/-- Of two groups, the second comes first, or all weights are doubled, or all sizes are tripled, or
a drained group of seven endpoints is put between them. -/
theorem a_drained_group_leaves_the_others :
    weights [⟨255, 1⟩, ⟨1, 4⟩] = some [256, 1] ∧
      weights (reordered [⟨255, 1⟩, ⟨1, 4⟩] (Equiv.swap 0 1)) = some [1, 256] ∧
      ([1, 256] : List Nat)[0]? = [256, 1][1]? ∧
      (∀ ws, weights [⟨510, 1⟩, ⟨2, 4⟩] = some ws → ws = [256, 1]) ∧
      (∀ ws, weights [⟨255, 3⟩, ⟨1, 12⟩] = some ws → ws = [256, 1]) ∧
      ∀ ws, weights [⟨255, 1⟩, ⟨0, 7⟩, ⟨1, 4⟩] = some ws → ws = [256, 0, 1] := by
  have h : weights [⟨255, 1⟩, ⟨1, 4⟩] = some [256, 1] := by decide
  have hswapped : weights (reordered [⟨255, 1⟩, ⟨1, 4⟩] (Equiv.swap 0 1)) = some [1, 256] := by
    decide
  obtain ⟨horder, hweight, hsize, hinsert⟩ := weights_depend_only_on_proportions h
  exact ⟨h, hswapped, (horder _ _ hswapped).2 0, fun ws => hweight 2 ws (by decide),
    fun ws => hsize 3 ws (by decide), fun ws => hinsert 1 ⟨0, 7⟩ ws (by decide) (.inl rfl)⟩

end Ingress.Share
