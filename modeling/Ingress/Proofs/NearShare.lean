-- Weights that cannot be the exact shares. Scaling rounds down and lifts what would become 0 to 1,
-- so a weight may be off on either side. Main statement: it is off by less than one, nothing leaves
-- the range, only what was 0 is 0, and groups that give their endpoints more never get less.
import Ingress.Proofs.ExactShare
import Mathlib.Tactic.Linarith

namespace Ingress.Share

/-! ## The greatest ratio -/

/-- The greatest weight of a group per endpoint. -/
def greatestRatio (groups : List Group) : ℚ := (groups.map Group.ratio).foldl max 0

theorem cast_foldl_max {groups : List Group} {f : Group → Nat} {q : ℚ} (hq : 0 ≤ q)
    (h : ∀ g ∈ groups, (f g : ℚ) = q * g.ratio) {a : Nat} {r : ℚ} (ha : (a : ℚ) = q * r) :
    (((groups.map f).foldl max a : Nat) : ℚ) = q * (groups.map Group.ratio).foldl max r := by
  induction groups generalizing a r with
  | nil => exact ha
  | cons g groups ih =>
    obtain ⟨hg, hrest⟩ := List.forall_mem_cons.mp h
    have hmax : ((max a (f g) : Nat) : ℚ) = q * max r g.ratio := by
      rw [Nat.cast_max, ha, hg, mul_max_of_nonneg _ _ hq]
    exact ih hrest hmax

theorem greatestShare_eq {groups : List Group} {q : ℚ} (hq : 0 < q)
    (h : ∀ g ∈ groups, (share groups g : ℚ) = q * g.ratio) :
    (greatestShare groups : ℚ) = q * greatestRatio groups := by
  rw [← foldl_max_shares]
  exact cast_foldl_max hq.le h (by simp)

/-! ## Off by less than one -/

theorem scaled_mul_near {greatest n : Nat} (h : maxWeight < greatest) (hn : 0 < n) :
    scaled greatest n * greatest < n * maxWeight + greatest ∧
      n * maxWeight < scaled greatest n * greatest + greatest := by
  have hscaled : scaled greatest n = max (n * maxWeight / greatest) 1 := if_pos ⟨h, hn⟩
  have hdiv := Nat.div_add_mod' (n * maxWeight) greatest
  have hmod : n * maxWeight % greatest < greatest := Nat.mod_lt _ (by omega)
  have hpos : 0 < n * maxWeight := Nat.mul_pos hn (by decide)
  rw [hscaled]
  rcases Nat.eq_zero_or_pos (n * maxWeight / greatest) with hzero | hone
  · -- A number that would become 0 is lifted to 1, of which it is still a part.
    rw [hzero, Nat.zero_mul] at hdiv
    rw [hzero, Nat.max_eq_right (Nat.zero_le 1), Nat.one_mul]
    omega
  · rw [Nat.max_eq_left hone]
    omega

theorem scaled_near {greatest : Nat} (h : maxWeight < greatest) (n : Nat) :
    |(scaled greatest n : ℚ) - maxWeight * (n / greatest)| < 1 := by
  rcases Nat.eq_zero_or_pos n with rfl | hn
  · simp [scaled_zero]
  · obtain ⟨hbelow, habove⟩ := scaled_mul_near h hn
    have hpos : (0 : ℚ) < greatest := by exact_mod_cast Nat.zero_lt_of_lt h
    have hbelow' : (scaled greatest n : ℚ) * greatest < n * maxWeight + greatest := by
      exact_mod_cast hbelow
    have habove' : (n : ℚ) * maxWeight < scaled greatest n * greatest + greatest := by
      exact_mod_cast habove
    have hideal : (maxWeight : ℚ) * (n / greatest) * greatest = n * maxWeight := by
      field_simp
    have hless : ∀ a b : ℚ, a * greatest < b * greatest + greatest → a - b < 1 := by
      intro a b hab
      refine lt_of_mul_lt_mul_right ?_ hpos.le
      rw [sub_mul, one_mul]
      linarith
    rw [abs_sub_lt_iff]
    constructor
    · exact hless _ _ (by rwa [hideal])
    · exact hless _ _ (by rwa [hideal])

/-! ## Weights near the ideal -/

/-- What weights are whether they were scaled down or not: in range, 0 only where a group has
nothing to give or nobody to give it to, and in the order of the weights per endpoint. -/
structure InOrder (groups : List Group) (ws : List Nat) : Prop where
  le : ∀ w ∈ ws, w ≤ maxWeight
  eq_zero_iff : List.Forall₂ (fun g w => w = 0 ↔ g.weight = 0 ∨ g.size = 0) groups ws
  mono : ∀ p ∈ groups.zip ws, ∀ p' ∈ groups.zip ws, 0 < p.1.size → 0 < p'.1.size →
    p.1.ratio ≤ p'.1.ratio → p.2 ≤ p'.2

/-- What weights are that were scaled down: the greatest of them is the greatest that there is, and
each one is off by less than one from what would keep the ratios. -/
structure NearIdeal (groups : List Group) (ws : List Nat) : Prop where
  greatest : ws.foldl max 0 = maxWeight
  near : List.Forall₂ (fun g (w : Nat) =>
    |(w : ℚ) - maxWeight * (g.ratio / greatestRatio groups)| < 1) groups ws

variable {groups : List Group}

theorem share_le_share {g g' : Group} (hg : g ∈ groups) (hg' : g' ∈ groups)
    (h : g.ratio ≤ g'.ratio) : share groups g ≤ share groups g' := by
  obtain ⟨q, hq, hshare⟩ := exists_share_eq groups
  have hcast : (share groups g : ℚ) ≤ share groups g' := by
    rw [hshare g hg, hshare g' hg']
    exact mul_le_mul_of_nonneg_left h hq.le
  exact_mod_cast hcast

theorem inOrder_weightIn (groups : List Group) : InOrder groups (groups.map (weightIn groups)) where
  le := by
    intro w hw
    obtain ⟨g, hg, rfl⟩ := List.mem_map.mp hw
    exact weightIn_le hg
  eq_zero_iff := by
    rw [List.forall₂_map_right_iff, List.forall₂_same]
    intro g hg
    exact weightIn_eq_zero_iff hg
  mono := by
    intro p hp p' hp' _ _ hratio
    obtain ⟨hg, hw⟩ := of_mem_zip_map hp
    obtain ⟨hg', hw'⟩ := of_mem_zip_map hp'
    rw [hw, hw']
    exact scaled_mono (share_le_share hg hg' hratio)

theorem nearIdeal_weightIn (h : maxWeight < greatestShare groups) :
    NearIdeal groups (groups.map (weightIn groups)) where
  greatest := by
    have hmem : greatestShare groups ∈ groups.map (share groups) := by
      rw [← foldl_max_shares] at h ⊢
      exact foldl_max_mem (Nat.zero_lt_of_lt h)
    obtain ⟨top, htop, hshare⟩ := List.mem_map.mp hmem
    have hweight : weightIn groups top = maxWeight := by
      rw [weightIn, hshare, scaled_greatest h]
    apply Nat.le_antisymm
    · exact foldl_max_le_iff.mpr ⟨Nat.zero_le _, (inOrder_weightIn groups).le⟩
    · rw [← hweight]
      exact le_foldl_max (List.mem_map_of_mem htop)
  near := by
    obtain ⟨q, hq, hshare⟩ := exists_share_eq groups
    rw [List.forall₂_map_right_iff, List.forall₂_same]
    intro g hg
    have hratio : g.ratio / greatestRatio groups = share groups g / greatestShare groups := by
      rw [hshare g hg, greatestShare_eq hq hshare, mul_div_mul_left _ _ hq.ne']
    rw [hratio]
    exact scaled_near h _

/-- Weights are in range and in order, and if the smallest proportional numbers go beyond the range
they are near the ideal. -/
theorem weights_stay_near_the_ideal {ws : List Nat} (h : weights groups = some ws) :
    InOrder groups ws ∧
      ∃ vs, Smallest groups vs ∧ ((∃ v ∈ vs, maxWeight < v) → NearIdeal groups ws) := by
  obtain ⟨-, rfl⟩ := weights_eq_map h
  refine ⟨inOrder_weightIn groups, groups.map (share groups), ?_, ?_⟩
  · rw [← reduce_numerators]
    exact smallest_reduce_numerators groups
  · rintro ⟨v, hv, hbeyond⟩
    obtain ⟨g, hg, rfl⟩ := List.mem_map.mp hv
    exact nearIdeal_weightIn (Nat.lt_of_lt_of_le hbeyond (share_le_greatestShare hg))

/-- Four endpoints share a weight of 1 beside one that has 255. Each of them would get a quarter and
is lifted to 1. -/
theorem a_quarter_becomes_one :
    weights [⟨255, 1⟩, ⟨1, 4⟩, ⟨0, 3⟩, ⟨9, 0⟩] = some [256, 1, 0, 0] ∧
      InOrder [⟨255, 1⟩, ⟨1, 4⟩, ⟨0, 3⟩, ⟨9, 0⟩] [256, 1, 0, 0] ∧
      NearIdeal [⟨255, 1⟩, ⟨1, 4⟩, ⟨0, 3⟩, ⟨9, 0⟩] [256, 1, 0, 0] := by
  have hweights : weights [⟨255, 1⟩, ⟨1, 4⟩, ⟨0, 3⟩, ⟨9, 0⟩] = some [256, 1, 0, 0] := by decide
  obtain ⟨hinOrder, vs, hsmallest, hnear⟩ := weights_stay_near_the_ideal hweights
  refine ⟨hweights, hinOrder, hnear ?_⟩
  obtain rfl := hsmallest.unique (smallest_reduce_numerators _)
  decide

end Ingress.Share
