-- The limit on weights in closed form. How far a number is scaled down depends on the greatest
-- number alone, and scaling fails exactly if the greatest number times 256 does not fit. Main
-- statements: the weight of a group is its scaled share, its share being what is left of its
-- numerator without the factor that all numerators have in common, and it is 0 only if there is
-- nothing to share or nobody to share it among.
import Ingress.Proofs.Share
import Mathlib.Algebra.Group.Nat.Defs

namespace Ingress.Share

/-! ## Greatest numbers and divisors -/

theorem foldl_max_le_iff {m a : Nat} {ns : List Nat} :
    ns.foldl max a ≤ m ↔ a ≤ m ∧ ∀ n ∈ ns, n ≤ m := by
  induction ns generalizing a with
  | nil => simp
  | cons n ns ih => simp [ih, and_assoc]

theorem le_foldl_max {n : Nat} {ns : List Nat} (hn : n ∈ ns) : n ≤ ns.foldl max 0 :=
  (foldl_max_le_iff.mp (Nat.le_refl _)).2 n hn

theorem foldl_max_mem {ns : List Nat} (h : 0 < ns.foldl max 0) : ns.foldl max 0 ∈ ns := by
  by_cases hmem : ns.foldl max 0 ∈ ns
  · exact hmem
  · -- All numbers are below the greatest one, so a smaller bound would do.
    have hbelow : ∀ n ∈ ns, n ≤ ns.foldl max 0 - 1 := by
      intro n hn
      have hle := le_foldl_max hn
      have hne : n ≠ ns.foldl max 0 := fun heq => hmem (heq ▸ hn)
      omega
    have hle := foldl_max_le_iff.mpr ⟨Nat.zero_le _, hbelow⟩
    omega

/-- The greatest number depends only on which numbers there are beside 0. -/
theorem foldl_max_congr {ns ms : List Nat} (h : ∀ n, n ≠ 0 → (n ∈ ns ↔ n ∈ ms)) :
    ns.foldl max 0 = ms.foldl max 0 := by
  have hbound : ∀ bound, ns.foldl max 0 ≤ bound ↔ ms.foldl max 0 ≤ bound := by
    intro bound
    simp only [foldl_max_le_iff, Nat.zero_le, true_and]
    constructor
    · intro hns m hm
      by_cases hzero : m = 0
      · omega
      · exact hns m ((h m hzero).mpr hm)
    · intro hms n hn
      by_cases hzero : n = 0
      · omega
      · exact hms n ((h n hzero).mp hn)
  exact Nat.le_antisymm ((hbound _).mpr (Nat.le_refl _)) ((hbound _).mp (Nat.le_refl _))

/-- The greatest common divisor depends only on which numbers there are beside 0. -/
theorem foldl_gcd_congr {ns ms : List Nat} (h : ∀ n, n ≠ 0 → (n ∈ ns ↔ n ∈ ms)) :
    ns.foldl Nat.gcd 0 = ms.foldl Nat.gcd 0 := by
  have hdvd : ∀ d, d ∣ ns.foldl Nat.gcd 0 ↔ d ∣ ms.foldl Nat.gcd 0 := by
    intro d
    simp only [dvd_foldl_gcd_iff, Nat.dvd_zero, true_and]
    constructor
    · intro hns m hm
      by_cases hzero : m = 0
      · exact hzero ▸ Nat.dvd_zero d
      · exact hns m ((h m hzero).mpr hm)
    · intro hms n hn
      by_cases hzero : n = 0
      · exact hzero ▸ Nat.dvd_zero d
      · exact hms n ((h n hzero).mp hn)
  exact Nat.dvd_antisymm ((hdvd _).mp (Nat.dvd_refl _)) ((hdvd _).mpr (Nat.dvd_refl _))

theorem foldl_max_map_div (d a : Nat) (ns : List Nat) :
    (ns.map (· / d)).foldl max (a / d) = ns.foldl max a / d := by
  induction ns generalizing a with
  | nil => rfl
  | cons n ns ih =>
    have hmax : max (a / d) (n / d) = max a n / d := by
      rcases Nat.le_total a n with h | h
      · rw [Nat.max_eq_right h, Nat.max_eq_right (Nat.div_le_div_right h)]
      · rw [Nat.max_eq_left h, Nat.max_eq_left (Nat.div_le_div_right h)]
    rw [List.map_cons, List.foldl_cons, hmax, ih, List.foldl_cons]

/-! ## Scaling down -/

/-- A number scaled down with others, of which `greatest` is the greatest. -/
def scaled (greatest n : Nat) : Nat :=
  if maxWeight < greatest ∧ 0 < n then max (n * maxWeight / greatest) 1 else n

theorem scaled_zero (greatest : Nat) : scaled greatest 0 = 0 := by
  simp [scaled]

theorem scaled_of_le {greatest : Nat} (h : greatest ≤ maxWeight) (n : Nat) :
    scaled greatest n = n := by
  have hnot : ¬(maxWeight < greatest ∧ 0 < n) := by omega
  exact if_neg hnot

theorem scaled_eq_zero_iff {greatest n : Nat} : scaled greatest n = 0 ↔ n = 0 := by
  unfold scaled
  split <;> omega

theorem scaled_greatest {greatest : Nat} (h : maxWeight < greatest) :
    scaled greatest greatest = maxWeight := by
  have hpos : 0 < greatest := Nat.zero_lt_of_lt h
  have hdiv : greatest * maxWeight / greatest = maxWeight := Nat.mul_div_cancel_left _ hpos
  unfold scaled
  rw [if_pos ⟨h, hpos⟩, hdiv]
  rfl

theorem scaled_mono {greatest n m : Nat} (h : n ≤ m) : scaled greatest n ≤ scaled greatest m := by
  have hdiv : n * maxWeight / greatest ≤ m * maxWeight / greatest :=
    Nat.div_le_div_right (Nat.mul_le_mul_right _ h)
  unfold scaled
  split <;> split <;> omega

theorem scaled_le {greatest n : Nat} (h : n ≤ greatest) : scaled greatest n ≤ maxWeight := by
  rcases Nat.lt_or_ge maxWeight greatest with hlt | hge
  · rw [← scaled_greatest hlt]
    exact scaled_mono h
  · rw [scaled_of_le hge]
    exact Nat.le_trans h hge

/-! ## When scaling fails -/

theorem fit128_mul_maxWeight (n : Nat) :
    fit128 (n * maxWeight) = if n < 2 ^ 120 then some (n * maxWeight) else none := by
  have hiff : n * maxWeight < Nat.pow 2 128 ↔ n < 2 ^ 120 := by
    have hpow : Nat.pow 2 128 = 2 ^ 120 * maxWeight := by decide
    rw [hpow]
    exact Nat.mul_lt_mul_right (by decide)
  simp only [fit128, hiff]

theorem rescale_eq {greatest : Nat} (h : maxWeight < greatest) (n : Nat) :
    rescale greatest n = if n < 2 ^ 120 then some (scaled greatest n) else none := by
  unfold rescale
  rw [fit128_mul_maxWeight]
  rcases Nat.eq_zero_or_pos n with rfl | hn
  · rw [if_pos rfl, if_pos (by decide), scaled_zero]
  · have hscaled : scaled greatest n = max (n * maxWeight / greatest) 1 := if_pos ⟨h, hn⟩
    rw [if_neg (Nat.pos_iff_ne_zero.mp hn), hscaled]
    split <;> rfl

/-- Scaling fails exactly if it fails for the greatest number. -/
theorem limit_eq (ns : List Nat) :
    limit ns =
      if ns.foldl max 0 < 2 ^ 120 then some (ns.map (scaled (ns.foldl max 0))) else none := by
  unfold limit
  dsimp only
  split
  · next hlt =>
    split
    · next hfit =>
      refine mapM_eq_some_map fun n hn => ?_
      rw [rescale_eq hlt, if_pos (Nat.lt_of_le_of_lt (le_foldl_max hn) hfit)]
    · next hbeyond =>
      have hmem : ns.foldl max 0 ∈ ns := foldl_max_mem (Nat.zero_lt_of_lt hlt)
      refine mapM_eq_none_of_mem hmem ?_
      rw [rescale_eq hlt, if_neg hbeyond]
  · next hle =>
    have hfit : ns.foldl max 0 < 2 ^ 120 := Nat.lt_of_le_of_lt (Nat.le_of_not_lt hle) (by decide)
    have hid : ns.map (scaled (ns.foldl max 0)) = ns := by
      conv_rhs => rw [← List.map_id ns]
      exact List.map_congr_left fun n _ => scaled_of_le (Nat.le_of_not_lt hle) n
    rw [if_pos hfit, hid]

theorem limit_eq_some_iff {ns ms : List Nat} :
    limit ns = some ms ↔ ns.foldl max 0 < 2 ^ 120 ∧ ms = ns.map (scaled (ns.foldl max 0)) := by
  rw [limit_eq]
  split
  · next hfit =>
    constructor
    · intro h
      exact ⟨hfit, (Option.some.inj h).symm⟩
    · rintro ⟨-, rfl⟩
      rfl
  · next hbeyond =>
    constructor
    · intro h
      cases h
    · rintro ⟨hfit, -⟩
      exact absurd hfit hbeyond

theorem limit_eq_none_iff {ns : List Nat} : limit ns = none ↔ 2 ^ 120 ≤ ns.foldl max 0 := by
  rw [limit_eq]
  split
  · next hfit => simpa using hfit
  · next hbeyond => simpa using hbeyond

theorem le_of_mem_limit {ns ms : List Nat} (h : limit ns = some ms) {m : Nat} (hm : m ∈ ms) :
    m ≤ maxWeight := by
  obtain ⟨-, rfl⟩ := limit_eq_some_iff.mp h
  obtain ⟨n, hn, rfl⟩ := List.mem_map.mp hm
  exact scaled_le (le_foldl_max hn)

/-! ## Shares -/

/-- What one endpoint of a group gets of its weight, in units that all groups have in common. -/
def share (groups : List Group) (g : Group) : Nat :=
  g.weight * (commonMultiple groups / g.size) / (numerators groups).foldl Nat.gcd 0

/-- The greatest numerator without the factor that all numerators have in common. -/
def greatestShare (groups : List Group) : Nat :=
  (numerators groups).foldl max 0 / (numerators groups).foldl Nat.gcd 0

theorem reduce_eq (ns : List Nat) : reduce ns = ns.map (· / ns.foldl Nat.gcd 0) := by
  unfold reduce
  dsimp only
  split
  · rfl
  · next hzero =>
    -- The divisor is 0 only if all numbers are, and 0 divided by 0 is 0.
    have hall : ∀ n ∈ ns, n / ns.foldl Nat.gcd 0 = n := by
      intro n hn
      have hdvd : ns.foldl Nat.gcd 0 ∣ n := foldl_gcd_dvd hn
      rw [Nat.eq_zero_of_not_pos hzero] at hdvd ⊢
      rw [Nat.eq_zero_of_zero_dvd hdvd]
    conv_lhs => rw [← List.map_id ns]
    exact List.map_congr_left fun n hn => (hall n hn).symm

theorem reduce_numerators (groups : List Group) :
    reduce (numerators groups) = groups.map (share groups) := by
  rw [reduce_eq]
  simp only [numerators, List.map_map]
  rfl

theorem foldl_max_shares (groups : List Group) :
    (groups.map (share groups)).foldl max 0 = greatestShare groups := by
  have hmap := foldl_max_map_div ((numerators groups).foldl Nat.gcd 0) 0 (numerators groups)
  rwa [Nat.zero_div, ← reduce_eq, reduce_numerators] at hmap

theorem share_le_greatestShare {groups : List Group} {g : Group} (hg : g ∈ groups) :
    share groups g ≤ greatestShare groups := by
  rw [← foldl_max_shares]
  exact le_foldl_max (List.mem_map_of_mem hg)

theorem share_of_weightless {groups : List Group} {g : Group} (h : g.weight = 0 ∨ g.size = 0) :
    share groups g = 0 := by
  rcases h with h | h <;> simp [share, h]

theorem share_eq_zero_iff {groups : List Group} {g : Group} (hg : g ∈ groups) :
    share groups g = 0 ↔ g.weight = 0 ∨ g.size = 0 := by
  refine ⟨fun hzero => ?_, share_of_weightless⟩
  have hmem : g.weight * (commonMultiple groups / g.size) ∈ numerators groups :=
    List.mem_map.mpr ⟨g, hg, rfl⟩
  have hdvd := foldl_gcd_dvd hmem
  have hnumerator : g.weight * (commonMultiple groups / g.size) = 0 :=
    Nat.eq_zero_of_dvd_of_div_eq_zero hdvd hzero
  have hpos := numerator_pos_iff hg
  omega

/-- The weight that an endpoint of a group gets. -/
def weightIn (groups : List Group) (g : Group) : Nat :=
  scaled (greatestShare groups) (share groups g)

/-- The greatest share fits if there are weights, and the weights are the scaled shares. -/
theorem weights_eq_map {groups : List Group} {ws : List Nat} (h : weights groups = some ws) :
    greatestShare groups < 2 ^ 120 ∧ ws = groups.map (weightIn groups) := by
  have hlimit := limit_eq_some_iff.mp (limit_of_weights h)
  rwa [reduce_numerators, foldl_max_shares, List.map_map] at hlimit

theorem weightIn_le {groups : List Group} {g : Group} (hg : g ∈ groups) :
    weightIn groups g ≤ maxWeight := scaled_le (share_le_greatestShare hg)

theorem weightIn_eq_zero_iff {groups : List Group} {g : Group} (hg : g ∈ groups) :
    weightIn groups g = 0 ↔ g.weight = 0 ∨ g.size = 0 := by
  unfold weightIn
  rw [scaled_eq_zero_iff, share_eq_zero_iff hg]

/-! ## Which weights are 0 -/

/-- Which of some numbers are 0. -/
def zeros (ns : List Nat) : List Bool := ns.map (· = 0)

/-- An endpoint gets weight 0 exactly if its group has weight 0 or no endpoints. -/
theorem zeros_of_weights {groups : List Group} {ws : List Nat} (h : weights groups = some ws) :
    zeros ws = groups.map fun g => decide (g.weight = 0 ∨ g.size = 0) := by
  obtain ⟨-, rfl⟩ := weights_eq_map h
  unfold zeros
  rw [List.map_map]
  refine List.map_congr_left fun g hg => ?_
  exact decide_eq_decide.mpr (weightIn_eq_zero_iff hg)

end Ingress.Share
