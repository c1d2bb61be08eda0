-- Weights that are the exact shares. The reduced numerators are the smallest whole numbers that
-- stand to each other as weight to size does, and they are the weights unless one of them is beyond
-- the greatest weight. Main statement: weights are the smallest proportional numbers if these fit.
import Ingress.Proofs.Limit
import Mathlib.Algebra.Order.Field.Rat
import Mathlib.Data.Nat.Cast.Field
import Mathlib.Tactic.FieldSimp
import Mathlib.Tactic.Ring

namespace Ingress.Share

/-! ## Proportional numbers -/

/-- The weight of a group per endpoint, which is 0 for a group without endpoints. -/
def Group.ratio (g : Group) : ℚ := g.weight / g.size

/-- Whether whole numbers stand to each other as the weights of groups per endpoint do. -/
def Proportional (groups : List Group) (vs : List Nat) : Prop :=
  ∃ q : ℚ, 0 < q ∧ List.Forall₂ (fun g (v : Nat) => (v : ℚ) = q * g.ratio) groups vs

/-- Numbers that are proportional and nowhere above other proportional ones. -/
structure Smallest (groups : List Group) (vs : List Nat) : Prop where
  proportional : Proportional groups vs
  least : ∀ us, Proportional groups us → List.Forall₂ (· ≤ ·) vs us

theorem eq_of_forall₂_le {vs us : List Nat} (h : List.Forall₂ (· ≤ ·) vs us)
    (h' : List.Forall₂ (· ≤ ·) us vs) : vs = us := by
  induction h with
  | nil => rfl
  | cons hle _ ih =>
    cases h' with
    | cons hge hrest => rw [Nat.le_antisymm hle hge, ih hrest]

variable {groups : List Group} {vs us : List Nat}

theorem Smallest.unique (hv : Smallest groups vs) (hu : Smallest groups us) : vs = us :=
  eq_of_forall₂_le (hv.least us hu.proportional) (hu.least vs hv.proportional)

theorem proportional_of_map_mul {d : Nat} (hd : 0 < d) (h : Proportional groups (vs.map (d * ·))) :
    Proportional groups vs := by
  obtain ⟨q, hq, hvs⟩ := h
  have hd' : (0 : ℚ) < d := by exact_mod_cast hd
  refine ⟨q / d, div_pos hq hd', ?_⟩
  apply (List.forall₂_map_right_iff.mp hvs).imp
  intro g v hgv
  rw [Nat.cast_mul] at hgv
  rw [div_mul_eq_mul_div, eq_div_iff hd'.ne', ← hgv, mul_comm]

/-- Of two lists of proportional numbers, one is a fraction of the other. -/
theorem fraction_of_proportional (hv : Proportional groups vs) (hu : Proportional groups us) :
    ∃ a b : Nat, 0 < a ∧ b.Coprime a ∧ List.Forall₂ (fun v u => b * u = a * v) vs us := by
  obtain ⟨q, hq, hv⟩ := hv
  obtain ⟨p, hp, hu⟩ := hu
  have hpos : 0 < (p / q).num := Rat.num_pos.mpr (div_pos hp hq)
  refine ⟨(p / q).num.natAbs, (p / q).den, Int.natAbs_pos.mpr hpos.ne', (p / q).reduced.symm, ?_⟩
  apply forall₂_of_common ?_ hv hu
  intro g v u hgv hgu
  have hu' : (u : ℚ) = p / q * v := by
    rw [hgu, hgv]
    field_simp
  have hfraction : ((p / q).den : ℚ) * u = (p / q).num * v := by
    rw [hu', ← Rat.mul_den_eq_num (p / q)]
    ring
  rw [← Int.natAbs_of_nonneg hpos.le] at hfraction
  exact_mod_cast hfraction

/-- Proportional numbers without a common factor are the smallest ones. -/
theorem smallest_of_coprime (h : Proportional groups vs)
    (hgcd : vs.foldl Nat.gcd 0 = 1 ∨ ∀ v ∈ vs, v = 0) : Smallest groups vs := by
  refine ⟨h, fun us hu => ?_⟩
  obtain ⟨a, b, ha, hcoprime, hfraction⟩ := fraction_of_proportional h hu
  rcases hgcd with hone | hzero
  · have hdvd : ∀ v ∈ vs, b ∣ v := by
      refine ((List.forall₂_and_left _ _).mp (hfraction.imp fun v u hvu => ⟨?_, hvu⟩)).1
      exact hcoprime.dvd_of_dvd_mul_left (Dvd.intro u hvu)
    have hb : b ∣ 1 := hone ▸ dvd_foldl_gcd_iff.mpr ⟨Nat.dvd_zero b, hdvd⟩
    apply hfraction.imp
    intro v u hvu
    rw [Nat.dvd_one.mp hb, Nat.one_mul] at hvu
    rw [hvu]
    exact Nat.le_mul_of_pos_left v ha
  · apply ((List.forall₂_and_left _ _).mpr ⟨hzero, hfraction⟩).imp
    rintro v u ⟨rfl, -⟩
    exact Nat.zero_le u

/-! ## Reduced numerators -/

theorem proportional_numerators (groups : List Group) :
    Proportional groups (numerators groups) := by
  refine ⟨commonMultiple groups, ?_, ?_⟩
  · exact_mod_cast commonMultiple_pos groups
  · apply List.forall₂_map_right_iff.mpr
    apply List.forall₂_same.mpr
    intro g hg
    unfold Group.ratio
    rcases Nat.eq_zero_or_pos g.size with hs | hs
    · simp [hs]
    · have hsize : (g.size : ℚ) ≠ 0 := by exact_mod_cast hs.ne'
      rw [Nat.cast_mul, Nat.cast_div (size_dvd_commonMultiple hg hs) hsize]
      field_simp

theorem map_mul_map_div_gcd (ns : List Nat) :
    (ns.map (· / ns.foldl Nat.gcd 0)).map (ns.foldl Nat.gcd 0 * ·) = ns := by
  rw [List.map_map]
  conv_rhs => rw [← List.map_id ns]
  exact List.map_congr_left fun n hn => Nat.mul_div_cancel' (foldl_gcd_dvd hn)

theorem proportional_reduce {ns : List Nat} (h : Proportional groups ns) :
    Proportional groups (reduce ns) := by
  dsimp only [reduce]
  split
  · next hpos =>
    apply proportional_of_map_mul hpos
    rwa [map_mul_map_div_gcd]
  · exact h

theorem gcd_reduce (ns : List Nat) :
    (reduce ns).foldl Nat.gcd 0 = 1 ∨ ∀ n ∈ reduce ns, n = 0 := by
  dsimp only [reduce]
  split
  · next hpos =>
    have hfactor := foldl_gcd_map_mul (ns.foldl Nat.gcd 0) 0 (ns.map (· / ns.foldl Nat.gcd 0))
    rw [map_mul_map_div_gcd, Nat.mul_zero] at hfactor
    exact .inl (Nat.eq_of_mul_eq_mul_left hpos (by rw [← hfactor, Nat.mul_one]))
  · next hzero =>
    refine .inr fun n hn => Nat.eq_zero_of_zero_dvd ?_
    rw [← Nat.eq_zero_of_not_pos hzero]
    exact foldl_gcd_dvd hn

theorem smallest_reduce_numerators (groups : List Group) :
    Smallest groups (reduce (numerators groups)) :=
  smallest_of_coprime (proportional_reduce (proportional_numerators groups)) (gcd_reduce _)

/-- The shares of groups stand to each other as their weights per endpoint do. -/
theorem exists_share_eq (groups : List Group) :
    ∃ q : ℚ, 0 < q ∧ ∀ g ∈ groups, (share groups g : ℚ) = q * g.ratio := by
  obtain ⟨q, hq, hshares⟩ := (smallest_reduce_numerators groups).proportional
  rw [reduce_numerators] at hshares
  exact ⟨q, hq, List.forall₂_same.mp (List.forall₂_map_right_iff.mp hshares)⟩

/-! ## Numbers within the limit -/

theorem limit_of_le {ns : List Nat} (h : ∀ n ∈ ns, n ≤ maxWeight) : limit ns = some ns := by
  have hgreatest := foldl_max_le_iff.mpr ⟨Nat.zero_le maxWeight, h⟩
  dsimp only [limit]
  rw [if_neg (Nat.not_lt.mpr hgreatest)]

/-! ## Exact shares -/

/-- What numbers are that share out the weights of groups exactly: weight to size by
cross-multiplication, no common factor, and totals that stand to each other as the weights. -/
structure Exact (groups : List Group) (ws : List Nat) : Prop where
  cross : ∀ p ∈ groups.zip ws, ∀ p' ∈ groups.zip ws, 0 < p.1.size → 0 < p'.1.size →
    p.2 * p.1.size * p'.1.weight = p'.2 * p'.1.size * p.1.weight
  coprime : ws.foldl Nat.gcd 0 = 1 ∨ ∀ w ∈ ws, w = 0
  totals : ∃ q : ℚ, 0 < q ∧ ∀ p ∈ groups.zip ws, 0 < p.1.size →
    ((p.1.size * p.2 : Nat) : ℚ) = q * p.1.weight

theorem totals_of_proportional (h : Proportional groups vs) : ∃ q : ℚ, 0 < q ∧
    ∀ p ∈ groups.zip vs, 0 < p.1.size → ((p.1.size * p.2 : Nat) : ℚ) = q * p.1.weight := by
  obtain ⟨q, hq, hvs⟩ := h
  refine ⟨q, hq, ?_⟩
  rintro ⟨g, v⟩ hp hs
  have hv := (List.forall₂_iff_zip.mp hvs).2 hp
  have hsize : (g.size : ℚ) ≠ 0 := by exact_mod_cast hs.ne'
  rw [Nat.cast_mul, hv]
  unfold Group.ratio
  field_simp

theorem cross_of_proportional (h : Proportional groups vs) :
    ∀ p ∈ groups.zip vs, ∀ p' ∈ groups.zip vs, 0 < p.1.size → 0 < p'.1.size →
      p.2 * p.1.size * p'.1.weight = p'.2 * p'.1.size * p.1.weight := by
  obtain ⟨q, -, htotals⟩ := totals_of_proportional h
  intro p hp p' hp' hs hs'
  have htotal := htotals p hp hs
  have htotal' := htotals p' hp' hs'
  have hcross : ((p.1.size * p.2 : Nat) : ℚ) * p'.1.weight =
      ((p'.1.size * p'.2 : Nat) : ℚ) * p.1.weight := by
    rw [htotal, htotal']
    ring
  rw [Nat.mul_comm p.2, Nat.mul_comm p'.2]
  exact_mod_cast hcross

theorem exact_reduce_numerators (groups : List Group) :
    Exact groups (reduce (numerators groups)) where
  cross := cross_of_proportional (smallest_reduce_numerators groups).proportional
  coprime := gcd_reduce _
  totals := totals_of_proportional (smallest_reduce_numerators groups).proportional

/-- There are smallest proportional numbers, and if none of them is beyond the greatest weight, they
are the weights. -/
theorem weights_are_the_exact_shares {ws : List Nat} (h : weights groups = some ws) :
    ws.length = groups.length ∧ (∃! vs, Smallest groups vs) ∧
      ∀ vs, Smallest groups vs → (∀ v ∈ vs, v ≤ maxWeight) → ws = vs ∧ Exact groups ws := by
  have hsmallest := smallest_reduce_numerators groups
  refine ⟨?_, ⟨_, hsmallest, fun vs hvs => hvs.unique hsmallest⟩, ?_⟩
  · have hlength := congrArg List.length (zeros_of_weights h)
    simpa [zeros] using hlength
  · intro vs hvs hle
    obtain rfl := hvs.unique hsmallest
    have hws := limit_of_weights h
    rw [limit_of_le hle] at hws
    obtain rfl := Option.some.inj hws
    exact ⟨rfl, exact_reduce_numerators groups⟩

theorem one_blue_weighs_four_green : weights [⟨50, 1⟩, ⟨25, 2⟩] = some [4, 1] ∧
    Smallest [⟨50, 1⟩, ⟨25, 2⟩] [4, 1] ∧ Exact [⟨50, 1⟩, ⟨25, 2⟩] [4, 1] := by
  have hweights : weights [⟨50, 1⟩, ⟨25, 2⟩] = some [4, 1] := by decide
  have hsmallest : Smallest [⟨50, 1⟩, ⟨25, 2⟩] [4, 1] := smallest_reduce_numerators _
  obtain ⟨-, -, hexact⟩ := weights_are_the_exact_shares hweights
  exact ⟨hweights, hsmallest, (hexact [4, 1] hsmallest (by decide)).2⟩

end Ingress.Share
