-- The weights of shares in closed form: least common multiples and numerators without the bound of
-- 128 bits, the bound put in front as a condition. Main statement: a group of weight 0 may as well
-- have no endpoints.
import Ingress.Balance.Share
import Ingress.Proofs.Related

namespace Ingress

/-! ## Numbers that fit -/

theorem fit128_eq_some {n m : Nat} (h : fit128 n = some m) : m = n := by
  unfold fit128 at h
  split at h
  · exact (Option.some.inj h).symm
  · cases h

/-- What is not above a number that fits, fits. -/
theorem fit128_of_le {n k : Nat} (h : (fit128 n).isSome) (hk : k ≤ n) : fit128 k = some k := by
  unfold fit128 at h ⊢
  split at h
  · next hn => rw [if_pos (Nat.lt_of_le_of_lt hk hn)]
  · cases h

theorem fit128_of_isSome {n : Nat} (h : (fit128 n).isSome) : fit128 n = some n :=
  fit128_of_le h (Nat.le_refl n)

namespace Share

/-! ## The common size -/

/-- The least common multiple of a number and of sizes. -/
def lcmFrom (l : Nat) (groups : List Group) : Nat := groups.foldl (fun l g => Nat.lcm l g.size) l

theorem lcmFrom_cons (l : Nat) (g : Group) (groups : List Group) :
    lcmFrom l (g :: groups) = lcmFrom (Nat.lcm l g.size) groups := rfl

theorem lcmFrom_dvd_iff {l n : Nat} {groups : List Group} :
    lcmFrom l groups ∣ n ↔ l ∣ n ∧ ∀ g ∈ groups, g.size ∣ n := by
  unfold lcmFrom
  induction groups generalizing l with
  | nil => simp
  | cons g groups ih => simp [ih, Nat.lcm_dvd_iff, and_assoc]

theorem lcmFrom_pos {l : Nat} {groups : List Group} (hl : 0 < l)
    (h : ∀ g ∈ groups, 0 < g.size) : 0 < lcmFrom l groups := by
  unfold lcmFrom
  induction groups generalizing l with
  | nil => exact hl
  | cons g groups ih =>
    have hg := Nat.lcm_pos hl (h g List.mem_cons_self)
    exact ih hg fun g' hg' => h g' (List.mem_cons_of_mem _ hg')

theorem div_gcd_mul (l s : Nat) : l / Nat.gcd l s * s = Nat.lcm l s := by
  rw [Nat.lcm_eq_mul_div, Nat.div_mul_right_comm (Nat.gcd_dvd_left l s)]

/-- Every least common multiple on the way divides the last one, so only the last one has to fit. -/
theorem foldlM_fit128 {l : Nat} {groups : List Group} (hl : 0 < l)
    (h : ∀ g ∈ groups, 0 < g.size) (fits : (fit128 l).isSome) :
    groups.foldlM (fun l g => fit128 (l / Nat.gcd l g.size * g.size)) l =
      fit128 (lcmFrom l groups) := by
  induction groups generalizing l with
  | nil => exact (fit128_of_isSome fits).symm
  | cons g groups ih =>
    have hpos := Nat.lcm_pos hl (h g List.mem_cons_self)
    have hrest : ∀ g' ∈ groups, 0 < g'.size := fun g' hg' => h g' (List.mem_cons_of_mem _ hg')
    rw [List.foldlM_cons, div_gcd_mul, lcmFrom_cons]
    cases hfit : fit128 (Nat.lcm l g.size) with
    | none =>
      -- Later sizes only make the multiple greater, so it does not fit at the end either.
      have hle : Nat.lcm l g.size ≤ lcmFrom (Nat.lcm l g.size) groups :=
        Nat.le_of_dvd (lcmFrom_pos hpos hrest) (lcmFrom_dvd_iff.mp (Nat.dvd_refl _)).1
      cases hlast : fit128 (lcmFrom (Nat.lcm l g.size) groups) with
      | none => rfl
      | some n =>
        have := fit128_of_le (by rw [hlast]; rfl) hle
        rw [hfit] at this
        cases this
    | some n =>
      rw [fit128_eq_some hfit]
      exact ih hpos hrest (by rw [hfit]; rfl)

/-- The least common multiple of the sizes that are not 0. -/
def commonMultiple (groups : List Group) : Nat := lcmFrom 1 (groups.filter (0 < ·.size))

theorem commonMultiple_pos (groups : List Group) : 0 < commonMultiple groups :=
  lcmFrom_pos Nat.one_pos (by simp)

theorem commonMultiple_dvd_iff {groups : List Group} {n : Nat} :
    commonMultiple groups ∣ n ↔ ∀ g ∈ groups, 0 < g.size → g.size ∣ n := by
  simp [commonMultiple, lcmFrom_dvd_iff]

theorem size_dvd_commonMultiple {groups : List Group} {g : Group} (hg : g ∈ groups)
    (hs : 0 < g.size) : g.size ∣ commonMultiple groups :=
  commonMultiple_dvd_iff.mp (Nat.dvd_refl _) g hg hs

theorem commonSize_eq (groups : List Group) :
    commonSize groups = fit128 (commonMultiple groups) :=
  foldlM_fit128 Nat.one_pos (by simp) (by decide)

/-! ## Numerators -/

/-- The weight of each group per endpoint, in units of one over the common multiple. A group without
endpoints has none. -/
def numerators (groups : List Group) : List Nat :=
  groups.map fun g => g.weight * (commonMultiple groups / g.size)

theorem numerator_eq (common : Nat) (g : Group) :
    numerator common g = fit128 (g.weight * (common / g.size)) := by
  unfold numerator
  split
  · next h => rw [h, Nat.div_zero, Nat.mul_zero]; decide
  · rfl

theorem mapM_numerator_eq_some_iff {common : Nat} {groups : List Group} {ns : List Nat} :
    groups.mapM (numerator common) = some ns ↔
      (∀ g ∈ groups, (fit128 (g.weight * (common / g.size))).isSome) ∧
        ns = groups.map fun g => g.weight * (common / g.size) := by
  induction groups generalizing ns with
  | nil => exact ⟨fun h => ⟨by simp, (Option.some.inj h).symm⟩, fun h => h.2 ▸ rfl⟩
  | cons g groups ih =>
    simp only [List.mapM_cons, numerator_eq, Option.bind_eq_bind, Option.bind_eq_some_iff,
      Option.pure_def, Option.some.injEq, List.forall_mem_cons, List.map_cons, ih]
    constructor
    · rintro ⟨n, hn, ms, ⟨hfit, rfl⟩, rfl⟩
      exact ⟨⟨by rw [hn]; rfl, hfit⟩, by rw [fit128_eq_some hn]⟩
    · rintro ⟨⟨hg, hfit⟩, rfl⟩
      exact ⟨_, fit128_of_isSome hg, _, ⟨hfit, rfl⟩, rfl⟩

theorem numerator_pos_iff {groups : List Group} {g : Group} (hg : g ∈ groups) :
    0 < g.weight * (commonMultiple groups / g.size) ↔ 0 < g.weight ∧ 0 < g.size := by
  rcases Nat.eq_zero_or_pos g.size with hs | hs
  · simp [hs]
  · have hdiv : 0 < commonMultiple groups / g.size :=
      Nat.div_pos (Nat.le_of_dvd (commonMultiple_pos groups) (size_dvd_commonMultiple hg hs)) hs
    simp [hs, hdiv]

/-! ## Reduction -/

theorem dvd_foldl_gcd_iff {n a : Nat} {ns : List Nat} :
    n ∣ ns.foldl Nat.gcd a ↔ n ∣ a ∧ ∀ m ∈ ns, n ∣ m := by
  induction ns generalizing a with
  | nil => simp
  | cons m ns ih => simp [ih, Nat.dvd_gcd_iff, and_assoc]

theorem foldl_gcd_dvd {m : Nat} {ns : List Nat} (hm : m ∈ ns) : ns.foldl Nat.gcd 0 ∣ m :=
  (dvd_foldl_gcd_iff.mp (Nat.dvd_refl _)).2 m hm

theorem foldl_gcd_map_mul (k a : Nat) (ns : List Nat) :
    (ns.map (k * ·)).foldl Nat.gcd (k * a) = k * ns.foldl Nat.gcd a := by
  induction ns generalizing a with
  | nil => rfl
  | cons n ns ih => rw [List.map_cons, List.foldl_cons, Nat.gcd_mul_left, ih, List.foldl_cons]

/-- A common factor makes no difference to the reduced numbers. -/
theorem reduce_map_mul {k : Nat} (hk : 0 < k) (ns : List Nat) :
    reduce (ns.map (k * ·)) = reduce ns := by
  have hdiv : (ns.map (k * ·)).foldl Nat.gcd 0 = k * ns.foldl Nat.gcd 0 := by
    simpa using foldl_gcd_map_mul k 0 ns
  simp only [reduce, hdiv]
  rcases Nat.eq_zero_or_pos (ns.foldl Nat.gcd 0) with hzero | hpos
  · -- The divisor is 0 only if all numbers are, and then nothing is divided.
    have hall : ∀ n ∈ ns, k * n = n := by
      intro n hn
      have hn0 : n = 0 := Nat.eq_zero_of_zero_dvd (hzero ▸ foldl_gcd_dvd hn)
      rw [hn0, Nat.mul_zero]
    simp [hzero, List.map_congr_left hall]
  · rw [if_pos (Nat.mul_pos hk hpos), if_pos hpos, List.map_map]
    exact List.map_congr_left fun n _ => Nat.mul_div_mul_left n _ hk

/-! ## Weights -/

/-- The weights exist if the common multiple, the numerators and the rescaled numbers fit. -/
theorem weights_eq_some_iff {groups : List Group} {ws : List Nat} :
    weights groups = some ws ↔
      (fit128 (commonMultiple groups)).isSome ∧
        (∀ g ∈ groups, (fit128 (g.weight * (commonMultiple groups / g.size))).isSome) ∧
        ((limit (reduce (numerators groups))).bind fun ms =>
          ms.mapM fun n => if n < Nat.pow 2 32 then some n else none) = some ws := by
  unfold weights
  rw [commonSize_eq, Option.bind_eq_bind, Option.bind_eq_some_iff]
  constructor
  · rintro ⟨common, hcommon, h⟩
    obtain rfl := fit128_eq_some hcommon
    obtain ⟨ns, hns, h⟩ := Option.bind_eq_some_iff.mp h
    obtain ⟨hfit, rfl⟩ := mapM_numerator_eq_some_iff.mp hns
    exact ⟨by rw [hcommon]; rfl, hfit, h⟩
  · rintro ⟨hcommon, hfit, h⟩
    refine ⟨_, fit128_of_isSome hcommon, ?_⟩
    rw [mapM_numerator_eq_some_iff.mpr ⟨hfit, rfl⟩]
    exact h

theorem limit_of_weights {groups : List Group} {ws : List Nat} (h : weights groups = some ws) :
    limit (reduce (numerators groups)) = some ws := by
  obtain ⟨-, -, h⟩ := weights_eq_some_iff.mp h
  obtain ⟨ms, hms, h⟩ := Option.bind_eq_some_iff.mp h
  have hsame : ms.map id = ws.map id := by
    apply map_eq_of_forall₂ (forall₂_of_mapM h)
    intro m w hw
    split at hw
    · exact Option.some.inj hw
    · cases hw
  rw [List.map_id, List.map_id] at hsame
  rw [hms, hsame]

/-- A group without its endpoints if its weight is 0. -/
def Group.prune (g : Group) : Group := if g.weight = 0 then { g with size := 0 } else g

theorem commonMultiple_prune_dvd (groups : List Group) :
    commonMultiple (groups.map Group.prune) ∣ commonMultiple groups := by
  refine commonMultiple_dvd_iff.mpr fun g' hg' hs => ?_
  obtain ⟨g, hg, rfl⟩ := List.mem_map.mp hg'
  unfold Group.prune at hs ⊢
  split at hs
  · simp at hs
  · next hw => rw [if_neg hw]; exact size_dvd_commonMultiple hg hs

/-- Without the endpoints of groups of weight 0, all numerators lose one common factor. -/
theorem numerators_prune (groups : List Group) :
    numerators groups = (numerators (groups.map Group.prune)).map
      (commonMultiple groups / commonMultiple (groups.map Group.prune) * ·) := by
  obtain ⟨k, hk⟩ := commonMultiple_prune_dvd groups
  have hpos := commonMultiple_pos (groups.map Group.prune)
  simp only [numerators, List.map_map]
  refine List.map_congr_left fun g hg => ?_
  simp only [Function.comp_apply]
  rw [hk, Nat.mul_div_cancel_left k hpos]
  rcases Nat.eq_zero_or_pos g.weight with hw | hw
  · simp [Group.prune, hw]
  · have hprune : g.prune = g := if_neg (Nat.pos_iff_ne_zero.mp hw)
    rw [hprune]
    rcases Nat.eq_zero_or_pos g.size with hs | hs
    · simp [hs]
    · have hdvd : g.size ∣ commonMultiple (groups.map Group.prune) :=
        size_dvd_commonMultiple (List.mem_map.mpr ⟨g, hg, hprune⟩) hs
      rw [Nat.mul_comm _ k, Nat.mul_div_assoc k hdvd, Nat.mul_left_comm]

/-- A group of weight 0 may as well have no endpoints. -/
theorem weights_prune {groups : List Group} {ws : List Nat} (h : weights groups = some ws) :
    weights (groups.map Group.prune) = some ws := by
  obtain ⟨hcommon, hfit, h⟩ := weights_eq_some_iff.mp h
  have hdvd := commonMultiple_prune_dvd groups
  have hle := Nat.le_of_dvd (commonMultiple_pos groups) hdvd
  have hfactor := Nat.div_pos hle (commonMultiple_pos (groups.map Group.prune))
  refine weights_eq_some_iff.mpr ⟨?_, ?_, ?_⟩
  · rw [fit128_of_le hcommon hle]; rfl
  · intro g' hg'
    obtain ⟨g, hg, rfl⟩ := List.mem_map.mp hg'
    by_cases hw : g.weight = 0
    · simp only [Group.prune, hw, if_true, Nat.zero_mul]; decide
    · have hprune : g.prune = g := if_neg hw
      rw [hprune, fit128_of_le (hfit g hg) (Nat.mul_le_mul_left _ (Nat.div_le_div_right hle))]; rfl
  · rw [numerators_prune, reduce_map_mul hfactor] at h
    exact h

end Share

end Ingress
