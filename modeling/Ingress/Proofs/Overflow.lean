-- When weights do not exist. The numbers on the way are bounded in three places, and the bounds are
-- met or not whatever the order of the groups is. Main statement: there are no weights exactly if
-- the common multiple or a numerator is beyond 128 bits or the greatest share beyond 120, and apart
-- from that no operation on the way can go wrong.
import Ingress.Proofs.Limit

namespace Ingress.Share

/-! ## The three bounds -/

theorem isSome_fit128_iff {n : Nat} : (fit128 n).isSome ↔ n < 2 ^ 128 := by
  unfold fit128
  split
  · next h => simpa using h
  · next h => simpa using h

/-- Whatever is within the limit fits in 32 bits. -/
theorem lt_of_mem_limit {ns ms : List Nat} (h : limit ns = some ms) {m : Nat} (hm : m ∈ ms) :
    m < Nat.pow 2 32 := Nat.lt_of_le_of_lt (le_of_mem_limit h hm) (by decide)

theorem mapM_narrow_of_limit {ns ms : List Nat} (h : limit ns = some ms) :
    (ms.mapM fun n => if n < Nat.pow 2 32 then some n else none) = some ms := by
  conv_rhs => rw [← List.map_id ms]
  exact mapM_eq_some_map fun m hm => if_pos (lt_of_mem_limit h hm)

theorem forall_numerator_fits_iff {groups : List Group} :
    (∀ g ∈ groups, (fit128 (g.weight * (commonMultiple groups / g.size))).isSome) ↔
      ∀ n ∈ numerators groups, n < 2 ^ 128 := by
  simp [numerators, isSome_fit128_iff]

theorem exists_weights_iff {groups : List Group} :
    (∃ ws, weights groups = some ws) ↔ commonMultiple groups < 2 ^ 128 ∧
      (∀ n ∈ numerators groups, n < 2 ^ 128) ∧ greatestShare groups < 2 ^ 120 := by
  constructor
  · rintro ⟨ws, hws⟩
    obtain ⟨hcommon, hnumerators, -⟩ := weights_eq_some_iff.mp hws
    exact ⟨isSome_fit128_iff.mp hcommon, forall_numerator_fits_iff.mp hnumerators,
      (weights_eq_map hws).1⟩
  · rintro ⟨hcommon, hnumerators, hgreatest⟩
    cases hlimit : limit (reduce (numerators groups)) with
    | none =>
      rw [limit_eq_none_iff, reduce_numerators, foldl_max_shares] at hlimit
      omega
    | some ms =>
      refine ⟨ms, weights_eq_some_iff.mpr ⟨isSome_fit128_iff.mpr hcommon,
        forall_numerator_fits_iff.mpr hnumerators, ?_⟩⟩
      rw [hlimit]
      exact mapM_narrow_of_limit hlimit

theorem weights_eq_none_iff {groups : List Group} :
    weights groups = none ↔ 2 ^ 128 ≤ commonMultiple groups ∨
      (∃ n ∈ numerators groups, 2 ^ 128 ≤ n) ∨ 2 ^ 120 ≤ greatestShare groups := by
  rw [← not_iff_not, ← ne_eq, Option.ne_none_iff_exists', exists_weights_iff]
  simp only [not_or, not_exists, not_and, Nat.not_le]

/-! ## The order of the groups -/

section SameGroups

variable {groups others : List Group} (h : ∀ g, g ∈ groups ↔ g ∈ others)
include h

theorem commonMultiple_congr : commonMultiple groups = commonMultiple others := by
  have hdvd : ∀ n, commonMultiple groups ∣ n ↔ commonMultiple others ∣ n := by
    intro n
    simp only [commonMultiple_dvd_iff, h]
  exact Nat.dvd_antisymm ((hdvd _).mpr (Nat.dvd_refl _)) ((hdvd _).mp (Nat.dvd_refl _))

theorem mem_numerators_congr (n : Nat) : n ∈ numerators groups ↔ n ∈ numerators others := by
  simp only [numerators, List.mem_map, commonMultiple_congr h, h]

theorem greatestShare_congr : greatestShare groups = greatestShare others := by
  have hmem := mem_numerators_congr h
  unfold greatestShare
  rw [foldl_max_congr fun n _ => hmem n, foldl_gcd_congr fun n _ => hmem n]

theorem weights_eq_none_congr : weights groups = none ↔ weights others = none := by
  simp only [weights_eq_none_iff, commonMultiple_congr h, mem_numerators_congr h,
    greatestShare_congr h]

end SameGroups

/-! ## Every operation checked -/

/-- What can go wrong in computing with numbers of bounded width. -/
inductive Fault where
  | overflow
  | divisionByZero
  | conversion
deriving DecidableEq

/-- A result, or an overflow if there is none. -/
def orOverflow {α : Type} : Option α → Except Fault α
  | some a => .ok a
  | none => .error .overflow

namespace Checked

/-! Each definition here is the one of the same name with the operations checked that it uses. -/

/-- Goes on unless a divisor is 0. -/
def divisor (d : Nat) : Except Fault Unit := if d = 0 then .error .divisionByZero else .ok ()

def divide (n d : Nat) : Except Fault Nat := do
  divisor d
  return n / d

def multiply (n m : Nat) : Except Fault Nat := orOverflow (fit128 (n * m))

/-- The greatest common divisor by repeated division with remainder. -/
def gcd (a b : Nat) : Except Fault Nat :=
  if _ : b = 0 then .ok a
  else do
    divisor b
    gcd b (a % b)
termination_by b
decreasing_by exact Nat.mod_lt a (Nat.pos_of_ne_zero ‹_›)

def lcm (a b : Nat) : Except Fault Nat := do
  let common ← gcd a b
  let units ← divide a common
  multiply units b

def commonSize (groups : List Group) : Except Fault Nat :=
  (groups.filter (0 < ·.size)).foldlM (fun l g => lcm l g.size) 1

def numerator (common : Nat) (g : Group) : Except Fault Nat :=
  if g.size = 0 then .ok 0
  else do
    let units ← divide common g.size
    multiply g.weight units

def reduce (ns : List Nat) : Except Fault (List Nat) := do
  let common ← ns.foldlM gcd 0
  if 0 < common then ns.mapM (divide · common) else return ns

def rescale (greatest n : Nat) : Except Fault Nat :=
  if n = 0 then .ok 0
  else do
    let scaled ← multiply n maxWeight
    let weight ← divide scaled greatest
    return max weight 1

def limit (ns : List Nat) : Except Fault (List Nat) :=
  let greatest := ns.foldl max 0
  if maxWeight < greatest then ns.mapM (rescale greatest) else .ok ns

/-- A number that has to fit in 32 bits. -/
def narrow (n : Nat) : Except Fault Nat :=
  if n < Nat.pow 2 32 then .ok n else .error .conversion

def weights (groups : List Group) : Except Fault (List Nat) := do
  let common ← commonSize groups
  let ns ← groups.mapM (numerator common)
  let reduced ← reduce ns
  let limited ← limit reduced
  limited.mapM narrow

end Checked

/-! ## Only overflows happen -/

theorem orOverflow_bind {α β : Type} (x : Option α) (f : α → Option β) :
    orOverflow (x >>= f) = orOverflow x >>= fun a => orOverflow (f a) := by
  cases x <;> rfl

theorem mapM_orOverflow {α β : Type} {f : α → Option β} {g : α → Except Fault β} {as : List α}
    (h : ∀ a ∈ as, g a = orOverflow (f a)) : as.mapM g = orOverflow (as.mapM f) := by
  induction as with
  | nil => rfl
  | cons a as ih =>
    obtain ⟨hhead, hrest⟩ := List.forall_mem_cons.mp h
    simp only [List.mapM_cons, hhead, ih hrest, orOverflow_bind]
    rfl

theorem foldlM_orOverflow {α β : Type} {f : β → α → Option β} {g : β → α → Except Fault β}
    {as : List α} (h : ∀ b, ∀ a ∈ as, g b a = orOverflow (f b a)) (b : β) :
    as.foldlM g b = orOverflow (as.foldlM f b) := by
  induction as generalizing b with
  | nil => rfl
  | cons a as ih =>
    have hrest : ∀ b, ∀ a ∈ as, g b a = orOverflow (f b a) :=
      fun b a ha => h b a (List.mem_cons_of_mem _ ha)
    simp only [List.foldlM_cons, h b a List.mem_cons_self, ih hrest, orOverflow_bind]

namespace Checked

theorem divide_eq {n d : Nat} (h : 0 < d) : divide n d = .ok (n / d) := by
  have hd : divisor d = .ok () := if_neg (Nat.pos_iff_ne_zero.mp h)
  unfold divide
  rw [hd]
  rfl

theorem gcd_eq (a b : Nat) : gcd a b = .ok (Nat.gcd a b) := by
  induction b using Nat.strongRecOn generalizing a with
  | ind b ih =>
    unfold gcd
    split
    · next h => rw [h, Nat.gcd_zero_right]
    · next h =>
      have hb : divisor b = .ok () := if_neg h
      have hgcd : Nat.gcd b (a % b) = Nat.gcd a b := by
        rw [Nat.gcd_comm b, ← Nat.gcd_rec, Nat.gcd_comm]
      rw [hb, ← hgcd]
      exact ih (a % b) (Nat.mod_lt a (Nat.pos_of_ne_zero h)) b

theorem lcm_eq {a b : Nat} (h : 0 < b) :
    lcm a b = orOverflow (fit128 (a / Nat.gcd a b * b)) := by
  unfold lcm
  rw [gcd_eq]
  show divide a (Nat.gcd a b) >>= _ = _
  rw [divide_eq (Nat.gcd_pos_of_pos_right a h)]
  rfl

theorem commonSize_eq (groups : List Group) :
    commonSize groups = orOverflow (Share.commonSize groups) := by
  refine foldlM_orOverflow (fun l g hg => lcm_eq ?_) 1
  simpa using (List.mem_filter.mp hg).2

theorem numerator_eq (common : Nat) (g : Group) :
    numerator common g = orOverflow (Share.numerator common g) := by
  unfold numerator Share.numerator
  split
  · rfl
  · next h =>
    rw [divide_eq (Nat.pos_of_ne_zero h)]
    rfl

theorem foldlM_gcd (ns : List Nat) : ns.foldlM gcd 0 = .ok (ns.foldl Nat.gcd 0) := by
  have hgcd : gcd = fun a b => pure (Nat.gcd a b) := by
    funext a b
    exact gcd_eq a b
  rw [hgcd, List.foldlM_pure]
  rfl

theorem mapM_divide {d : Nat} (h : 0 < d) (ns : List Nat) :
    ns.mapM (divide · d) = .ok (ns.map (· / d)) := by
  have hdivide : (divide · d) = fun n => pure (n / d) := by
    funext n
    exact divide_eq h
  rw [hdivide, List.mapM_pure]
  rfl

theorem reduce_eq (ns : List Nat) : reduce ns = .ok (Share.reduce ns) := by
  unfold reduce Share.reduce
  rw [foldlM_gcd]
  dsimp only
  show (if _ then _ else _) = _
  split
  · next h => exact mapM_divide h ns
  · rfl

theorem rescale_eq {greatest : Nat} (h : 0 < greatest) (n : Nat) :
    rescale greatest n = orOverflow (Share.rescale greatest n) := by
  unfold rescale Share.rescale
  split
  · rfl
  · unfold multiply
    cases fit128 (n * maxWeight) with
    | none => rfl
    | some scaled =>
      show divide scaled greatest >>= _ = _
      rw [divide_eq h]
      rfl

theorem limit_eq (ns : List Nat) : limit ns = orOverflow (Share.limit ns) := by
  unfold limit Share.limit
  dsimp only
  split
  · next h =>
    exact mapM_orOverflow fun n _ => rescale_eq (Nat.zero_lt_of_lt h) n
  · rfl

theorem weights_eq (groups : List Group) :
    weights groups = orOverflow (Share.weights groups) := by
  unfold weights Share.weights
  rw [commonSize_eq, orOverflow_bind]
  refine bind_congr fun common => ?_
  rw [mapM_orOverflow fun g _ => numerator_eq common g, orOverflow_bind]
  refine bind_congr fun ns => ?_
  rw [reduce_eq]
  show limit (Share.reduce ns) >>= _ = _
  rw [limit_eq]
  cases hlimit : Share.limit (Share.reduce ns) with
  | none => rfl
  | some ms =>
    refine mapM_orOverflow fun m hm => ?_
    have hfits := lt_of_mem_limit hlimit hm
    rw [narrow, if_pos hfits, if_pos hfits]
    rfl

end Checked

/-! ## The law -/

/-- There are no weights exactly if one of three numbers is beyond its bound, which does not depend
on the order of the groups. No division by 0 and no failing conversion is on the way: with every
operation checked, the computation gives the weights or an overflow. -/
theorem overflows_exactly_beyond_the_bounds (groups : List Group) :
    (weights groups = none ↔ 2 ^ 128 ≤ commonMultiple groups ∨
        (∃ n ∈ numerators groups, 2 ^ 128 ≤ n) ∨ 2 ^ 120 ≤ greatestShare groups) ∧
      Checked.weights groups = orOverflow (weights groups) ∧
      ∀ others, groups.Perm others → (weights groups = none ↔ weights others = none) :=
  ⟨weights_eq_none_iff, Checked.weights_eq groups,
    fun _ hperm => weights_eq_none_congr fun _ => hperm.mem_iff⟩

/-- The common multiple and all numerators fit, and the greatest share alone is beyond its bound. -/
theorem the_last_bound_alone_refuses :
    commonMultiple [⟨1, 1⟩, ⟨1, 2 ^ 60 - 1⟩, ⟨1, 2 ^ 64 - 1⟩] < 2 ^ 128 ∧
      (∀ n ∈ numerators [⟨1, 1⟩, ⟨1, 2 ^ 60 - 1⟩, ⟨1, 2 ^ 64 - 1⟩], n < 2 ^ 128) ∧
      weights [⟨1, 1⟩, ⟨1, 2 ^ 60 - 1⟩, ⟨1, 2 ^ 64 - 1⟩] = none ∧
      weights [⟨1, 2 ^ 64 - 1⟩, ⟨1, 1⟩, ⟨1, 2 ^ 60 - 1⟩] = none := by
  obtain ⟨hiff, -, horder⟩ :=
    overflows_exactly_beyond_the_bounds [⟨1, 1⟩, ⟨1, 2 ^ 60 - 1⟩, ⟨1, 2 ^ 64 - 1⟩]
  have hnone := hiff.mpr (.inr (.inr (by decide)))
  exact ⟨by decide, by decide, hnone, (horder _ (by decide)).mp hnone⟩

end Ingress.Share
