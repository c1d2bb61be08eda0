-- The rewrite targets of paths. Paths are grouped by the targets that are asked for on them, and
-- the targets that would break the configuration of the proxy are emptied behind that. Main
-- statements: each path is in one group and has the target that is asked for on it, or the empty
-- one in place of a harmful target; and no two groups have one target exactly if the paths without
-- a target all ask for the same.
import Ingress.Proofs.History
import Ingress.Proofs.Settled
import Ingress.Update

namespace Ingress

/-- Whether an event tells of a rewrite target that is not safe. -/
def Event.isUnsafeTarget : Event → Bool
  | .unsafeRewriteTarget .. => true
  | _ => false

namespace RewriteTarget

/-! ## Targets -/

/-- Whether a target holds white space or a quote. -/
def Harmful (target : String) : Prop :=
  ∃ c ∈ target.toList, Text.isBlank c = true ∨ c = '"' ∨ c = '\''

theorem isSafe_eq_false_iff {target : String} : isSafe target = false ↔ Harmful target := by
  unfold isSafe Harmful
  rw [List.all_eq_false]
  simp only [Bool.not_eq_true', Bool.not_eq_false, Bool.or_eq_true, decide_eq_true_eq, or_assoc]

instance (target : String) : Decidable (Harmful target) :=
  decidable_of_iff (isSafe target = false) isSafe_eq_false_iff

/-- A target in the configuration of the proxy, which is empty in place of a harmful one. -/
def harmless (target : String) : String := if Harmful target then "" else target

/-- The target that is asked for on a path: the one declared at its hostpath, or the default. -/
def asked (a : Annotations) (p : RoutePath) : String := a.valueAt Key.rewriteTarget p.hostpath

/-- The target that a path gets. -/
def effective (a : Annotations) (p : RoutePath) : String := harmless (asked a p)

theorem not_harmful_harmless (target : String) : ¬Harmful (harmless target) := by
  unfold harmless
  split
  · decide
  · assumption

theorem harmless_eq_self {target : String} (h : harmless target ≠ "") :
    harmless target = target := by
  unfold harmless at h ⊢
  split
  · next hharmful => exact absurd (if_pos hharmful) h
  · rfl

/-- Only harmful targets lose what sets them apart. -/
theorem eq_of_harmless_eq {target other : String} (hsame : harmless target = harmless other)
    (hset : harmless target ≠ "") : target = other := by
  have hother : harmless other ≠ "" := hsame ▸ hset
  calc target = harmless target := (harmless_eq_self hset).symm
    _ = harmless other := hsame
    _ = other := harmless_eq_self hother

@[simp]
theorem paths_sanitize (group : PathGroup String) : (sanitize group).paths = group.paths := by
  unfold sanitize
  split <;> rfl

theorem config_sanitize (group : PathGroup String) :
    (sanitize group).config = harmless group.config := by
  unfold sanitize harmless
  cases hsafe : isSafe group.config with
  | false => rw [if_pos (isSafe_eq_false_iff.mp hsafe), if_neg (by decide)]
  | true =>
    have hharmless : ¬Harmful group.config := by
      rw [← isSafe_eq_false_iff, hsafe]
      decide
    rw [if_neg hharmless, if_pos rfl]

/-! ## Groups -/

section Groups

variable (a : Annotations) (id : BackendId) (paths : PathSet)

theorem divides_group :
    Divides (paths.valued (asked a)) (a.group paths Key.rewriteTarget).value :=
  a.divides_group Key.rewriteTarget paths

theorem value_resolve :
    (resolve a id paths).value = (a.group paths Key.rewriteTarget).value.map sanitize := rfl

variable {a paths} {p q : RoutePath}

/-- A path is in a group if it asks for the target of the group. -/
theorem mem_group_iff {group : PathGroup String}
    (hgroup : group ∈ (a.group paths Key.rewriteTarget).value) :
    p ∈ group.paths.toList ↔ p ∈ paths.toList ∧ asked a p = group.config :=
  (divides_group a paths).mem_iff hgroup

/-- Two paths share a group if they ask for the same target. -/
theorem share_group_iff (hp : p ∈ paths.toList) (hq : q ∈ paths.toList) :
    (∃ group ∈ (resolve a id paths).value, p ∈ group.paths.toList ∧ q ∈ group.paths.toList) ↔
      asked a p = asked a q := by
  rw [value_resolve, ← (divides_group a paths).shares p _ (PathSet.mem_valued.mpr ⟨hp, rfl⟩) q _
    (PathSet.mem_valued.mpr ⟨hq, rfl⟩)]
  simp

/-! ## What is told -/

/-- The harmful targets that are asked for, each once, by the first paths that ask for them. -/
theorem unsafeEvents_group : unsafeEvents id (a.group paths Key.rewriteTarget).value =
    ((paths.toList.map (asked a)).filter Harmful).eraseDups.map (.unsafeRewriteTarget id) := by
  have hconfigs := (divides_group a paths).configs
  rw [distinctValues, PathSet.map_snd_valued] at hconfigs
  have hsafe : (fun target => !isSafe target) = fun target => decide (Harmful target) := by
    funext target
    rw [Bool.eq_iff_iff, decide_eq_true_iff, ← isSafe_eq_false_iff, Bool.not_eq_true']
  rw [← filter_eraseDups, ← hconfigs, ← hsafe, List.filter_map, List.map_map]
  rfl

theorem filter_isUnsafeTarget : (resolve a id paths).events.filter (·.isUnsafeTarget) =
    unsafeEvents id (a.group paths Key.rewriteTarget).value := by
  have hgroup : (a.group paths Key.rewriteTarget).events.filter (·.isUnsafeTarget) = [] := by
    rw [List.filter_eq_nil_iff]
    intro e he
    obtain ⟨kind, source, value, rfl⟩ := a.mem_events_group _ he
    exact Bool.false_ne_true
  have hunsafe : ∀ e ∈ unsafeEvents id (a.group paths Key.rewriteTarget).value,
      e.isUnsafeTarget = true := by
    intro e he
    obtain ⟨group, -, rfl⟩ := List.mem_map.mp he
    rfl
  unfold resolve
  simp only [Logged.events_bind, Logged.events_tellAll, Logged.events_pure, List.append_nil,
    List.filter_append, hgroup, List.nil_append]
  exact List.filter_eq_self.mpr hunsafe

end Groups

/-! ## Targets of paths -/

/-- A run gives every path the target that is asked for on it, or none in place of a harmful one. -/
structure Faithful (a : Annotations) (id : BackendId) (paths : PathSet)
    (run : Logged (List (PathGroup String))) : Prop where
  /-- The groups hold each path once and no others. -/
  divided : (run.value.flatMap (·.paths.toList)).Perm paths.toList
  targets : ∀ group ∈ run.value, ∀ p ∈ group.paths.toList, group.config = effective a p
  harmless : ∀ group ∈ run.value, ¬Harmful group.config
  /-- Each harmful target is told once, by the first path that asks for it. -/
  told : ∃ targets, FirstAppearances targets ((paths.toList.map (asked a)).filter Harmful) ∧
    run.events.filter (·.isUnsafeTarget) = targets.map (.unsafeRewriteTarget id)
  warned : ∀ e ∈ run.events, e.isUnsafeTarget = true → e.level = .warn

theorem faithful_resolve (a : Annotations) (id : BackendId) (paths : PathSet) :
    Faithful a id paths (resolve a id paths) where
  divided := by
    rw [value_resolve, List.flatMap_map]
    simp only [paths_sanitize]
    exact (divides_group a paths).perm_toList
  targets := by
    intro group hgroup p hp
    obtain ⟨raw, hraw, rfl⟩ := List.mem_map.mp (value_resolve a id paths ▸ hgroup)
    rw [paths_sanitize] at hp
    rw [config_sanitize, effective, ((mem_group_iff hraw).mp hp).2]
  harmless := by
    intro group hgroup
    obtain ⟨raw, -, rfl⟩ := List.mem_map.mp (value_resolve a id paths ▸ hgroup)
    rw [config_sanitize]
    exact not_harmful_harmless raw.config
  told := ⟨_, firstAppearances_iff.mpr rfl,
    (filter_isUnsafeTarget id).trans (unsafeEvents_group id)⟩
  warned := by
    intro e _ he
    cases e with
    | unsafeRewriteTarget => rfl
    | _ => cases he

/-- The update of a backend divides its paths into groups with the targets that are asked for on
them, but for the harmful ones, which are told and emptied. -/
theorem rewrite_targets_are_harmless_and_faithful (d : Draft) (cluster : ClusterView)
    (routes : RouteTable) (lists : List Userlist) :
    let run := resolve d.annotations d.backend.id d.backend.paths
    Faithful d.annotations d.backend.id d.backend.paths run ∧
      (d.update cluster routes lists).value.1.rewriteTargets = run.value :=
  ⟨faithful_resolve _ _ _, rfl⟩

/-! ## Minimal groups -/

/-- No two groups have one target, and paths with one target share a group. -/
structure Minimal (a : Annotations) (paths : PathSet) (groups : List (PathGroup String)) :
    Prop where
  distinct : groups.Pairwise fun group other => group.config ≠ other.config
  together : ∀ p ∈ paths.toList, ∀ q ∈ paths.toList, effective a p = effective a q →
    ∃ group ∈ groups, p ∈ group.paths.toList ∧ q ∈ group.paths.toList

section Minimal

variable {a : Annotations} {id : BackendId} {paths : PathSet}

/-- Two different groups have no target in common but the empty one. -/
theorem common_target_is_empty : (resolve a id paths).value.Pairwise fun group other =>
    group.config = other.config → group.config = "" := by
  rw [value_resolve, List.pairwise_map]
  refine (List.pairwise_map.mp (divides_group a paths).distinct).imp ?_
  intro group other hne hsame
  rw [config_sanitize, config_sanitize] at hsame
  rw [config_sanitize]
  by_contra hset
  exact hne (eq_of_harmless_eq hsame hset)

/-- If the paths that get one target ask for one target, no two groups have the same. -/
theorem distinct_of_together
    (htogether : ∀ p ∈ paths.toList, ∀ q ∈ paths.toList, effective a p = effective a q →
      asked a p = asked a q) :
    (resolve a id paths).value.Pairwise fun group other => group.config ≠ other.config := by
  have hdivides := divides_group a paths
  have hpath : ∀ group ∈ (a.group paths Key.rewriteTarget).value,
      ∃ p ∈ paths.toList, asked a p = group.config := by
    intro group hgroup
    obtain ⟨p, hp⟩ := List.exists_mem_of_ne_nil _ (hdivides.nonempty group hgroup)
    exact ⟨p, (mem_group_iff hgroup).mp hp⟩
  rw [value_resolve, List.pairwise_map]
  refine (List.pairwise_map.mp hdivides.distinct).imp_of_mem ?_
  intro group other hgroup hother hne hsame
  obtain ⟨p, hp, hpasked⟩ := hpath group hgroup
  obtain ⟨q, hq, hqasked⟩ := hpath other hother
  apply hne
  rw [← hpasked, ← hqasked]
  apply htogether p hp q hq
  rw [effective, effective, hpasked, hqasked, ← config_sanitize, ← config_sanitize]
  exact hsame

end Minimal

/-- The groups are minimal exactly if the paths without a target all ask for the same one. Two paths
share a group exactly if they ask for the same target, and no two groups have a target in common but
the empty one. -/
theorem groups_are_minimal_iff (a : Annotations) (id : BackendId) (paths : PathSet) :
    let groups := (resolve a id paths).value
    (Minimal a paths groups ↔ ∀ p ∈ paths.toList, ∀ q ∈ paths.toList,
      effective a p = "" → effective a q = "" → asked a p = asked a q) ∧
    (∀ p ∈ paths.toList, ∀ q ∈ paths.toList,
      (∃ group ∈ groups, p ∈ group.paths.toList ∧ q ∈ group.paths.toList) ↔
        asked a p = asked a q) ∧
    groups.Pairwise fun group other => group.config = other.config → group.config = "" := by
  refine ⟨⟨?_, ?_⟩, fun p hp q hq => share_group_iff id hp hq, common_target_is_empty⟩
  · intro hminimal p hp q hq hpnone hqnone
    exact (share_group_iff id hp hq).mp (hminimal.together p hp q hq (hpnone.trans hqnone.symm))
  · intro hnone
    have hasked : ∀ p ∈ paths.toList, ∀ q ∈ paths.toList, effective a p = effective a q →
        asked a p = asked a q := by
      intro p hp q hq hsame
      by_cases hset : effective a p = ""
      · exact hnone p hp q hq hset (hsame ▸ hset)
      · exact eq_of_harmless_eq hsame hset
    exact {
      distinct := distinct_of_together hasked
      together := fun p hp q hq hsame => (share_group_iff id hp hq).mpr (hasked p hp q hq hsame) }

/-- Two paths of a shop. One asks for a target with a blank, the other one for none. -/
def blankTarget : Draft where
  backend := { Backend.bare ⟨"shop", "web", "80"⟩ false [] with
    paths := {
      items := #[⟨"path01", "a.test/", "/"⟩, ⟨"path02", "a.test/app", "/app"⟩]
      ascending := by decide } }
  annotations := ⟨.plain, .ofCalls [
    .one ⟨Key.rewriteTarget, ⟨"ingress", "shop", "first"⟩, "a.test/", "/a b"⟩]⟩

theorem blank_target_leaves_two_empty_groups :
    let groups :=
      (resolve blankTarget.annotations blankTarget.backend.id blankTarget.backend.paths).value
    groups.map (·.config) = ["", ""] ∧
      ¬Minimal blankTarget.annotations blankTarget.backend.paths groups := by
  have hconfigs : (blankTarget.annotations.group blankTarget.backend.paths
      Key.rewriteTarget).value.map (·.config) = ["/a b", ""] :=
    (divides_group _ _).configs.trans (by decide)
  have hgroups : (resolve blankTarget.annotations blankTarget.backend.id
      blankTarget.backend.paths).value.map (·.config) = ["", ""] := by
    have hharmless : ((fun g : PathGroup String => g.config) ∘ sanitize) =
        harmless ∘ fun g => g.config := funext config_sanitize
    rw [value_resolve, List.map_map, hharmless, ← List.map_map, hconfigs]
    decide
  refine ⟨hgroups, fun hminimal => ?_⟩
  have hdistinct := List.pairwise_map.mpr hminimal.distinct
  rw [hgroups] at hdistinct
  exact List.rel_of_pairwise_cons hdistinct (List.mem_singleton_self _) rfl

end RewriteTarget

end Ingress
