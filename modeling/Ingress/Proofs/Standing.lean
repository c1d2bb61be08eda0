-- What becomes of a feature in an update. It is off if its main annotation is empty; else it is
-- set, or it cannot be used and is refused. Main statement: on a backend on which nothing is set
-- yet, exactly one of the three holds of each feature behind an update, a refusal is counted once,
-- and nothing else is counted with the refusals.
import Ingress.Proofs.Counters
import Ingress.Proofs.Rejection

namespace Ingress

/-! ## Features of a backend -/

namespace Feature

/-- The annotation that asks for a feature. -/
def mainKey : Feature → String
  | .affinity => Key.affinity
  | .basicAuth => Key.authType
  | .oauth => Key.oauth
  | .waf => Key.waf

/-- Whether a feature is set on a backend. -/
def IsSet (b : Backend) : Feature → Prop
  | .affinity => b.cookie ≠ none
  | .basicAuth => b.basicAuth ≠ none
  | .oauth => b.oauth ≠ none
  | .waf => b.waf ≠ ""

theorem name_injective : Function.Injective name := by
  intro f g
  cases f <;> cases g <;> simp [name]

end Feature

/-- The counter of the refusals of a feature. -/
def Count.refusalOf (feature : Feature) : Count :=
  ⟨.rejectedFeature, some ("builder", feature.name)⟩

/-- The counter of refusals grows with the events that refuse a feature, under its name. -/
theorem count?_eq_some_iff_of_refusal {e : Event} {c : Count} (hc : c.metric = .rejectedFeature) :
    e.count? = some c ↔ ∃ feature, e.rejected? = some feature ∧ .refusalOf feature = c := by
  obtain ⟨metric, label⟩ := c
  cases hc
  cases e <;> simp [Event.count?, Event.rejected?, Count.refusalOf]

theorem growth_refusalOf {α : Type} (feature : Feature) (x : Logged α) :
    growth (.refusalOf feature) x.events = x.rejections feature := by
  rw [growth_eq_countP]
  refine List.countP_congr fun e _ => ?_
  simp [count?_eq_some_iff_of_refusal, Count.refusalOf, Feature.name_injective.eq_iff]

/-- Refusals are counted for features only. -/
theorem growth_eq_zero_of_refusal {c : Count} (hc : c.metric = .rejectedFeature)
    (hother : ∀ feature, c ≠ .refusalOf feature) (events : List Event) : growth c events = 0 := by
  apply growth_eq_zero
  intro e _ hcount
  obtain ⟨feature, -, rfl⟩ := (count?_eq_some_iff_of_refusal hc).mp hcount
  exact hother feature rfl

/-! ## Steps that decide a feature -/

/-- A step decides a feature for which `wanted` asks: it sets the feature only if it is asked for,
and it refuses it once if it is asked for and not set. -/
structure Decides (feature : Feature) (wanted : String) (set : Bool) {α : Type} (x : Logged α) :
    Prop where
  off : wanted = "" → set = false
  refused : x.rejections feature = if wanted = "" ∨ set = true then 0 else 1

/-- A run that refuses a feature as often as a step does decides what the step decides. -/
theorem Decides.of_rejections_eq {feature : Feature} {wanted : String} {set : Bool}
    {α β : Type} {x : Logged α} {y : Logged β} (h : Decides feature wanted set x)
    (heq : y.rejections feature = x.rejections feature) : Decides feature wanted set y :=
  ⟨h.off, heq.trans h.refused⟩

open Logged

section Steps

variable (a : Annotations)

theorem decides_sessionCookie : Decides .affinity (a.read Key.affinity).value.value
    (SessionCookie.resolve a).value.isSome (SessionCookie.resolve a) := by
  unfold SessionCookie.resolve
  by_cases hoff : (a.read Key.affinity).value.value = ""
  · exact ⟨by simp [hoff], by simp [hoff]⟩
  · by_cases hkind : (a.read Key.affinity).value.value = "cookie"
    · constructor
      · intro h
        exact absurd h hoff
      · simp [hkind, rejections_of_plain (plain_strategy _)]
    · exact ⟨by simp [hoff], by simp [hoff, hkind, Event.rejected?]⟩

theorem value_firewall : (Firewall.resolve a).value =
    if (a.read Key.waf).value.value = Firewall.modsecurity then some Firewall.modsecurity
    else none := by
  have hne : Firewall.modsecurity ≠ "" := by decide
  unfold Firewall.resolve
  by_cases hkind : (a.read Key.waf).value.value = Firewall.modsecurity
  · simp [hkind, hne]
  · by_cases hoff : (a.read Key.waf).value.value = "" <;> simp [hoff, hkind, hne.symm]

theorem decides_firewall : Decides .waf (a.read Key.waf).value.value
    (Firewall.resolve a).value.isSome (Firewall.resolve a) := by
  unfold Firewall.resolve
  by_cases hoff : (a.read Key.waf).value.value = ""
  · exact ⟨by simp [hoff], by simp [hoff]⟩
  · by_cases hkind : (a.read Key.waf).value.value = Firewall.modsecurity
    · exact ⟨fun h => absurd h hoff, by simp [hkind, Firewall.modsecurity]⟩
    · exact ⟨by simp [hoff], by simp [hoff, hkind, Event.rejected?]⟩

/-- A proxy that no path leads to is refused. -/
theorem rejections_viaProxy (routes : RouteTable) (origin : Origin) (ns uri : String) :
    (ExternalAuth.viaProxy a routes origin ns uri).rejections .oauth =
      if (ExternalAuth.viaProxy a routes origin ns uri).value.isSome then 0 else 1 := by
  unfold ExternalAuth.viaProxy
  cases routes.find? ns uri with
  | none => simp [Event.rejected?]
  | some id => simp [rejections_of_plain (.tellAll fun e => plain_headerEvents)]

theorem decides_externalAuth (routes : RouteTable) (ns : String) :
    Decides .oauth (a.read Key.oauth).value.value (ExternalAuth.resolve a routes ns).value.isSome
      (ExternalAuth.resolve a routes ns) := by
  unfold ExternalAuth.resolve
  by_cases hoff : (a.read Key.oauth).value.value = ""
  · exact ⟨by simp [hoff], by simp [hoff]⟩
  · by_cases hkind : (a.read Key.oauth).value.value = ExternalAuth.proxy
    · exact ⟨fun h => absurd h hoff, by simp [hkind, ExternalAuth.proxy, rejections_viaProxy]⟩
    · exact ⟨by simp [hoff], by simp [hoff, hkind, Event.rejected?]⟩

theorem decides_userAuth (cluster : ClusterView) (ns : String) (lists : List Userlist) :
    Decides .basicAuth (a.read Key.authType).value.value
      (UserAuth.resolve a cluster ns lists).value.1.isSome
      (UserAuth.resolve a cluster ns lists) where
  off := by
    intro h
    rw [UserAuth.value_resolve, UserAuth.secretName?, h]
    rfl
  refused := UserAuth.rejections_resolve a cluster ns lists

end Steps

/-! ## Updates -/

namespace Draft

variable (d : Draft) (cluster : ClusterView) (routes : RouteTable) (lists : List Userlist)

/-- Whether an update sets a feature. -/
def sets : Feature → Bool
  | .affinity => (SessionCookie.resolve d.annotations).value.isSome
  | .basicAuth => (UserAuth.resolve d.annotations cluster d.backend.id.ns lists).value.1.isSome
  | .oauth => (ExternalAuth.resolve d.annotations routes d.backend.id.ns).value.isSome
  | .waf => (Firewall.resolve d.annotations).value.isSome

/-- An update decides each feature, because the step of the feature does. -/
theorem decides_update (feature : Feature) :
    Decides feature (d.annotations.canonical feature.mainKey).value
      (d.sets cluster routes lists feature) (d.update cluster routes lists) := by
  rw [← Annotations.value_read]
  have hstep : (d.update cluster routes lists).rejections feature =
      (d.eventsOf cluster routes lists feature.topic).countP (·.rejected? = some feature) :=
    d.rejections_update cluster routes lists
  cases feature with
  | affinity => exact (decides_sessionCookie d.annotations).of_rejections_eq hstep
  | basicAuth =>
    exact (decides_userAuth d.annotations cluster d.backend.id.ns lists).of_rejections_eq hstep
  | oauth =>
    exact (decides_externalAuth d.annotations routes d.backend.id.ns).of_rejections_eq hstep
  | waf => exact (decides_firewall d.annotations).of_rejections_eq hstep

/-- A feature that was not set is set behind an update that sets it. -/
theorem isSet_update_iff {feature : Feature} (hunset : ¬feature.IsSet d.backend) :
    feature.IsSet (d.update cluster routes lists).value.1 ↔
      d.sets cluster routes lists feature = true := by
  rw [value_update]
  cases feature with
  | affinity =>
    have hnone : d.backend.cookie = none := not_not.mp hunset
    simp [Feature.IsSet, sets, hnone, Option.isSome_iff_ne_none]
  | basicAuth =>
    have hnone : d.backend.basicAuth = none := not_not.mp hunset
    simp [Feature.IsSet, sets, authentication, hnone, Option.isSome_iff_ne_none]
  | oauth =>
    have hnone : d.backend.oauth = none := not_not.mp hunset
    simp [Feature.IsSet, sets, hnone, Option.isSome_iff_ne_none]
  | waf =>
    have hempty : d.backend.waf = "" := not_not.mp hunset
    simp only [Feature.IsSet, sets, hempty, value_firewall]
    split <;> simp [Firewall.modsecurity]

end Draft

/-! ## The law -/

/-- What may become of a feature. -/
inductive Standing where
  | off
  | set
  | refused

/-- Whether a standing is right for a feature that `wanted` asks for: the feature is set or not, and
its refusal was counted so many times. -/
def Standing.Holds (wanted : String) (isSet : Prop) (refusals : Nat) : Standing → Prop
  | off => wanted = "" ∧ ¬isSet ∧ refusals = 0
  | set => isSet ∧ refusals = 0
  | refused => wanted ≠ "" ∧ ¬isSet ∧ refusals = 1

theorem Standing.Holds.eq {standing other : Standing} {wanted : String} {isSet : Prop}
    {refusals : Nat} (h : standing.Holds wanted isSet refusals)
    (hother : other.Holds wanted isSet refusals) : standing = other := by
  cases standing <;> cases other <;> simp_all [Standing.Holds]

theorem Decides.existsUnique {feature : Feature} {wanted : String} {set : Bool} {α : Type}
    {x : Logged α} (h : Decides feature wanted set x) :
    ∃! standing : Standing, standing.Holds wanted (set = true) (x.rejections feature) := by
  rw [h.refused]
  refine existsUnique_of_exists_of_unique ?_ fun _ _ => Standing.Holds.eq
  cases set with
  | true => exact ⟨.set, by simp [Standing.Holds]⟩
  | false =>
    by_cases hoff : wanted = ""
    · exact ⟨.off, by simp [Standing.Holds, hoff]⟩
    · exact ⟨.refused, by simp [Standing.Holds, hoff]⟩

/-- Behind an update of a backend on which nothing is set, each feature is either off, because its
main annotation is empty, or set, or it was asked for and refused, which is counted once. No other
refusals are counted. -/
theorem a_feature_is_off_set_or_refused_once (d : Draft) (cluster : ClusterView)
    (routes : RouteTable) (lists : List Userlist)
    (hunset : ∀ feature : Feature, ¬feature.IsSet d.backend) :
    let run := d.update cluster routes lists
    (∀ feature : Feature, ∃! standing : Standing,
      standing.Holds (d.annotations.canonical feature.mainKey).value
        (feature.IsSet run.value.1) (growth (.refusalOf feature) run.events)) ∧
    ∀ c : Count, c.metric = .rejectedFeature → (∀ feature, c ≠ .refusalOf feature) →
      growth c run.events = 0 := by
  intro run
  refine ⟨?_, fun c hc hother => growth_eq_zero_of_refusal hc hother run.events⟩
  intro feature
  have hdecides := d.decides_update cluster routes lists feature
  rw [growth_refusalOf, d.isSet_update_iff cluster routes lists (hunset feature)]
  exact hdecides.existsUnique

/-- A shop that wants a session cookie, authentication without a secret, no proxy and a firewall
that nobody knows. -/
def eagerShop : Draft where
  backend := .bare ⟨"shop", "web", "80"⟩ false []
  annotations := ⟨.plain, Declarations.empty
    |>.add ⟨Key.affinity, ⟨"ingress", "shop", "front"⟩, "a.test/", "cookie"⟩
    |>.add ⟨Key.authType, ⟨"ingress", "shop", "front"⟩, "a.test/", "basic"⟩
    |>.add ⟨Key.waf, ⟨"ingress", "shop", "front"⟩, "a.test/", "wall"⟩⟩

theorem eager_shop_is_refused_twice :
    let run := eagerShop.update Cluster.empty .empty []
    (∀ feature : Feature, ¬feature.IsSet eagerShop.backend) ∧
    (∃! standing : Standing, standing.Holds "basic" (Feature.basicAuth.IsSet run.value.1)
      (growth (.refusalOf .basicAuth) run.events)) ∧
    (∃! standing : Standing, standing.Holds "" (Feature.oauth.IsSet run.value.1)
      (growth (.refusalOf .oauth) run.events)) ∧
    Feature.affinity.IsSet run.value.1 ∧ growth (.refusalOf .affinity) run.events = 0 ∧
    growth (.refusalOf .basicAuth) run.events = 1 ∧ growth (.refusalOf .waf) run.events = 1 ∧
    growth ⟨.rejectedFeature, none⟩ run.events = 0 := by
  intro run
  have hunset : ∀ feature : Feature, ¬feature.IsSet eagerShop.backend := by
    intro feature
    cases feature <;> simp [Feature.IsSet, eagerShop, Backend.bare]
  obtain ⟨hstanding, hother⟩ :=
    a_feature_is_off_set_or_refused_once eagerShop Cluster.empty .empty [] hunset
  refine ⟨hunset, hstanding .basicAuth, hstanding .oauth, ?_, by decide, by decide, by decide, ?_⟩
  · have hset : run.value.1.cookie.isSome = true := by decide
    exact Option.isSome_iff_ne_none.mp hset
  · exact hother _ rfl fun feature => by cases feature <;> simp [Count.refusalOf]

end Ingress
