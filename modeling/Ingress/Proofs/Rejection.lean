-- How often an update refuses a feature. Reading annotations refuses nothing, and a feature is
-- refused in its own step alone. Main statement: an update refuses basic authentication once if it
-- is asked for and cannot be set, and never otherwise.
import Ingress.Proofs.PlainEvents
import Ingress.Proofs.Topic
import Ingress.Proofs.Update

namespace Ingress

variable {feature : Feature}

/-! ## Counting -/

namespace Logged

variable {α β : Type}

/-- How often a feature is refused in a step. -/
def rejections (feature : Feature) (x : Logged α) : Nat :=
  x.events.countP (·.rejected? = some feature)

@[simp]
theorem rejections_pure (a : α) : (pure a : Logged α).rejections feature = 0 := rfl

@[simp]
theorem rejections_bind (x : Logged α) (f : α → Logged β) :
    (x >>= f).rejections feature = x.rejections feature + (f x.value).rejections feature := by
  unfold rejections
  rw [events_bind, List.countP_append]

@[simp]
theorem rejections_map (f : α → β) (x : Logged α) :
    (f <$> x).rejections feature = x.rejections feature := by
  unfold rejections
  rw [events_map]

@[simp]
theorem rejections_tell (e : Event) :
    (tell e).rejections feature = if e.rejected? = some feature then 1 else 0 := by
  unfold rejections
  rw [events_tell, List.countP_singleton]
  simp only [decide_eq_true_eq]

theorem rejections_of_plain {x : Logged α} (h : x.Plain) : x.rejections feature = 0 := by
  unfold rejections
  rw [List.countP_eq_zero]
  intro e he
  simp [(h e he).refuses]

end Logged

open Logged

/-! ## Steps -/

/-- The topic of a feature, which every event that refuses the feature is about. -/
def Feature.topic : Feature → Topic
  | .affinity => .cookie
  | .basicAuth => .basicAuth
  | .oauth => .oauth
  | .waf => .firewall

theorem topic_of_rejected? {e : Event} (h : e.rejected? = some feature) :
    e.topic = feature.topic := by
  cases e <;> cases h <;> rfl

theorem Feature.topic_ne_declaration (feature : Feature) : feature.topic ≠ .declaration := by
  cases feature <;> decide

/-- A feature is refused in an update as often as in the step that is about it. -/
theorem Draft.rejections_update (d : Draft) (cluster : ClusterView) (routes : RouteTable)
    (lists : List Userlist) : (d.update cluster routes lists).rejections feature =
      (d.eventsOf cluster routes lists feature.topic).countP (·.rejected? = some feature) := by
  have hown : ∀ events : List Event, events.countP (·.rejected? = some feature) =
      (events.filter (·.topic = feature.topic)).countP (·.rejected? = some feature) := by
    intro events
    rw [List.countP_filter]
    refine List.countP_congr fun e _ => ?_
    simpa using topic_of_rejected?
  rw [rejections, hown, d.filter_events_update cluster routes lists feature.topic_ne_declaration,
    ← hown]

/-- Nothing is refused where only declarations are told of. -/
theorem Logged.About.rejections_eq_zero {α : Type} {x : Logged α} (h : x.About .declaration) :
    x.rejections feature = 0 := by
  unfold rejections
  rw [List.countP_eq_zero]
  intro e he hrefused
  have htopic : e.topic = .declaration := (h e he).elim id id
  rw [topic_of_rejected? (of_decide_eq_true hrefused)] at htopic
  exact feature.topic_ne_declaration htopic

@[simp]
theorem Annotations.rejections_read (a : Annotations) (key : String) :
    (a.read key).rejections feature = 0 :=
  About.rejections_eq_zero (.read a key)

@[simp]
theorem Annotations.rejections_readBool (a : Annotations) (key : String) :
    (a.readBool key).rejections feature = 0 :=
  (about_readBool a key).rejections_eq_zero

/-! ## Basic authentication -/

namespace UserAuth

/-- Registering a secret is refused if its name is new and it cannot be read. -/
theorem rejections_register (cluster : ClusterView) (origin : Origin) (secret : String)
    (lists : List Userlist) :
    (register cluster origin secret lists).rejections .basicAuth =
      if (registered cluster secret lists).isSome then 0 else 1 := by
  have hlist : ∀ content,
      (tellAll (userlistEvents secret origin content)).rejections .basicAuth = 0 :=
    fun content => rejections_of_plain fun e => plain_userlistEvents
  unfold register registered users?
  split
  · rfl
  · cases cluster.secret secret usersKey with
    | error error => simp [Event.rejected?, Except.toOption]
    | ok content => simp [hlist, Except.toOption]

theorem rejections_authenticate (a : Annotations) (cluster : ClusterView) (ns : String)
    (origin : Origin) (secret : Reading) (lists : List Userlist) :
    (authenticate a cluster ns origin secret lists).rejections .basicAuth =
      if (registered cluster (qualified ((secret.origin.map (·.ns)).getD ns) secret.value)
        lists).isSome then 0 else 1 := by
  unfold authenticate
  simp only [rejections_bind, rejections_register, value_register]
  cases registered cluster _ lists <;> simp [rejections_of_plain (plain_realm _)]

theorem rejections_resolve (a : Annotations) (cluster : ClusterView) (ns : String)
    (lists : List Userlist) :
    (resolve a cluster ns lists).rejections .basicAuth =
      if (a.read Key.authType).value.value = "" ∨ (resolve a cluster ns lists).value.1.isSome
      then 0 else 1 := by
  rw [value_resolve]
  unfold resolve secretName?
  simp only [rejections_bind, Annotations.rejections_read, Nat.zero_add]
  -- Off, of another kind, without a secret, or against a secret.
  by_cases hoff : (a.read Key.authType).value.value = ""
  · simp [hoff]
  · by_cases hkind : (a.read Key.authType).value.value = "basic"
    · by_cases hsecret : (a.read Key.authSecret).value.value = ""
      · simp [hkind, hsecret, Event.rejected?]
      · simp [hkind, hsecret, rejections_authenticate]
    · simp [hoff, hkind, Event.rejected?]

end UserAuth

/-- An update refuses basic authentication if it is asked for and not set, and then once. -/
theorem Draft.rejections_basicAuth (d : Draft) (cluster : ClusterView) (routes : RouteTable)
    (lists : List Userlist) :
    (d.update cluster routes lists).rejections .basicAuth =
      if (d.annotations.read Key.authType).value.value = "" ∨
        (d.authentication cluster lists).isSome then 0 else 1 := by
  rw [rejections_update]
  exact UserAuth.rejections_resolve d.annotations cluster d.backend.id.ns lists

end Ingress
