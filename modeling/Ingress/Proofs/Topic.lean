-- Which step of an update tells what. An event is about the declarations of a key or about one
-- feature. Main statement: each step of an update tells of declarations and of its own feature
-- only, so the events about a feature are those of its step.
import Ingress.Proofs.Reading
import Ingress.Proofs.Remarks
import Ingress.Update

namespace Ingress

/-- What an event is about. -/
inductive Topic where
  | backend
  | declaration
  | cookie
  | basicAuth
  | balance
  | oauth
  | rewriteTarget
  | firewall
  | ranges
deriving DecidableEq

/-- The topic of an event. -/
def Event.topic : Event → Topic
  | updating .. => .backend
  | conflict .. => .declaration
  | invalidValue .. => .declaration
  | unsupportedAffinity .. => .cookie
  | unknownCookieStrategy .. => .cookie
  | unsupportedAuth .. => .basicAuth
  | missingAuthSecret .. => .basicAuth
  | unreadableAuthSecret .. => .basicAuth
  | malformedUser .. => .basicAuth
  | emptyUserlist .. => .basicAuth
  | quotedRealm .. => .basicAuth
  | rejectedBalance .. => .balance
  | clampedWeight .. => .balance
  | unsupportedBalanceMode .. => .balance
  | removedEndpoint .. => .balance
  | unmatchedGroup .. => .balance
  | unsupportedOAuth .. => .oauth
  | unknownOAuthPath .. => .oauth
  | invalidHeader .. => .oauth
  | unsafeRewriteTarget .. => .rewriteTarget
  | unsupportedWaf .. => .firewall
  | invalidRange .. => .ranges

/-- A step that tells of declarations and of one topic only. -/
def Logged.About (topic : Topic) {α : Type} (x : Logged α) : Prop :=
  ∀ e ∈ x.events, e.topic = .declaration ∨ e.topic = topic

namespace Logged.About

variable {topic : Topic} {α β : Type} {x : Logged α} {f : α → Logged β}

theorem pure (a : α) : (Pure.pure a : Logged α).About topic := by
  intro e he
  cases he

theorem bind (hx : x.About topic) (hf : (f x.value).About topic) : (x >>= f).About topic := by
  intro e he
  rcases List.mem_append.mp he with hfirst | hrest
  · exact hx e hfirst
  · exact hf e hrest

theorem tell {e : Event} (h : e.topic = topic) : (Logged.tell e).About topic := by
  intro e' he'
  rw [List.mem_singleton.mp he']
  exact .inr h

theorem tellAll {es : List Event} (h : ∀ e ∈ es, e.topic = topic) :
    (Logged.tellAll es).About topic :=
  fun e he => .inr (h e he)

theorem read (a : Annotations) (key : String) : (a.read key).About topic := by
  unfold Annotations.read
  split
  · exact .pure _
  · dsimp only
    split
    · intro e he
      rw [List.mem_singleton.mp he]
      exact .inl rfl
    · exact .pure _

/-- Nothing about another topic is told, unless that is declarations. -/
theorem filter_eq_nil {other : Topic} (h : x.About topic) (hdeclaration : other ≠ .declaration)
    (hother : topic ≠ other) : x.events.filter (·.topic = other) = [] := by
  rw [List.filter_eq_nil_iff]
  intro e he
  rw [decide_eq_true_eq]
  rcases h e he with heq | heq
  · rw [heq]
    exact hdeclaration.symm
  · rw [heq]
    exact hother

end Logged.About

open Logged

/-! ## Steps on each path -/

section Paths

variable {topic : Topic} (a : Annotations)

theorem about_of_invalidValues {α : Type} {x : Logged α}
    (h : ∀ e ∈ x.events, ∃ kind key source value, e = .invalidValue key kind source value) :
    x.About topic := by
  intro e he
  obtain ⟨kind, key, source, value, rfl⟩ := h e he
  exact .inl rfl

theorem about_readBool (key : String) : (a.readBool key).About topic := by
  unfold Annotations.readBool Annotations.readChecked
  refine .bind ?_ (.pure _)
  apply About.bind (.read a key)
  split
  · exact .pure _
  · apply About.bind
    · apply about_of_invalidValues
      intro e he
      obtain ⟨kind, rfl⟩ := a.mem_events_check key he
      exact ⟨kind, key, _, _, rfl⟩
    · split <;> exact .pure _

theorem about_group (paths : PathSet) (key : String) : (a.group paths key).About topic := by
  apply about_of_invalidValues
  intro e he
  obtain ⟨kind, source, value, rfl⟩ := a.mem_events_group key he
  exact ⟨kind, key, source, value, rfl⟩

theorem about_groupWith {α : Type} [DecidableEq α] (paths : PathSet) (keys : List String)
    (convert : Table String → α) : (a.groupWith paths keys convert).About topic := by
  apply about_of_invalidValues
  intro e he
  rw [a.events_groupWith] at he
  obtain ⟨p, -, hp⟩ := List.mem_flatMap.mp he
  obtain ⟨key, -, hkey⟩ := List.mem_flatMap.mp hp
  obtain ⟨kind, source, value, rfl⟩ := a.mem_events_resolve key hkey
  exact ⟨kind, key, source, value, rfl⟩

end Paths

/-! ## Features -/

section Features

variable (a : Annotations)

theorem about_sessionCookie : (SessionCookie.resolve a).About .cookie := by
  apply About.bind (.read a _)
  split
  · exact .pure _
  · split
    · exact .bind (.tell rfl) (.pure _)
    · apply About.bind (.read a _)
      apply About.bind (.read a _)
      apply About.bind
      · unfold SessionCookie.strategy
        split
        · exact .pure _
        · split
          · exact .pure _
          · exact .bind (.tell rfl) (.pure _)
      · exact .bind (about_readBool a _) (.pure _)

theorem topic_of_mem_userlistEvents {secret : String} {origin : Origin} {content : List UInt8}
    {e : Event} (he : e ∈ UserAuth.userlistEvents secret origin content) :
    e.topic = .basicAuth := by
  rcases List.mem_append.mp he with hfault | hempty
  · obtain ⟨fault, -, rfl⟩ := List.mem_map.mp hfault
    rfl
  · split at hempty
    · rw [List.mem_singleton.mp hempty]
      rfl
    · cases hempty

theorem about_register (cluster : ClusterView) (origin : Origin) (secret : String)
    (lists : List Userlist) : (UserAuth.register cluster origin secret lists).About .basicAuth := by
  unfold UserAuth.register
  split
  · exact .pure _
  · split
    · exact .bind (.tell rfl) (.pure _)
    · exact .bind (.tellAll fun e he => topic_of_mem_userlistEvents he) (.pure _)

theorem about_userAuth (cluster : ClusterView) (ns : String) (lists : List Userlist) :
    (UserAuth.resolve a cluster ns lists).About .basicAuth := by
  apply About.bind (.read a _)
  split
  · exact .pure _
  · split
    · exact .bind (.tell rfl) (.pure _)
    · apply About.bind (.read a _)
      split
      · exact .bind (.tell rfl) (.pure _)
      · apply About.bind (about_register cluster _ _ lists)
        split
        · exact .pure _
        · apply About.bind (.read a _)
          refine .bind ?_ (.pure _)
          unfold UserAuth.realm
          split
          · exact .bind (.tell rfl) (.pure _)
          · exact .pure _

theorem about_externalAuth (routes : RouteTable) (ns : String) :
    (ExternalAuth.resolve a routes ns).About .oauth := by
  apply About.bind (.read a _)
  split
  · exact .pure _
  · split
    · exact .bind (.tell rfl) (.pure _)
    · apply About.bind (.read a _)
      unfold ExternalAuth.viaProxy
      dsimp only
      split
      · exact .bind (.tell rfl) (.pure _)
      · apply About.bind (.read a _)
        refine .bind ?_ (.pure _)
        apply About.tellAll
        intro e he
        obtain ⟨entry, -, rfl⟩ := List.mem_map.mp he
        rfl

theorem about_rewriteTarget (id : BackendId) (paths : PathSet) :
    (RewriteTarget.resolve a id paths).About .rewriteTarget := by
  apply About.bind (about_group a paths _)
  refine .bind ?_ (.pure _)
  apply About.tellAll
  intro e he
  obtain ⟨group, -, rfl⟩ := List.mem_map.mp he
  rfl

theorem about_strictTransport (paths : PathSet) :
    (StrictTransport.resolve a paths).About .declaration :=
  about_groupWith a paths _ _

theorem about_firewall : (Firewall.resolve a).About .firewall := by
  apply About.bind (.read a _)
  split
  · exact .pure _
  · split
    · exact .bind (.tell rfl) (.pure _)
    · exact .pure _

end Features

namespace Draft

variable (d : Draft) (cluster : ClusterView) (routes : RouteTable) (lists : List Userlist)

theorem about_endpoints : (d.endpoints cluster).About .balance := by
  apply About.bind (.read _ _)
  split
  · exact .pure _
  · apply About.bind (.read _ _)
    intro e he
    rcases remark_or_refusal he with (hnote | _) | ⟨error, rfl⟩
    · cases hnote <;> exact .inr rfl
    · exact .inr rfl
    · exact .inr rfl

theorem about_httpRanges : d.httpRanges.About .declaration := by
  unfold httpRanges
  split
  · exact .pure _
  · exact about_groupWith _ _ _ _

theorem about_tcpRanges : d.tcpRanges.About .ranges := by
  unfold tcpRanges
  split
  · apply About.bind (.read _ _)
    refine .bind ?_ (.pure _)
    apply About.tellAll
    intro e he
    obtain ⟨entry, -, rfl⟩ := List.mem_map.mp he
    rfl
  · exact .pure _

/-! ## The law -/

/-- The events of the step of an update that is about a topic. Conflicts and values of the wrong
kind have no step of their own. -/
def eventsOf : Topic → List Event
  | .backend => []
  | .declaration => []
  | .cookie => (SessionCookie.resolve d.annotations).events
  | .basicAuth => (UserAuth.resolve d.annotations cluster d.backend.id.ns lists).events
  | .balance => (d.endpoints cluster).events
  | .oauth => (ExternalAuth.resolve d.annotations routes d.backend.id.ns).events
  | .rewriteTarget =>
    (RewriteTarget.resolve d.annotations d.backend.id d.backend.paths).events
  | .firewall => (Firewall.resolve d.annotations).events
  | .ranges => d.tcpRanges.events

/-- What an update tells about a topic is what its step tells about it. -/
theorem filter_events_update {topic : Topic} (htopic : topic ≠ .declaration) :
    (d.update cluster routes lists).events.filter (·.topic = topic) =
      (d.eventsOf cluster routes lists topic).filter (·.topic = topic) := by
  have hcookie := (about_sessionCookie d.annotations).filter_eq_nil htopic
  have hauth := (about_userAuth d.annotations cluster d.backend.id.ns lists).filter_eq_nil htopic
  have hbalance := (d.about_endpoints cluster).filter_eq_nil htopic
  have hoauth := (about_externalAuth d.annotations routes d.backend.id.ns).filter_eq_nil htopic
  have htarget := (about_rewriteTarget d.annotations d.backend.id d.backend.paths).filter_eq_nil
    htopic
  have hwaf := (about_firewall d.annotations).filter_eq_nil htopic
  have hranges := d.about_tcpRanges.filter_eq_nil htopic
  -- what is resolved on paths tells of declarations only
  have hhsts := (about_strictTransport d.annotations d.backend.paths).filter_eq_nil htopic
    htopic.symm
  have hhttp := d.about_httpRanges.filter_eq_nil htopic htopic.symm
  unfold update
  simp only [Logged.events_bind, Logged.events_pure, List.filter_append, List.append_nil, hhsts,
    hhttp]
  cases topic <;> simp [eventsOf, hcookie, hauth, hbalance, hoauth, htarget, hwaf, hranges]

end Draft

end Ingress
