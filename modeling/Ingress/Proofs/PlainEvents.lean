-- Steps whose events are about a single value. Such an event neither refuses a feature nor is a
-- conflict between resources. Main statements: resolving an annotation on each path tells nothing
-- else, and neither does a balance.
import Ingress.Proofs.Reading
import Ingress.Proofs.Remarks
import Ingress.Update

namespace Ingress

/-- Whether an event is a conflict between the resources that declare an annotation. -/
def Event.isConflict : Event → Bool
  | .conflict .. => true
  | _ => false

/-- An event that neither refuses a feature nor is a conflict. -/
structure Event.Plain (e : Event) : Prop where
  refuses : e.rejected? = none
  agrees : e.isConflict = false

/-- A step that tells nothing but plain events. -/
def Logged.Plain {α : Type} (x : Logged α) : Prop := ∀ e ∈ x.events, e.Plain

/-! ## Steps -/

namespace Logged.Plain

variable {α β : Type}

theorem pure (a : α) : (Pure.pure a : Logged α).Plain := by
  intro e he
  cases he

theorem bind {x : Logged α} {f : α → Logged β} (hx : x.Plain) (hf : (f x.value).Plain) :
    (x >>= f).Plain := by
  intro e he
  rcases List.mem_append.mp he with hfirst | hrest
  · exact hx e hfirst
  · exact hf e hrest

theorem tell {e : Event} (h : e.Plain) : (Logged.tell e).Plain := by
  intro e' he'
  rw [List.mem_singleton.mp he']
  exact h

theorem tellAll {es : List Event} (h : ∀ e ∈ es, e.Plain) : (Logged.tellAll es).Plain := h

theorem mapM {f : α → Logged β} (h : ∀ a, (f a).Plain) (as : List α) : (as.mapM f).Plain := by
  intro e he
  rw [events_mapM] at he
  obtain ⟨a, -, ha⟩ := List.mem_flatMap.mp he
  exact h a e ha

end Logged.Plain

open Logged

/-! ## Values on paths -/

section Paths

variable (a : Annotations)

theorem plain_check (key : String) (source : ResourceId) (value : String) :
    (a.check key source value).Plain := by
  intro e he
  obtain ⟨kind, rfl⟩ := a.mem_events_check key he
  exact ⟨rfl, rfl⟩

theorem plain_resolve (key : String) (path : RoutePath) : (a.resolve key path).Plain := by
  intro e he
  obtain ⟨kind, source, value, rfl⟩ := a.mem_events_resolve key he
  exact ⟨rfl, rfl⟩

theorem plain_resolveAll (keys : List String) (path : RoutePath) :
    (a.resolveAll keys path).Plain := by
  apply Plain.bind
  · apply Plain.mapM
    intro key
    exact .bind (plain_resolve a key path) (.pure _)
  · exact .pure _

theorem plain_groupBy {α : Type} [DecidableEq α] {resolve : RoutePath → Logged α}
    (h : ∀ p, (resolve p).Plain) (paths : PathSet) : (paths.groupBy resolve).Plain := by
  apply Plain.bind
  · apply Plain.mapM
    intro p
    exact .bind (h p) (.pure _)
  · exact .pure _

theorem plain_groupWith {α : Type} [DecidableEq α] (paths : PathSet) (keys : List String)
    (convert : Table String → α) : (a.groupWith paths keys convert).Plain := by
  apply plain_groupBy
  intro p
  exact .bind (plain_resolveAll a keys p) (.pure _)

theorem plain_strictTransport (paths : PathSet) : (StrictTransport.resolve a paths).Plain :=
  plain_groupWith a paths _ _

theorem plain_rewriteTarget (id : BackendId) (paths : PathSet) :
    (RewriteTarget.resolve a id paths).Plain := by
  apply Plain.bind (plain_groupBy (plain_resolve a Key.rewriteTarget) paths)
  apply Plain.bind
  · apply Plain.tellAll
    intro e he
    obtain ⟨g, -, rfl⟩ := List.mem_map.mp he
    exact ⟨rfl, rfl⟩
  · exact .pure _

theorem plain_httpRanges (d : Draft) : d.httpRanges.Plain := by
  unfold Draft.httpRanges
  split
  · exact .pure _
  · exact plain_groupWith d.annotations d.backend.paths _ _

end Paths

/-! ## Balances -/

theorem Event.IsRemark.plain {e : Event} (h : e.IsRemark) : e.Plain := by
  rcases h with h | _
  · cases h <;> exact ⟨rfl, rfl⟩
  · exact ⟨rfl, rfl⟩

theorem plain_balance (endpoints : List Endpoint) (expression mode : String)
    (cluster : ClusterView) (origin : Origin) :
    (balance endpoints expression mode cluster origin).Plain := by
  intro e he
  rcases remark_or_refusal he with hremark | ⟨error, rfl⟩
  · exact hremark.plain
  · exact ⟨rfl, rfl⟩

/-! ## Details of features -/

theorem plain_strategy (r : Reading) : (SessionCookie.strategy r).Plain := by
  unfold SessionCookie.strategy
  split
  · exact .pure _
  · split
    · exact .pure _
    · exact .bind (.tell ⟨rfl, rfl⟩) (.pure _)

theorem plain_realm (r : Reading) : (UserAuth.realm r).Plain := by
  unfold UserAuth.realm
  split
  · exact .bind (.tell ⟨rfl, rfl⟩) (.pure _)
  · exact .pure _

theorem plain_userlistEvents {secret : String} {origin : Origin} {content : List UInt8} {e : Event}
    (he : e ∈ UserAuth.userlistEvents secret origin content) : e.Plain := by
  rcases List.mem_append.mp he with hfault | hempty
  · obtain ⟨fault, -, rfl⟩ := List.mem_map.mp hfault
    exact ⟨rfl, rfl⟩
  · split at hempty
    · rw [List.mem_singleton.mp hempty]
      exact ⟨rfl, rfl⟩
    · cases hempty

theorem plain_headerEvents {origin : Origin} {s : String} {e : Event}
    (he : e ∈ ExternalAuth.headerEvents origin s) : e.Plain := by
  obtain ⟨entry, -, rfl⟩ := List.mem_map.mp he
  exact ⟨rfl, rfl⟩

theorem plain_invalidEvents {origin : Origin} {s : String} {e : Event}
    (he : e ∈ AllowedRanges.invalidEvents origin s) : e.Plain := by
  obtain ⟨entry, -, rfl⟩ := List.mem_map.mp he
  exact ⟨rfl, rfl⟩

end Ingress
