-- What an update changes and what it keeps. Every feature is written from the annotations and the
-- paths, which no update touches; only the weights and the userlists are read back. Main statement:
-- an update right behind the same update changes nothing.
import Ingress.Proofs.Balance
import Ingress.Proofs.UserAuth
import Ingress.Update

namespace Ingress

/-! ## Endpoints -/

/-- What an endpoint is apart from its weight. -/
def Endpoint.site (e : Endpoint) : String × Nat × Option String := (e.ip, e.port, e.targetRef)

theorem site_reweigh (e : Endpoint) (cluster : ClusterView) (groups : List BalanceGroup)
    (weights : List Nat) : (e.reweigh cluster groups weights).site = e.site := by
  unfold Endpoint.reweigh
  split <;> rfl

theorem map_site_balance (endpoints : List Endpoint) (expression mode : String)
    (cluster : ClusterView) (origin : Origin) :
    (balance endpoints expression mode cluster origin).value.map (·.site) =
      endpoints.map (·.site) := by
  rw [value_balance]
  split
  · rfl
  · cases weighing? endpoints expression mode cluster with
    | none => rfl
    | some read =>
      rw [List.map_map]
      exact List.map_congr_left fun e _ => site_reweigh e cluster read.1 read.2

/-! ## What is kept -/

/-- What stays of a backend `b` in what an update makes of it: all that identifies it, its endpoints
apart from their weights, and the allowed ranges of the other protocol. -/
structure Backend.Keeps (b b' : Backend) : Prop where
  id : b'.id = b.id
  paths : b'.paths = b.paths
  tcp : b'.tcp = b.tcp
  sites : b'.endpoints.map (·.site) = b.endpoints.map (·.site)
  httpRanges : b.tcp = true → b'.httpRanges = b.httpRanges
  tcpRanges : b.tcp = false → b'.tcpRanges = b.tcpRanges

namespace Draft

variable (d : Draft) (cluster : ClusterView) (routes : RouteTable) (lists : List Userlist)

/-- The endpoints under the balance that the annotations ask for, which is none if they ask for the
empty expression. -/
theorem value_endpoints :
    (d.endpoints cluster).value =
      (balance d.backend.endpoints (d.annotations.read Key.balance).value.value
        (d.annotations.read Key.balanceMode).value.value cluster
        (d.annotations.read Key.balance).value.origin).value := by
  unfold endpoints
  by_cases h : (d.annotations.read Key.balance).value.value = "" <;> simp [h, balance]

/-! ## One update -/

/-- The draft with its backend updated, as a later update finds it. -/
def updated : Draft := { d with backend := (d.update cluster routes lists).value.1 }

/-- The authentication that an update sets, if it sets one. -/
def authentication : Option BasicAuth :=
  (UserAuth.resolve d.annotations cluster d.backend.id.ns lists).value.1

/-- The userlists that an update leaves. -/
def listsAfter : List Userlist :=
  (UserAuth.resolve d.annotations cluster d.backend.id.ns lists).value.2

/-- The backend and the userlists behind an update, field by field. -/
theorem value_update :
    (d.update cluster routes lists).value =
      ({ d.backend with
        cookie := (SessionCookie.resolve d.annotations).value <|> d.backend.cookie
        basicAuth := d.authentication cluster lists <|> d.backend.basicAuth
        endpoints := (d.endpoints cluster).value
        hsts := (StrictTransport.resolve d.annotations d.backend.paths).value
        oauth := (ExternalAuth.resolve d.annotations routes d.backend.id.ns).value <|>
          d.backend.oauth
        rewriteTargets :=
          (RewriteTarget.resolve d.annotations d.backend.id d.backend.paths).value
        waf := (Firewall.resolve d.annotations).value.getD d.backend.waf
        httpRanges := d.httpRanges.value
        tcpRanges := d.tcpRanges.value }, d.listsAfter cluster lists) := rfl

theorem keeps_update : d.backend.Keeps (d.update cluster routes lists).value.1 where
  id := rfl
  paths := rfl
  tcp := rfl
  sites := by
    rw [value_update, value_endpoints]
    exact map_site_balance _ _ _ _ _
  httpRanges := by
    intro htcp
    rw [value_update, httpRanges, htcp]
    rfl
  tcpRanges := by
    intro htcp
    rw [value_update, tcpRanges, htcp]
    rfl

/-! ## Two updates -/

/-- A feature that was set is set again, and one that was not stays as it was. -/
theorem orElse_orElse_self {α : Type} (new old : Option α) :
    (new <|> (new <|> old)) = (new <|> old) := by cases new <;> rfl

theorem getD_getD_self {α : Type} (new : Option α) (old : α) :
    new.getD (new.getD old) = new.getD old := by cases new <;> rfl

theorem value_endpoints_updated :
    ((d.updated cluster routes lists).endpoints cluster).value = (d.endpoints cluster).value := by
  have hback : (d.updated cluster routes lists).backend.endpoints = (d.endpoints cluster).value :=
    rfl
  rw [value_endpoints (d.updated cluster routes lists), hback, value_endpoints d]
  exact balance_twice _ _ _ _ _ _

theorem value_httpRanges_updated :
    (d.updated cluster routes lists).httpRanges.value = d.httpRanges.value := by
  have hback : (d.updated cluster routes lists).backend.httpRanges = d.httpRanges.value := rfl
  have htcp : (d.updated cluster routes lists).backend.tcp = d.backend.tcp := rfl
  unfold httpRanges at hback ⊢
  rw [hback, htcp]
  cases d.backend.tcp <;> rfl

theorem value_tcpRanges_updated :
    (d.updated cluster routes lists).tcpRanges.value = d.tcpRanges.value := by
  have hback : (d.updated cluster routes lists).backend.tcpRanges = d.tcpRanges.value := rfl
  have htcp : (d.updated cluster routes lists).backend.tcp = d.backend.tcp := rfl
  unfold tcpRanges at hback ⊢
  rw [hback, htcp]
  cases d.backend.tcp <;> rfl

theorem resolve_listsAfter :
    (UserAuth.resolve d.annotations cluster d.backend.id.ns (d.listsAfter cluster lists)).value =
      (d.authentication cluster lists, d.listsAfter cluster lists) :=
  UserAuth.resolve_resolve d.annotations cluster d.backend.id.ns lists

theorem value_update_updated :
    ((d.updated cluster routes lists).update cluster routes
      (d.update cluster routes lists).value.2).value = (d.update cluster routes lists).value := by
  have hauth : (d.updated cluster routes lists).authentication cluster
      (d.listsAfter cluster lists) = d.authentication cluster lists :=
    congrArg (·.1) (d.resolve_listsAfter cluster lists)
  have hlists : (d.updated cluster routes lists).listsAfter cluster
      (d.listsAfter cluster lists) = d.listsAfter cluster lists :=
    congrArg (·.2) (d.resolve_listsAfter cluster lists)
  have hwritten : (d.updated cluster routes lists).backend =
      (d.update cluster routes lists).value.1 := rfl
  have hsame : (d.updated cluster routes lists).annotations = d.annotations := rfl
  rw [value_update (d.updated cluster routes lists)]
  simp only [value_update d, hwritten, hsame, hauth, hlists, value_endpoints_updated,
    value_httpRanges_updated, value_tcpRanges_updated, orElse_orElse_self, getD_getD_self]

/-! ## The law -/

/-- An update behind the same update changes neither the backend nor the userlists, and no update
changes more of a backend than its configuration and the weights of its endpoints. -/
theorem a_second_update_changes_nothing :
    ((d.updated cluster routes lists).update cluster routes
      (d.update cluster routes lists).value.2).value = (d.update cluster routes lists).value ∧
      d.backend.Keeps (d.update cluster routes lists).value.1 :=
  ⟨d.value_update_updated cluster routes lists, d.keeps_update cluster routes lists⟩

end Draft

end Ingress
