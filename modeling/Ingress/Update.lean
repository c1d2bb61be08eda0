-- The update of a backend's configuration from its annotations. No annotation makes an update fail:
-- what cannot be used is told, and its feature is left as it was or gets its default.
import Ingress.Balance.Apply
import Ingress.Feature.AllowedRanges
import Ingress.Feature.ExternalAuth
import Ingress.Feature.Firewall
import Ingress.Feature.RewriteTarget
import Ingress.Feature.SessionCookie
import Ingress.Feature.StrictTransport
import Ingress.Feature.UserAuth

namespace Ingress

/-- A backend and the annotations declared for it. -/
structure Draft where
  backend : Backend
  annotations : Annotations

namespace Draft

/-- The endpoints of the backend with the weights that its annotations give them. -/
def endpoints (d : Draft) (cluster : ClusterView) : Logged (List Endpoint) := do
  let expression ← d.annotations.read Key.balance
  if expression.value = "" then return d.backend.endpoints
  else
    let mode ← d.annotations.read Key.balanceMode
    balance d.backend.endpoints expression.value mode.value cluster expression.origin

/-- The groups of paths by allowed ranges. Only a backend for HTTP gets new ones. -/
def httpRanges (d : Draft) : Logged (List (PathGroup (List String))) :=
  if d.backend.tcp then pure d.backend.httpRanges
  else AllowedRanges.resolveHttp d.annotations d.backend.paths

/-- The allowed ranges of the whole backend. Only a backend for TCP gets new ones. -/
def tcpRanges (d : Draft) : Logged (List String) :=
  if d.backend.tcp then AllowedRanges.resolveTcp d.annotations
  else pure d.backend.tcpRanges

/-- The backend with its configuration updated, and the userlists with its own. A feature that is
off or refused stays as it was. -/
def update (d : Draft) (cluster : ClusterView) (routes : RouteTable) (lists : List Userlist) :
    Logged (Backend × List Userlist) := do
  let a := d.annotations
  let b := d.backend
  let cookie ← SessionCookie.resolve a
  let (basicAuth, lists) ← UserAuth.resolve a cluster b.id.ns lists
  let endpoints ← d.endpoints cluster
  let hsts ← StrictTransport.resolve a b.paths
  let oauth ← ExternalAuth.resolve a routes b.id.ns
  let rewriteTargets ← RewriteTarget.resolve a b.id b.paths
  let waf ← Firewall.resolve a
  let httpRanges ← d.httpRanges
  let tcpRanges ← d.tcpRanges
  return ({ b with
    cookie := cookie <|> b.cookie
    basicAuth := basicAuth <|> b.basicAuth
    endpoints := endpoints
    hsts := hsts
    oauth := oauth <|> b.oauth
    rewriteTargets := rewriteTargets
    waf := waf.getD b.waf
    httpRanges := httpRanges
    tcpRanges := tcpRanges }, lists)

end Draft

end Ingress
