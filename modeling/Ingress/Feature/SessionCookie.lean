-- Session affinity by a cookie of the proxy.
import Ingress.Annotations

namespace Ingress.SessionCookie

/-- The name of a cookie to which no annotation gives one. -/
def defaultName : String := "INGRESSCOOKIE"

/-- The strategy an annotation names. The empty name and an unknown one stand for insertion. -/
def strategy (r : Reading) : Logged CookieStrategy :=
  if r.value = "" then pure .inserted
  else match CookieStrategy.ofName? r.value with
    | some strategy => pure strategy
    | none => do
      Logged.tell (.unknownCookieStrategy r.origin r.value)
      return .inserted

/-- The session cookie of a backend, if its affinity is by cookie. -/
def resolve (a : Annotations) : Logged (Option Cookie) := do
  let affinity ← a.read Key.affinity
  if affinity.value = "" then return none
  else if affinity.value ≠ "cookie" then
    Logged.tell (.unsupportedAffinity affinity.origin affinity.value)
    return none
  else
    let name ← a.read Key.cookieName
    let strategy ← strategy (← a.read Key.cookieStrategy)
    let dynamic ← a.readBool Key.cookieDynamic
    return some ⟨name.orElse defaultName, strategy, dynamic⟩

end Ingress.SessionCookie
