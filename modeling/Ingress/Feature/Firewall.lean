-- The web application firewall in front of a backend.
import Ingress.Annotations

namespace Ingress.Firewall

/-- The only firewall that is known. -/
def modsecurity : String := "modsecurity"

/-- The firewall of a backend, if it names the one that is known. -/
def resolve (a : Annotations) : Logged (Option String) := do
  let kind ← a.read Key.waf
  if kind.value = "" then return none
  else if kind.value ≠ modsecurity then
    Logged.tell (.unsupportedWaf kind.origin kind.value)
    return none
  else return some modsecurity

end Ingress.Firewall
