-- The annotations that configure a backend, by the keys they have behind the prefix of the
-- controller, and the selection of the keys that carry this prefix.
import Ingress.Table
import Ingress.Text.Split

namespace Ingress

/-! ## Keys -/

namespace Key

def affinity : String := "affinity"

def cookieName : String := "session-cookie-name"

def cookieStrategy : String := "session-cookie-strategy"

def cookieDynamic : String := "session-cookie-dynamic"

def authType : String := "auth-type"

def authSecret : String := "auth-secret"

def authRealm : String := "auth-realm"

def balance : String := "blue-green-balance"

def balanceMode : String := "blue-green-mode"

def hsts : String := "hsts"

def hstsMaxAge : String := "hsts-max-age"

def hstsSubdomains : String := "hsts-include-subdomains"

def hstsPreload : String := "hsts-preload"

def oauth : String := "oauth"

def oauthUri : String := "oauth-uri-prefix"

def oauthHeaders : String := "oauth-headers"

def rewriteTarget : String := "rewrite-target"

def waf : String := "waf"

def sourceRange : String := "whitelist-source-range"

end Key

/-! ## The prefix of the controller -/

/-- A prefix without the slashes at its end. -/
def stem (keyPrefix : String) : List Char :=
  (keyPrefix.toList.reverse.dropWhile (· = '/')).reverse

/-- The key of an annotation behind a prefix and a slash, unless it is empty. Every key is behind
the empty prefix. -/
def ownKey? (keyPrefix key : String) : Option String :=
  let start := if stem keyPrefix = [] then [] else stem keyPrefix ++ ['/']
  match Text.behind? start key.toList with
  | none => none
  | some [] => none
  | some own => some (String.ofList own)

/-- The annotations that carry a prefix, by the keys behind it. -/
def ownAnnotations (keyPrefix : String) (raw : Table String) : Table String :=
  Table.ofList <| raw.entries.filterMap fun (key, value) =>
    (ownKey? keyPrefix key).map fun own => (own, value)

end Ingress
