-- Strict transport security, resolved on each path.
import Ingress.Annotations

namespace Ingress.StrictTransport

/-- The annotations that make up strict transport security. -/
def keys : List String :=
  [Key.hsts, Key.hstsMaxAge, Key.hstsSubdomains, Key.hstsPreload]

/-- The security that the values of annotations describe. A text that is no literal counts as false
or 0. -/
def ofValues (values : Table String) : Hsts :=
  let reading := fun key => (⟨(values.find? key).getD "", none⟩ : Reading)
  { enabled := (reading Key.hsts).toBool
    maxAge := (reading Key.hstsMaxAge).toInt
    subdomains := (reading Key.hstsSubdomains).toBool
    preload := (reading Key.hstsPreload).toBool }

/-- The groups of paths by their security. -/
def resolve (a : Annotations) (paths : PathSet) : Logged (List (PathGroup Hsts)) :=
  a.groupWith paths keys ofValues

end Ingress.StrictTransport
