-- The declarations of annotations for one backend. The first declaration of a key at a scope
-- stands, later ones of the same key at the same scope are dropped, and no declaration is lost.
import Ingress.ResourceId
import Ingress.Table

namespace Ingress

/-- A value that a resource declares for an annotation at a scope, the hostpath it routes. -/
structure Declaration where
  key : String
  source : ResourceId
  scope : String
  value : String
deriving DecidableEq

/-- Declarations in the order in which they came, one for each key and scope. -/
structure Declarations where
  log : List Declaration
  once : log.Pairwise fun a b => ¬(a.key = b.key ∧ a.scope = b.scope)

namespace Declarations

/-- Before anything is declared. -/
def empty : Declarations := ⟨[], .nil⟩

/-- Whether a key is declared at a scope. -/
def declares (d : Declarations) (key scope : String) : Bool :=
  d.log.any fun e => e.key = key && e.scope = scope

/-- The declarations with one more, unless its key is declared at its scope already. -/
def add (d : Declarations) (e : Declaration) : Declarations :=
  if h : d.declares e.key e.scope = true then d
  else
    ⟨d.log ++ [e], List.pairwise_append.mpr ⟨d.once, List.pairwise_singleton _ _, by
      intro a ha b hb hab
      rw [List.mem_singleton.mp hb] at hab
      exact h (List.any_eq_true.mpr ⟨a, ha, by simp [hab.1, hab.2]⟩)⟩⟩

/-- Adds a declaration and says whether it stands. It does unless its key is declared at its scope
already. -/
def tryAdd (d : Declarations) (e : Declaration) : Declarations × Bool :=
  if d.declares e.key e.scope then (d, false) else (d.add e, true)

/-- The declarations with annotations of a resource added at a scope, one after the other. -/
def addEach (d : Declarations) (source : ResourceId) (scope : String)
    (annotations : List (String × String)) : Declarations :=
  annotations.foldl (fun d (key, value) => (d.tryAdd ⟨key, source, scope, value⟩).1) d

/-- The declarations with all annotations of a resource added at a scope, by key. -/
def addAll (d : Declarations) (source : ResourceId) (scope : String)
    (annotations : Table String) : Declarations :=
  d.addEach source scope annotations.entries

/-- The declarations of a key, in the order in which they came. -/
def ofKey (d : Declarations) (key : String) : List Declaration := d.log.filter (·.key = key)

/-- The declarations of a key, if there are any. -/
def map? (d : Declarations) (key : String) : Option (List Declaration) :=
  if d.ofKey key = [] then none else some (d.ofKey key)

/-- The declaration of a key at a scope. -/
def at? (d : Declarations) (key scope : String) : Option Declaration :=
  (d.ofKey key).find? (·.scope = scope)

/-- The first declaration of a key, which decides its value. -/
def canonical? (d : Declarations) (key : String) : Option Declaration := (d.ofKey key).head?

/-- The sources of later declarations of a key with another value than the first, each once. -/
def overridden (d : Declarations) (key : String) : List ResourceId :=
  match d.ofKey key with
  | [] => []
  | first :: rest => ((rest.filter (·.value ≠ first.value)).map (·.source)).eraseDups

theorem log_add (d : Declarations) (e : Declaration) :
    (d.add e).log = if d.declares e.key e.scope then d.log else d.log ++ [e] := by
  unfold add
  split <;> simp [*]

theorem fst_tryAdd (d : Declarations) (e : Declaration) : (d.tryAdd e).1 = d.add e := by
  unfold tryAdd add
  split <;> simp [*]

theorem addEach_eq_foldl_add (d : Declarations) (source : ResourceId) (scope : String)
    (annotations : List (String × String)) :
    d.addEach source scope annotations =
      (annotations.map fun (key, value) => ⟨key, source, scope, value⟩).foldl add d := by
  rw [addEach, List.foldl_map]
  simp only [fst_tryAdd]

/-- A declaration comes behind the earlier ones of its key, unless it is dropped. -/
theorem ofKey_add (d : Declarations) (e : Declaration) (key : String) :
    (d.add e).ofKey key =
      if e.key = key ∧ d.declares e.key e.scope = false then d.ofKey key ++ [e]
      else d.ofKey key := by
  unfold ofKey
  rw [log_add]
  cases hd : d.declares e.key e.scope with
  | true => simp
  | false => by_cases hk : e.key = key <;> simp [hk, List.filter_append]

end Declarations

end Ingress
