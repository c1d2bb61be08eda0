-- What any sequence of calls declares. Main statement: each key has a log of its own, in which the
-- first declaration at a scope stands, and no reader sees more than these logs.
import Ingress.Annotations
import Ingress.Proofs.Declarations

namespace Ingress

namespace Declarations

/-! ## Calls -/

/-- A call that declares annotations, one by itself or those of a resource at a scope. -/
inductive Call where
  | one (e : Declaration)
  | each (source : ResourceId) (scope : String) (annotations : List (String × String))

/-- What a call declares, in its order. -/
def Call.declares : Call → List Declaration
  | .one e => [e]
  | .each source scope annotations =>
    annotations.map fun (key, value) => ⟨key, source, scope, value⟩

/-- The declarations behind a call. -/
def call (d : Declarations) : Call → Declarations
  | .one e => (d.tryAdd e).1
  | .each source scope annotations => d.addEach source scope annotations

/-- What calls declare before anything is dropped, in the order of the calls. -/
def history (calls : List Call) : List Declaration := calls.flatMap Call.declares

/-- What calls declare for a key before anything is dropped. -/
def historyOf (calls : List Call) (key : String) : List Declaration :=
  (history calls).filter (·.key = key)

/-- The declarations that calls leave where nothing was declared before. -/
def ofCalls (calls : List Call) : Declarations := calls.foldl call empty

theorem call_eq (d : Declarations) (c : Call) : d.call c = c.declares.foldl add d := by
  cases c with
  | one e => exact fst_tryAdd d e
  | each source scope annotations => exact addEach_eq_foldl_add d source scope annotations

theorem foldl_call (d : Declarations) (calls : List Call) :
    calls.foldl call d = (history calls).foldl add d := by
  rw [history, List.foldl_flatMap]
  congr 1
  funext d c
  exact call_eq d c

/-- For each key the first declaration at each scope is left. -/
theorem ofKey_ofCalls (calls : List Call) (key : String) :
    (ofCalls calls).ofKey key = firstAtScopes (historyOf calls key) := by
  rw [ofCalls, foldl_call, ofKey_foldl_add_empty, historyOf]

/-- Nothing is stored that was not declared. -/
theorem mem_historyOf_of_mem_ofKey {calls : List Call} {key : String} {e : Declaration}
    (h : e ∈ (ofCalls calls).ofKey key) : e ∈ historyOf calls key := by
  obtain ⟨hlog, hkey⟩ := List.mem_filter.mp h
  rw [ofCalls, foldl_call] at hlog
  rcases mem_log_foldl_add hlog with hnone | hdeclared
  · cases hnone
  · exact List.mem_filter.mpr ⟨hdeclared, hkey⟩

theorem map?_ofCalls (calls : List Call) (key : String) : (ofCalls calls).map? key =
    if historyOf calls key = [] then none else some (firstAtScopes (historyOf calls key)) := by
  simp only [map?, ofKey_ofCalls, firstAtScopes_eq_nil]

/-- At each scope the first declaration of a key is left. -/
theorem at?_ofCalls (calls : List Call) (key scope : String) : (ofCalls calls).at? key scope =
    (historyOf calls key).find? (·.scope = scope) := by
  rw [at?, ofKey_ofCalls, find?_firstAtScopes]

theorem declares_ofCalls {calls : List Call} {key scope : String} :
    (ofCalls calls).declares key scope = true ↔
      ∃ e ∈ history calls, e.key = key ∧ e.scope = scope := by
  rw [declares_eq_isSome_at?, at?_ofCalls, historyOf, List.find?_isSome]
  simp [and_assoc]

/-- A declaration stands if no earlier one has its key and its scope. -/
theorem snd_tryAdd_ofCalls {calls : List Call} {e : Declaration} :
    ((ofCalls calls).tryAdd e).2 = true ↔
      ∀ earlier ∈ history calls, ¬(earlier.key = e.key ∧ earlier.scope = e.scope) := by
  have hdeclares : (ofCalls calls).declares e.key e.scope = true ↔ _ := declares_ofCalls
  unfold tryAdd
  split
  · next h => simpa using hdeclares.mp h
  · next h => simpa using mt hdeclares.mpr h

/-- Later calls only append to the declarations of a key. -/
theorem map?_ofCalls_append {calls later : List Call} {key : String} {stored : List Declaration}
    (h : (ofCalls calls).map? key = some stored) :
    ∃ more, (ofCalls (calls ++ later)).map? key = some (stored ++ more) := by
  have hrun : ofCalls (calls ++ later) = (history later).foldl add (ofCalls calls) := by
    rw [ofCalls, List.foldl_append, foldl_call _ later, ofCalls]
  unfold map? at h ⊢
  split at h
  · cases h
  · next hne =>
    cases h
    rw [hrun, ofKey_foldl_add, if_neg]
    · exact ⟨_, rfl⟩
    · exact fun hnil => hne (List.append_eq_nil_iff.mp hnil).1

end Declarations

open Declarations

namespace Annotations

/-! ## Readers -/

/-- Annotations that no reader tells apart, neither by what it reads nor by what it tells. -/
structure Agree (a b : Annotations) : Prop where
  map? : ∀ key, a.declared.map? key = b.declared.map? key
  read : ∀ key, a.read key = b.read key
  readChecked : ∀ key, a.readChecked key = b.readChecked key
  readBool : ∀ key, a.readBool key = b.readBool key
  readInt : ∀ key, a.readInt key = b.readInt key
  resolve : ∀ key path, a.resolve key path = b.resolve key path
  resolveAll : ∀ keys path, a.resolveAll keys path = b.resolveAll keys path
  group : ∀ paths key, a.group paths key = b.group paths key
  groupAll : ∀ paths keys, a.groupAll paths keys = b.groupAll paths keys
  groupWith : ∀ {α : Type} [DecidableEq α] paths keys (convert : Table String → α),
    a.groupWith paths keys convert = b.groupWith paths keys convert

variable {settings : Settings} {d d' : Declarations}

/-- Readers see the settings and the declarations of one key at a time. -/
theorem agree_of_ofKey (h : ∀ key, d.ofKey key = d'.ofKey key) :
    Agree ⟨settings, d⟩ ⟨settings, d'⟩ := by
  -- defaults and checks depend on the settings alone, so they are the same on both sides by rfl
  have hread : ∀ key, read ⟨settings, d⟩ key = read ⟨settings, d'⟩ key := by
    intro key
    unfold read canonical? overridden
    rw [h]
    rfl
  have hchecked : ∀ key, readChecked ⟨settings, d⟩ key = readChecked ⟨settings, d'⟩ key := by
    intro key
    unfold readChecked
    rw [hread]
    rfl
  have hresolve : ∀ key, resolve ⟨settings, d⟩ key = resolve ⟨settings, d'⟩ key := by
    intro key
    funext path
    unfold resolve at?
    rw [h]
    rfl
  have hresolveAll : ∀ keys, resolveAll ⟨settings, d⟩ keys = resolveAll ⟨settings, d'⟩ keys := by
    intro keys
    funext path
    unfold resolveAll
    simp only [hresolve]
  exact {
    map? := fun key => by unfold Declarations.map?; rw [h]
    read := hread
    readChecked := hchecked
    readBool := fun key => by unfold readBool; rw [hchecked]
    readInt := fun key => by unfold readInt; rw [hchecked]
    resolve := fun key path => congrFun (hresolve key) path
    resolveAll := fun keys path => congrFun (hresolveAll keys) path
    group := fun paths key => by unfold group; rw [hresolve]
    groupAll := fun paths keys => by unfold groupAll; rw [hresolveAll]
    groupWith := fun paths keys convert => by unfold groupWith; rw [hresolveAll] }

end Annotations

/-- A declaration stands if it is the first of its key at its scope. A key keeps its first
declarations in their order, more calls only append to them, and how the declarations of different
keys are interleaved makes no difference to a reader. -/
theorem first_declarations_stand_key_by_key (calls : List Call) :
    (∀ e, ((ofCalls calls).tryAdd e).2 = true ↔
      ∀ earlier ∈ history calls, ¬(earlier.key = e.key ∧ earlier.scope = e.scope)) ∧
    (∀ key, (ofCalls calls).map? key =
      if historyOf calls key = [] then none else some (firstAtScopes (historyOf calls key))) ∧
    (∀ later key stored, (ofCalls calls).map? key = some stored →
      ∃ more, (ofCalls (calls ++ later)).map? key = some (stored ++ more)) ∧
    ∀ other, (∀ key, historyOf calls key = historyOf other key) →
      ∀ settings, Annotations.Agree ⟨settings, ofCalls calls⟩ ⟨settings, ofCalls other⟩ := by
  refine ⟨fun e => snd_tryAdd_ofCalls, map?_ofCalls calls, fun later key stored =>
    map?_ofCalls_append, fun other hsame settings => Annotations.agree_of_ofKey fun key => ?_⟩
  rw [ofKey_ofCalls, ofKey_ofCalls, hsame]

/-- Two resources that declare at one hostpath. The second one comes with another key, too. -/
def resourceByResource : List Call := [
  .each ⟨"ingress", "shop", "first"⟩ "a.test/" [(Key.waf, "modsecurity")],
  .each ⟨"ingress", "shop", "second"⟩ "a.test/" [(Key.hsts, "true"), (Key.waf, "off")]]

/-- The same declarations with the other key ahead. -/
def otherKeyAhead : List Call := [
  .one ⟨Key.hsts, ⟨"ingress", "shop", "second"⟩, "a.test/", "true"⟩,
  .one ⟨Key.waf, ⟨"ingress", "shop", "first"⟩, "a.test/", "modsecurity"⟩,
  .one ⟨Key.waf, ⟨"ingress", "shop", "second"⟩, "a.test/", "off"⟩]

theorem other_key_ahead_is_not_seen :
    (ofCalls resourceByResource).map? Key.waf =
      some [⟨Key.waf, ⟨"ingress", "shop", "first"⟩, "a.test/", "modsecurity"⟩] ∧
    (∃ more, (ofCalls (resourceByResource ++ otherKeyAhead)).map? Key.waf =
      some (⟨Key.waf, ⟨"ingress", "shop", "first"⟩, "a.test/", "modsecurity"⟩ :: more)) ∧
    Annotations.Agree ⟨.plain, ofCalls resourceByResource⟩ ⟨.plain, ofCalls otherKeyAhead⟩ := by
  obtain ⟨-, -, hlater, hagree⟩ := first_declarations_stand_key_by_key resourceByResource
  have hstored : (ofCalls resourceByResource).map? Key.waf =
      some [⟨Key.waf, ⟨"ingress", "shop", "first"⟩, "a.test/", "modsecurity"⟩] := by decide
  refine ⟨hstored, hlater otherKeyAhead Key.waf _ hstored, hagree otherKeyAhead ?_ .plain⟩
  intro key
  by_cases hkey : Key.hsts = key
  · subst hkey
    decide
  · simp [historyOf, history, Call.declares, resourceByResource, otherKeyAhead, hkey,
      List.filter_cons]

end Ingress
