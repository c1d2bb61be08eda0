-- Strict transport security on paths. Main statement: under accepted settings that keep the
-- built-in kinds, a path has the security that is first declared at its hostpath, key by key. Where
-- no valid literal is declared the default stands in, and where there is none either the key is off
-- or 0. What is declared for other paths makes no difference, and invalid literals are counted path
-- by path.
import Ingress.Proofs.History
import Ingress.Proofs.SoundSettings
import Ingress.Update

namespace Ingress

open Declarations

/-! ## Literals -/

namespace Declarations

/-- What calls declare for a key at a scope, in the order of the calls. -/
def declaredAt (calls : List Call) (key scope : String) : List Declaration :=
  (historyOf calls key).filter (·.scope = scope)

/-- The literal that is first declared for a key at a scope. -/
def firstLiteral? (calls : List Call) (key scope : String) : Option String :=
  (declaredAt calls key scope).head?.map (·.value)

theorem firstLiteral?_eq (calls : List Call) (key scope : String) :
    firstLiteral? calls key scope = ((ofCalls calls).at? key scope).map (·.value) := by
  rw [at?_ofCalls, firstLiteral?, declaredAt, List.head?_filter]

end Declarations

/-- The empty text is of no kind. -/
theorem ValueKind.accepts_empty (kind : ValueKind) : kind.accepts "" = false := by
  cases kind <;> rfl

section Settles

variable {α : Type} {read : String → Option α} {fallback : α} {literal? : Option String}
  {default : String}

/-- What a key means where a literal may be declared: the value of the literal if it is valid, else
that of the default if it is not empty, else a fallback. -/
inductive Settles (read : String → Option α) (fallback : α) (literal? : Option String)
    (default : String) : α → Prop where
  | declared {literal : String} {value : α} (hliteral : literal? = some literal)
    (hvalue : read literal = some value) : Settles read fallback literal? default value
  | default {value : α} (hinvalid : ∀ literal ∈ literal?, read literal = none)
    (hdefault : default ≠ "") (hvalue : read default = some value) :
    Settles read fallback literal? default value
  | fallback (hinvalid : ∀ literal ∈ literal?, read literal = none) (hdefault : default = "") :
    Settles read fallback literal? default fallback

theorem Settles.unique {value other : α} (h : Settles read fallback literal? default value)
    (h' : Settles read fallback literal? default other) : value = other := by
  cases h with
  | declared hliteral hvalue =>
    cases h' with
    | declared hliteral' hvalue' => simp_all
    | default hinvalid => simp_all
    | fallback hinvalid => simp_all
  | default hinvalid hdefault hvalue =>
    cases h' with
    | declared hliteral' hvalue' => simp_all
    | default _ _ hvalue' => simp_all
    | fallback _ hempty => exact absurd hempty hdefault
  | fallback hinvalid hempty =>
    cases h' with
    | declared hliteral' hvalue' => simp_all
    | default _ hdefault => exact absurd hempty hdefault
    | fallback => rfl

/-- Under sound defaults, what a declaration settles for a key means what its literal settles. -/
theorem settles_settled {s : Settings} {key : String} {kind : ValueKind}
    (hread : ∀ text, kind.accepts text = (read text).isSome) (hsound : s.SoundDefaults)
    (hkind : s.kind? key = some kind) (d? : Option Declaration) :
    Settles read fallback (d?.map (·.value)) (s.default key)
      ((read (s.settled key d?)).getD fallback) := by
  have haccepts : ∀ text, s.accepts key text = (read text).isSome :=
    fun text => (Settings.accepts_of_kind? hkind).trans (hread text)
  -- the empty text is no literal, so an empty default leaves the fallback
  have hnone : read "" = none := by
    simpa [kind.accepts_empty] using (hread "").symm
  have hdefault : (∀ literal ∈ d?.map (·.value), read literal = none) →
      Settles read fallback (d?.map (·.value)) (s.default key)
        ((read (s.default key)).getD fallback) := by
    intro hinvalid
    by_cases hempty : s.default key = ""
    · rw [hempty, hnone]
      exact .fallback hinvalid rfl
    · have hvalid := hsound key hempty
      rw [haccepts] at hvalid
      obtain ⟨value, hvalue⟩ := Option.isSome_iff_exists.mp hvalid
      rw [hvalue]
      exact .default hinvalid hempty hvalue
  cases d? with
  | none => exact hdefault (by simp)
  | some d =>
    cases hvalid : s.accepts key d.value with
    | true =>
      obtain ⟨value, hvalue⟩ := Option.isSome_iff_exists.mp (haccepts d.value ▸ hvalid)
      simp only [Settings.settled, hvalid, if_true, hvalue]
      exact .declared rfl hvalue
    | false =>
      have hinvalid : read d.value = none := by
        rwa [haccepts, Option.isSome_eq_false_iff, Option.isNone_iff_eq_none] at hvalid
      simp only [Settings.settled, hvalid]
      exact hdefault (by simpa using hinvalid)

end Settles

namespace StrictTransport

/-! ## Security on a path -/

/-- The security that is settled at a scope, key by key. -/
structure SettledAt (settings : Settings) (calls : List Call) (scope : String) (h : Hsts) :
    Prop where
  enabled : Settles readBool? false (firstLiteral? calls Key.hsts scope)
    (settings.default Key.hsts) h.enabled
  maxAge : Settles Text.integer? 0 (firstLiteral? calls Key.hstsMaxAge scope)
    (settings.default Key.hstsMaxAge) h.maxAge
  subdomains : Settles readBool? false (firstLiteral? calls Key.hstsSubdomains scope)
    (settings.default Key.hstsSubdomains) h.subdomains
  preload : Settles readBool? false (firstLiteral? calls Key.hstsPreload scope)
    (settings.default Key.hstsPreload) h.preload

/-- Calls that declare the same at a scope settle one security there. -/
theorem SettledAt.unique {settings : Settings} {calls other : List Call} {scope : String}
    {h h' : Hsts} (hsettled : SettledAt settings calls scope h)
    (hsettled' : SettledAt settings other scope h')
    (hsame : ∀ key ∈ keys, declaredAt calls key scope = declaredAt other key scope) : h = h' := by
  have hliteral : ∀ key ∈ keys, firstLiteral? calls key scope = firstLiteral? other key scope := by
    intro key hkey
    rw [firstLiteral?, firstLiteral?, hsame key hkey]
  simp only [keys, List.forall_mem_cons] at hliteral
  obtain ⟨hon, hage, hsub, hpre, -⟩ := hliteral
  have henabled := (hon ▸ hsettled.enabled).unique hsettled'.enabled
  have hmaxAge := (hage ▸ hsettled.maxAge).unique hsettled'.maxAge
  have hsubdomains := (hsub ▸ hsettled.subdomains).unique hsettled'.subdomains
  have hpreload := (hpre ▸ hsettled.preload).unique hsettled'.preload
  cases h
  cases h'
  simp_all

theorem ofValues_resolveAll (a : Annotations) (p : RoutePath) :
    ofValues (a.resolveAll keys p).value =
      { enabled := (readBool? (a.valueAt Key.hsts p.hostpath)).getD false
        maxAge := (Text.integer? (a.valueAt Key.hstsMaxAge p.hostpath)).getD 0
        subdomains := (readBool? (a.valueAt Key.hstsSubdomains p.hostpath)).getD false
        preload := (readBool? (a.valueAt Key.hstsPreload p.hostpath)).getD false } := by
  unfold ofValues
  simp only [a.find?_resolveAll]
  simp [keys, Reading.toBool, Reading.toInt]

section Accepted

variable {settings : Settings} {calls : List Call} {paths : PathSet}

theorem settledAt_ofValues (hsound : settings.SoundDefaults)
    (hbuiltin : ∀ key ∈ keys, settings.kind? key = ValueKind.builtin? key) (p : RoutePath) :
    SettledAt settings calls p.hostpath
      (ofValues (Annotations.resolveAll ⟨settings, ofCalls calls⟩ keys p).value) := by
  simp only [keys, List.forall_mem_cons] at hbuiltin
  obtain ⟨hon, hage, hsub, hpre, -⟩ := hbuiltin
  rw [ofValues_resolveAll]
  simp only [Annotations.valueAt]
  constructor <;> rw [firstLiteral?_eq]
  · exact settles_settled (fun _ => rfl) hsound hon _
  · exact settles_settled (fun _ => rfl) hsound hage _
  · exact settles_settled (fun _ => rfl) hsound hsub _
  · exact settles_settled (fun _ => rfl) hsound hpre _

theorem refuses_iff {key scope : String} {kind : ValueKind}
    (hkind : settings.kind? key = some kind) :
    settings.Refuses key ((ofCalls calls).at? key scope) ↔
      (firstLiteral? calls key scope).any (fun literal => !kind.accepts literal) = true := by
  rw [firstLiteral?_eq]
  unfold Settings.Refuses
  simp only [Settings.accepts_of_kind? hkind]
  cases (ofCalls calls).at? key scope <;> simp

theorem growth_resolve (key : String) :
    growth (.invalidOf key) (resolve ⟨settings, ofCalls calls⟩ paths).events = keys.count key *
      paths.toList.countP fun p => settings.Refuses key ((ofCalls calls).at? key p.hostpath) :=
  Annotations.growth_groupWith _ keys key paths ofValues

/-- A run that gives every path the security that is settled at its hostpath. -/
structure PathByPath (settings : Settings) (calls : List Call) (paths : PathSet)
    (run : Logged (List (PathGroup Hsts))) : Prop where
  /-- The groups hold each path once and no others. -/
  divided : (run.value.flatMap (·.paths.toList)).Perm paths.toList
  distinct : (run.value.map (·.config)).Nodup
  settled : ∀ group ∈ run.value, ∀ p ∈ group.paths.toList,
    SettledAt settings calls p.hostpath group.config
  /-- A key is counted once for each path whose declared literal is invalid. -/
  counted : ∀ key ∈ keys, ∀ kind ∈ ValueKind.builtin? key, growth (.invalidOf key) run.events =
    paths.toList.countP fun p =>
      (firstLiteral? calls key p.hostpath).any fun literal => !kind.accepts literal
  uncounted : ∀ key, key ∉ keys → growth (.invalidOf key) run.events = 0

theorem pathByPath_resolve (hsound : settings.SoundDefaults)
    (hbuiltin : ∀ key ∈ keys, settings.kind? key = ValueKind.builtin? key) :
    PathByPath settings calls paths (resolve ⟨settings, ofCalls calls⟩ paths) := by
  have hdivides := Annotations.divides_groupWith ⟨settings, ofCalls calls⟩ paths keys ofValues
  exact {
    divided := hdivides.perm_toList
    distinct := hdivides.distinct
    settled := by
      intro group hgroup p hp
      rw [← ((hdivides.mem_iff hgroup).mp hp).2]
      exact settledAt_ofValues hsound hbuiltin p
    counted := by
      intro key hkey kind hkind
      have honce : keys.count key = 1 := List.count_eq_one_of_mem (by decide) hkey
      rw [growth_resolve, honce, Nat.one_mul]
      refine List.countP_congr fun p _ => ?_
      rw [decide_eq_true_iff]
      exact refuses_iff ((hbuiltin key hkey).trans hkind)
    uncounted := by
      intro key hkey
      rw [growth_resolve, List.count_eq_zero.mpr hkey, Nat.zero_mul] }

end Accepted

/-- Under accepted settings that keep the built-in kinds, the update of a backend gives each path
the security that is settled at its hostpath, and counts the invalid literals path by path. Calls
that declare the same at the hostpath of a path give it the same security, whatever they declare
elsewhere. -/
theorem transport_is_settled_path_by_path (settings : Settings) (backend : Backend)
    (calls : List Call) (hvalid : settings.fault? = none)
    (hbuiltin : ∀ key ∈ keys, settings.kind? key = ValueKind.builtin? key) :
    let run := fun calls => resolve ⟨settings, ofCalls calls⟩ backend.paths
    PathByPath settings calls backend.paths (run calls) ∧
    (∀ cluster routes lists, ((Draft.mk backend ⟨settings, ofCalls calls⟩).update cluster routes
      lists).value.1.hsts = (run calls).value) ∧
    ∀ other, ∀ group ∈ (run calls).value, ∀ group' ∈ (run other).value, ∀ p ∈ group.paths.toList,
      p ∈ group'.paths.toList →
      (∀ key ∈ keys, declaredAt calls key p.hostpath = declaredAt other key p.hostpath) →
      group.config = group'.config := by
  obtain ⟨-, -, hsound⟩ := Settings.fault?_eq_none_iff.mp hvalid
  have hrun : ∀ calls, PathByPath settings calls backend.paths
      (resolve ⟨settings, ofCalls calls⟩ backend.paths) :=
    fun _ => pathByPath_resolve hsound hbuiltin
  refine ⟨hrun calls, fun _ _ _ => rfl, ?_⟩
  intro other group hgroup group' hgroup' p hp hp' hsame
  exact ((hrun calls).settled group hgroup p hp).unique ((hrun other).settled group' hgroup' p hp')
    hsame

/-- Settings under which hosts are secure for half a year. -/
def halfAYear : Settings :=
  { Settings.plain with defaults := .ofList [(Key.hsts, "true"), (Key.hstsMaxAge, "15768000")] }

/-- A resource that shortens the time on its path and declares no truth value there. -/
def shortTime : List Call := [
  .each ⟨"ingress", "shop", "first"⟩ "a.test/"
    [(Key.hstsMaxAge, "50"), (Key.hstsPreload, "maybe"), (Key.hstsSubdomains, "true")]]

/-- The same with a resource that turns security off on another host. -/
def shortTimeOrNone : List Call :=
  shortTime ++ [.one ⟨Key.hsts, ⟨"ingress", "shop", "second"⟩, "b.test/", "0"⟩]

theorem short_time_stays_beside_none :
    let settled : Hsts := ⟨true, 50, true, false⟩
    let p : RoutePath := ⟨"3", "a.test/", "/"⟩
    let run := fun calls => resolve ⟨halfAYear, ofCalls calls⟩ threePaths
    (halfAYear.fault? = none ∧ ∀ key ∈ keys, halfAYear.kind? key = ValueKind.builtin? key) ∧
    (∃ group ∈ (run shortTimeOrNone).value, p ∈ group.paths.toList ∧ group.config = settled) ∧
    growth (.invalidOf Key.hstsPreload) (run shortTimeOrNone).events = 1 ∧
    ∀ group ∈ (run shortTime).value, p ∈ group.paths.toList → group.config = settled := by
  intro settled p run
  have hvalid : halfAYear.fault? = none := by decide
  have hbuiltin : ∀ key ∈ keys, halfAYear.kind? key = ValueKind.builtin? key := by decide
  have hsettled : SettledAt halfAYear shortTimeOrNone p.hostpath settled := {
    enabled := .default (by decide) (by decide) (by decide)
    maxAge := .declared (show _ = some "50" by decide) (by decide)
    subdomains := .declared (show _ = some "true" by decide) (by decide)
    preload := .fallback (by decide) (by decide) }
  obtain ⟨hrun, -, hapart⟩ := transport_is_settled_path_by_path halfAYear
    { Backend.bare ⟨"shop", "web", "80"⟩ false [] with paths := threePaths } shortTimeOrNone hvalid
    hbuiltin
  have hp : p ∈ (run shortTimeOrNone).value.flatMap (·.paths.toList) :=
    hrun.divided.mem_iff.mpr (by decide)
  obtain ⟨group, hgroup, hin⟩ := List.mem_flatMap.mp hp
  have hconfig : group.config = settled :=
    (hrun.settled group hgroup p hin).unique hsettled fun _ _ => rfl
  refine ⟨⟨hvalid, hbuiltin⟩, ⟨group, hgroup, hin, hconfig⟩, ?_, ?_⟩
  · rw [hrun.counted Key.hstsPreload (by decide) .bool (by decide)]
    decide
  · intro group' hgroup' hin'
    rw [← hconfig]
    exact (hapart shortTime group hgroup group' hgroup' p hin hin' (by decide)).symm

end StrictTransport

end Ingress
