-- What accepted settings promise. Settings are accepted if no key is empty and each default is
-- empty or of the kind of its key. Main statement: under accepted settings no path and no reader
-- has a value that is not of the kind of its key, but for an empty default.
import Ingress.Feature.StrictTransport
import Ingress.Proofs.Coarsening

namespace Ingress

namespace Settings

variable {s : Settings} {key value : String}

/-! ## Accepted settings -/

/-- Whether each default is empty or of the kind of its key. -/
def SoundDefaults (s : Settings) : Prop :=
  ∀ key, s.default key ≠ "" → s.accepts key (s.default key) = true

theorem default_of_find? (h : s.defaults.find? key = some value) : s.default key = value := by
  rw [default, h, Option.getD_some]

theorem badDefault?_eq_none_iff : s.badDefault? = none ↔
    ∀ key value, s.defaults.find? key = some value → value ≠ "" → s.accepts key value = true := by
  unfold badDefault? accepts
  rw [List.findSome?_eq_none_iff]
  constructor
  · intro h key value hfind
    have hentry := h (key, value) (Table.find?_eq_some_iff.mp hfind)
    dsimp only at hentry
    cases hkind : s.kind? key with
    | none => exact fun _ => rfl
    | some kind => simpa [hkind] using hentry
  · rintro h ⟨key, value⟩ hentry
    have haccepted := h key value (Table.find?_eq_some_iff.mpr hentry)
    dsimp only
    cases hkind : s.kind? key with
    | none => rfl
    | some kind => simpa [hkind] using haccepted

theorem soundDefaults_iff : s.SoundDefaults ↔
    ∀ key value, s.defaults.find? key = some value → value ≠ "" → s.accepts key value = true := by
  constructor
  · intro h key value hfind
    obtain rfl := default_of_find? hfind
    exact h key
  · intro h key hne
    cases hfind : s.defaults.find? key with
    | none => exact absurd (by rw [default, hfind, Option.getD_none]) hne
    | some value =>
      obtain rfl := default_of_find? hfind
      exact h key _ hfind hne

theorem fault?_eq_none_iff : s.fault? = none ↔
    "" ∉ s.defaults.keys ∧ "" ∉ s.kinds.keys ∧ s.SoundDefaults := by
  rw [soundDefaults_iff, ← badDefault?_eq_none_iff]
  unfold fault?
  split
  · simp [*]
  · split <;> simp [*]

/-! ## Settled values -/

/-- What is settled is of the kind of its key, or it is the default. -/
theorem accepts_settled_or_default (d? : Option Declaration) :
    s.accepts key (s.settled key d?) = true ∨ s.settled key d? = s.default key := by
  cases d? with
  | none => exact .inr rfl
  | some d => cases h : s.accepts key d.value <;> simp [settled, h]

/-- Under sound defaults it is of the kind of its key, or it is an empty default. -/
theorem SoundDefaults.settled (hsound : s.SoundDefaults) (key : String) (d? : Option Declaration) :
    s.accepts key (s.settled key d?) = true ∨ s.settled key d? = "" ∧ s.default key = "" := by
  rcases s.accepts_settled_or_default d? with haccepted | hdefault
  · exact .inl haccepted
  · rw [hdefault]
    by_cases hempty : s.default key = ""
    · exact .inr ⟨hempty, hempty⟩
    · exact .inl (hsound key hempty)

theorem accepts_of_kind? {kind : ValueKind} (h : s.kind? key = some kind) :
    s.accepts key value = kind.accepts value := by
  unfold accepts
  rw [h]

end Settings

/-! ## Values that are read -/

variable {a : Annotations} {key : String} {kind : ValueKind}

/-- A value that comes from a declaration is of the kind of its key. -/
theorem Annotations.origin_readChecked (a : Annotations) (key : String) :
    (a.readChecked key).value.origin = none ∨
      a.settings.accepts key (a.readChecked key).value.value = true := by
  rw [value_readChecked]
  unfold Settings.checked
  split
  · assumption
  · exact .inl rfl

theorem value_of_mem_groupAll {paths : PathSet} {keys : List String} (hkey : key ∈ keys)
    {group : PathGroup (Table String)} (hgroup : group ∈ (a.groupAll paths keys).value) :
    ∃ p ∈ group.paths.toList, group.config.find? key = some (a.valueAt key p.hostpath) := by
  have hdivides := a.divides_groupAll paths keys
  obtain ⟨p, hp⟩ := List.exists_mem_of_ne_nil _ (hdivides.nonempty group hgroup)
  refine ⟨p, hp, ?_⟩
  rw [← ((hdivides.mem_iff hgroup).mp hp).2, a.find?_resolveAll, if_pos hkey]

/-- Under sound defaults a text of the wrong kind is read only where the default is empty. -/
theorem readChecked_of_refused (hsound : a.settings.SoundDefaults)
    (hkind : a.settings.kind? key = some kind)
    (hrefused : kind.accepts (a.readChecked key).value.value = false) :
    (a.readChecked key).value = ⟨"", none⟩ ∧ a.settings.default key = "" := by
  have haccepts : a.settings.accepts key (a.readChecked key).value.value = false := by
    rw [Settings.accepts_of_kind? hkind, hrefused]
  have horigin := (a.origin_readChecked key).resolve_right (by simp [haccepts])
  have hsettled := hsound.settled key (a.declared.canonical? key)
  rw [← a.value_value_readChecked, haccepts] at hsettled
  obtain ⟨hvalue, hdefault⟩ := hsettled.resolve_left Bool.false_ne_true
  refine ⟨?_, hdefault⟩
  rw [← hvalue, ← horigin]

/-- Under accepted settings, a value on a path is of the kind of its key, or it is empty like the
default. A reader meets a text that it cannot read only where that is an empty default. -/
theorem accepted_settings_keep_malformed_values_out (a : Annotations)
    (hvalid : a.settings.fault? = none) (key : String) (kind : ValueKind)
    (hkind : a.settings.kind? key = some kind) :
    (∀ paths keys, key ∈ keys → ∀ group ∈ (a.groupAll paths keys).value,
      ∃ value, group.config.find? key = some value ∧
        (kind.accepts value = true ∨ value = "" ∧ a.settings.default key = "")) ∧
    let reading := (a.readChecked key).value
    (a.readBool key).value = (readBool? reading.value).getD false ∧
    (a.readInt key).value = (Text.integer? reading.value).getD 0 ∧
    (kind = .bool → readBool? reading.value = none →
      reading = ⟨"", none⟩ ∧ a.settings.default key = "") ∧
    (kind = .int → Text.integer? reading.value = none →
      reading = ⟨"", none⟩ ∧ a.settings.default key = "") := by
  obtain ⟨-, -, hsound⟩ := Settings.fault?_eq_none_iff.mp hvalid
  refine ⟨?_, rfl, rfl, ?_, ?_⟩
  · intro paths keys hkey group hgroup
    obtain ⟨p, -, hfind⟩ := value_of_mem_groupAll hkey hgroup
    refine ⟨_, hfind, ?_⟩
    rw [Annotations.valueAt, ← Settings.accepts_of_kind? hkind]
    exact hsound.settled key _
  · rintro rfl htext
    exact readChecked_of_refused hsound hkind (by simp [ValueKind.accepts, htext])
  · rintro rfl htext
    exact readChecked_of_refused hsound hkind (by simp [ValueKind.accepts, htext])

/-- Annotations of a shop that is secure by default, for a time that is left open. One path declares
the empty text and a word in place of a number. -/
def carelessShop : Annotations where
  settings := { Settings.plain with defaults := .ofList [(Key.hsts, "true"), (Key.hstsMaxAge, "")] }
  declared := Declarations.empty
    |>.add ⟨Key.hsts, ⟨"ingress", "shop", "first"⟩, "a.test/", ""⟩
    |>.add ⟨Key.hstsMaxAge, ⟨"ingress", "shop", "first"⟩, "a.test/", "ten"⟩

theorem careless_shop_has_no_malformed_values :
    (carelessShop.settings.fault? = none ∧ Key.hsts ∈ StrictTransport.keys ∧
      carelessShop.settings.kind? Key.hsts = some .bool ∧
      carelessShop.settings.kind? Key.hstsMaxAge = some .int) ∧
    (∀ group ∈ (carelessShop.groupAll threePaths StrictTransport.keys).value,
      ∃ value, group.config.find? Key.hsts = some value ∧ ValueKind.bool.accepts value = true) ∧
    (carelessShop.readChecked Key.hstsMaxAge).value = ⟨"", none⟩ ∧
    (carelessShop.readInt Key.hstsMaxAge).value = 0 := by
  have hvalid : carelessShop.settings.fault? = none := by decide
  have hkey : Key.hsts ∈ StrictTransport.keys := by decide
  have hbool : carelessShop.settings.kind? Key.hsts = some .bool := by decide
  have hint : carelessShop.settings.kind? Key.hstsMaxAge = some .int := by decide
  obtain ⟨hgroups, -⟩ :=
    accepted_settings_keep_malformed_values_out carelessShop hvalid Key.hsts .bool hbool
  obtain ⟨-, -, hreadInt, -, hopen⟩ :=
    accepted_settings_keep_malformed_values_out carelessShop hvalid Key.hstsMaxAge .int hint
  have htext : Text.integer? (carelessShop.readChecked Key.hstsMaxAge).value.value = none := by
    decide
  refine ⟨⟨hvalid, hkey, hbool, hint⟩, ?_, (hopen rfl htext).1, ?_⟩
  · intro group hgroup
    obtain ⟨value, hfind, hvalue⟩ := hgroups threePaths StrictTransport.keys hkey group hgroup
    exact ⟨value, hfind, hvalue.resolve_right fun h => absurd h.2 (by decide)⟩
  · rw [hreadInt, htext]
    rfl

end Ingress
