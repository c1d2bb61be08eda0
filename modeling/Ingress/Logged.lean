-- Results with the events that led to them. Steps run one after the other, and the events of a
-- later step stand behind those of an earlier one.
import Ingress.Event

namespace Ingress

/-- A result and the events that led to it, oldest first. -/
structure Logged (α : Type) where
  value : α
  events : List Event

namespace Logged

instance : Monad Logged where
  pure a := ⟨a, []⟩
  bind x f := ⟨(f x.value).value, x.events ++ (f x.value).events⟩

/-- Tells an event. -/
def tell (e : Event) : Logged Unit := ⟨(), [e]⟩

/-- Tells events. -/
def tellAll (es : List Event) : Logged Unit := ⟨(), es⟩

/-! ## Laws -/

variable {α β : Type}

@[simp]
theorem value_pure (a : α) : (pure a : Logged α).value = a := rfl

@[simp]
theorem events_pure (a : α) : (pure a : Logged α).events = [] := rfl

@[simp]
theorem value_bind (x : Logged α) (f : α → Logged β) : (x >>= f).value = (f x.value).value := rfl

@[simp]
theorem events_bind (x : Logged α) (f : α → Logged β) :
    (x >>= f).events = x.events ++ (f x.value).events := rfl

@[simp]
theorem value_tell (e : Event) : (tell e).value = () := rfl

@[simp]
theorem events_tell (e : Event) : (tell e).events = [e] := rfl

@[simp]
theorem value_tellAll (es : List Event) : (tellAll es).value = () := rfl

@[simp]
theorem events_tellAll (es : List Event) : (tellAll es).events = es := rfl

instance : LawfulMonad Logged :=
  LawfulMonad.mk' Logged (fun x => by cases x; simp [Functor.map])
    (fun a f => by simp [bind, pure]) (fun x f g => by simp [bind])

@[simp]
theorem value_map (f : α → β) (x : Logged α) : (f <$> x).value = f x.value := rfl

@[simp]
theorem events_map (f : α → β) (x : Logged α) : (f <$> x).events = x.events := by
  simp [Functor.map]

theorem value_mapM (f : α → Logged β) (as : List α) :
    (as.mapM f).value = as.map fun a => (f a).value := by
  induction as with
  | nil => rfl
  | cons a as ih => simp [List.mapM_cons, ih]

theorem events_mapM (f : α → Logged β) (as : List α) :
    (as.mapM f).events = as.flatMap fun a => (f a).events := by
  induction as with
  | nil => rfl
  | cons a as ih => simp [List.mapM_cons, ih]

end Logged

end Ingress
