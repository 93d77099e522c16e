import Coproduct.Event
/-!
# The laws of logged values

Computations that report are compared by their value and by their events. Both are read off a
`do` block by simplification: values are handed on, events are appended.
-/

namespace Coproduct.Logged

variable {α β : Type}

theorem ext {x y : Logged α} (hvalue : x.value = y.value) (hevents : x.events = y.events) :
    x = y := by
  cases x
  cases y
  simp only at hvalue hevents
  rw [hvalue, hevents]

@[simp] theorem value_pure (a : α) : (pure a : Logged α).value = a := rfl

@[simp] theorem events_pure (a : α) : (pure a : Logged α).events = [] := rfl

@[simp] theorem value_bind (x : Logged α) (f : α → Logged β) :
    (x >>= f).value = (f x.value).value := rfl

@[simp] theorem events_bind (x : Logged α) (f : α → Logged β) :
    (x >>= f).events = x.events ++ (f x.value).events := rfl

@[simp] theorem value_map (f : α → β) (x : Logged α) : (f <$> x).value = f x.value := rfl

@[simp] theorem events_map (f : α → β) (x : Logged α) : (f <$> x).events = x.events :=
  List.append_nil x.events

@[simp] theorem events_emit (e : Event) : (emit e).events = [e] := rfl

instance : LawfulMonad Logged := LawfulMonad.mk' Logged
  (fun x => ext rfl (List.append_nil x.events))
  (fun _ _ => rfl)
  (fun x _ _ => ext rfl (List.append_assoc x.events _ _))

end Coproduct.Logged
