import Mathlib.Data.List.Basic

namespace EventSourcing

structure Notification (Kind : Type) (payload : Kind → Type) where
  kind : Kind
  value : payload kind

structure Registration (Kind : Type) (payload : Kind → Type) (Effect : Type) where
  kind : Kind
  handle : payload kind → Effect

variable {Kind Effect : Type} {payload : Kind → Type} [DecidableEq Kind]

/-- What the handlers of a notification's kind do with it, in the order of their registration. -/
def dispatch (registrations : List (Registration Kind payload Effect)) (notification : Notification Kind payload) :
    List Effect :=
  registrations.filterMap fun registration =>
    if same : notification.kind = registration.kind then some (registration.handle (same ▸ notification.value))
    else none

theorem dispatch_unhandled {registrations : List (Registration Kind payload Effect)}
    {notification : Notification Kind payload}
    (unhandled : ∀ registration ∈ registrations, notification.kind ≠ registration.kind) :
    dispatch registrations notification = [] := by
  rw [dispatch, List.filterMap_eq_nil_iff]
  intro registration member
  exact dif_neg (unhandled registration member)

end EventSourcing
