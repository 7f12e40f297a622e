import StackCompiler.Diagnostic
import StackCompiler.Log

/-!
# Work that leaves a log

The stages of the compiler succeed or fail, and make notes in both cases. Work
that follows a failure is not done and makes no notes.
-/

namespace StackCompiler

/-- The outcome of some work and the notes made during it, in order. -/
structure Traced (α : Type) where
  events : List Log.Event
  outcome : Except Diagnostic α

namespace Traced

variable {α β : Type}

/-- Work of which the outcome is known and that makes no notes. -/
def ofExcept (outcome : Except Diagnostic α) : Traced α := ⟨[], outcome⟩

/-- Work that makes some notes. -/
def note (events : List Log.Event) : Traced PUnit := ⟨events, .ok ⟨⟩⟩

/-- Work that goes on with the result of earlier work, if there is one. -/
def andThen (first : Traced α) (next : α → Traced β) : Traced β :=
  match first.outcome with
  | .error diagnostic => ⟨first.events, .error diagnostic⟩
  | .ok result => ⟨first.events ++ (next result).events, (next result).outcome⟩

instance : Monad Traced where
  pure result := ⟨[], .ok result⟩
  bind := andThen

@[simp] theorem pure_events (result : α) : (pure result : Traced α).events = [] := rfl

theorem bind_of_ok {first : Traced α} {result : α}
    (success : first.outcome = .ok result) (next : α → Traced β) :
    first >>= next = ⟨first.events ++ (next result).events, (next result).outcome⟩ := by
  change andThen first next = _
  rw [andThen, success]

theorem bind_of_error {first : Traced α} {diagnostic : Diagnostic}
    (failure : first.outcome = .error diagnostic) (next : α → Traced β) :
    first >>= next = ⟨first.events, .error diagnostic⟩ := by
  change andThen first next = _
  rw [andThen, failure]

/-- The outcome of work in two parts does not depend on the notes. -/
theorem outcome_bind (first : Traced α) (next : α → Traced β) :
    (first >>= next).outcome = first.outcome >>= fun result =>
        (next result).outcome := by
  cases outcome : first.outcome with
  | error diagnostic => rw [bind_of_error outcome]; rfl
  | ok result => rw [bind_of_ok outcome]; rfl

end Traced

end StackCompiler
