import Approval.Event.Basic
import Approval.Settings
import Approval.Store.Write

/-!
# Operations

An operation runs at a point of time under settings, reads and changes the store, publishes events, and
answers or fails.
-/

namespace Approval

/-- What an operation runs under: a point of time, settings, and the two identifiers that are drawn for a token
if one is issued, which may depend on how many it comes after. Unless others are given they spell its number. -/
structure Context where
  now : Instant
  settings : Settings := {}
  drawn : Nat → Uuid × Uuid := fun n => (⟨0⟩, ⟨Id.spelled n⟩)

/-- What operations change: the store, and the events published so far. -/
structure World where
  store : Store := {}
  events : List Event := []

/-- Work under a context that changes a world and ends with a value or is given up. What it did before it
was given up stays done. -/
def Work (ε α : Type) : Type := Context → World → Except ε α × World

namespace Work

variable {ε δ α : Type}

instance : Monad (Work ε) where
  pure a := fun _ w => (.ok a, w)
  bind x f := fun c w =>
    match x c w with
    | (.ok a, w) => f a c w
    | (.error e, w) => (.error e, w)

def fail (e : ε) : Work ε α := fun _ w => (.error e, w)

/-- Answer a result, or give up with its error. -/
def ofResult (r : Except ε α) : Work ε α := fun _ w => (r, w)

def context : Work ε Context := fun c w => (.ok c, w)

def now : Work ε Instant := fun c w => (.ok c.now, w)

/-- Give up for another reason. -/
def mapError (f : ε → δ) (x : Work ε α) : Work δ α := fun c w =>
  match x c w with
  | (.ok a, w) => (.ok a, w)
  | (.error e, w) => (.error (f e), w)

end Work

/-- An operation: work that answers with a value or fails. -/
abbrev Operation := Work Failure

namespace Operation

variable {α : Type}

/-- Answer what a function of the store says. -/
def ask (f : Store → α) : Operation α := fun _ w => (.ok (f w.store), w)

/-- Read from the store. -/
def read (f : Store → Store.Access α) : Operation α := fun _ w =>
  match f w.store with
  | .ok a => (.ok a, w)
  | .error e => (.error (.ofStore e), w)

/-- Read something that must be there. -/
def readOr (missing : Missing) (f : Store → Store.Access (Option α)) : Operation α := fun _ w =>
  match f w.store with
  | .ok (some a) => (.ok a, w)
  | .ok none => (.error (.missing missing), w)
  | .error e => (.error (.ofStore e), w)

/-- Change the store by a write that may be refused; `explain` makes the failure of the refusal. -/
def write (f : Store → Store.Access Store) (explain : StoreFault → Failure) : Operation Unit :=
  fun _ w =>
    match f w.store with
    | .ok s => (.ok (), { w with store := s })
    | .error e => (.error (explain e), w)

/-- Change the store by a write that may be refused. -/
def change (f : Store → Store.Access Store) : Operation Unit := write f .ofStore

def publish (e : Event) : Operation Unit := fun _ w => (.ok (), { w with events := w.events ++ [e] })

end Operation

end Approval
