import Mathlib.Data.Nat.Notation
import Mathlib.Order.Defs.Unbundled

/-!
# Coroutines over an object, blocked on activities and conditions

The body of a durable workflow is a coroutine with access to one object `self`. It reads and
changes the object at once, and gives up control in two places only: when it awaits the
outcome of an activity, and when it waits for a condition on the object that does not hold
yet. `Body.drive` runs a body to the next such place, or to its end; a body all of whose changes
lie in a preorder takes the object upwards in it.
-/

namespace DurableExecution

/-- A coroutine over an object of type `S` that awaits activities of type `A`, may raise a
failure and returns a value of type `α`. -/
inductive Body (S A : Type) (R : A → Type) (F α : Type) : Type
  | returned (value : α)
  | raised (failure : F)
  | update (change : S → S) (next : Body S A R F α)
  | read (next : S → Body S A R F α)
  | activity (a : A) (next : Except F (R a) → Body S A R F α)
  | wait (condition : S → Bool) (next : Body S A R F α)

/-- What one execution of an activity did: the database it found and left, and its reply. -/
structure Record (D F ρ : Type) where
  before : D
  reply : Except F ρ
  after : D

/-- Where a driven body stands. An awaited activity knows the number of the attempt that is in
flight, and its record once it has been executed. -/
inductive Stage (S A : Type) (R : A → Type) (F D α : Type) : Type
  | fresh
  | awaiting (a : A) (next : Except F (R a) → Body S A R F α) (number : ℕ)
      (record : Option (Record D F (R a)))
  | waiting (condition : S → Bool) (next : Body S A R F α)
  | returned (value : α)
  | raised (failure : F)
  | expired

namespace Body

variable {S A : Type} {R : A → Type} {F D α β : Type}

/-- Continue with a second body on the first one's value. -/
protected def bind : Body S A R F α → (α → Body S A R F β) → Body S A R F β
  | .returned a, f => f a
  | .raised e, _ => .raised e
  | .update change next, f => .update change (next.bind f)
  | .read next, f => .read fun s => (next s).bind f
  | .activity a next, f => .activity a fun reply => (next reply).bind f
  | .wait condition next, f => .wait condition (next.bind f)

instance : Monad (Body S A R F) where
  pure := Body.returned
  bind := Body.bind

/-- `try … except`: continue with the handler when the body raises. -/
protected def tryCatch : Body S A R F α → (F → Body S A R F α) → Body S A R F α
  | .returned a, _ => .returned a
  | .raised e, handler => handler e
  | .update change next, handler => .update change (next.tryCatch handler)
  | .read next, handler => .read fun s => (next s).tryCatch handler
  | .activity a next, handler => .activity a fun reply => (next reply).tryCatch handler
  | .wait condition next, handler => .wait condition (next.tryCatch handler)

/-- Change the object. -/
def modify (change : S → S) : Body S A R F Unit := .update change (.returned ())

/-- Look at the object. -/
def get (view : S → α) : Body S A R F α := .read fun s => .returned (view s)

/-- Raise a failure. -/
def throw (e : F) : Body S A R F α := .raised e

/-- Await an activity; its failure is raised here. -/
def executeActivity (a : A) : Body S A R F (R a) := .activity a fun
  | .ok reply => .returned reply
  | .error e => .raised e

/-- Wait until the object meets a condition. -/
def waitCondition (condition : S → Bool) : Body S A R F Unit := .wait condition (.returned ())

/-- Run a body to the next place where it gives up control. The first attempt of an awaited
activity is in flight from there on. -/
def drive : Body S A R F α → S → S × Stage S A R F D α
  | .returned value, s => (s, .returned value)
  | .raised e, s => (s, .raised e)
  | .update change next, s => next.drive (change s)
  | .read next, s => (next s).drive s
  | .activity a next, s => (s, .awaiting a next 1 none)
  | .wait condition next, s => if condition s then next.drive s else (s, .waiting condition next)

section Within

variable (rel : S → S → Prop)

/-- Every change of the object that the body makes lies in the relation. -/
def Within : Body S A R F α → Prop
  | .returned _ => True
  | .raised _ => True
  | .update change next => (∀ s, rel s (change s)) ∧ next.Within
  | .read next => ∀ s, (next s).Within
  | .activity _ next => ∀ reply, (next reply).Within
  | .wait _ next => next.Within

variable {rel}

/-- A composed body stays within the relation when both parts do. -/
theorem Within.bind {b : Body S A R F α} {f : α → Body S A R F β} (hb : b.Within rel)
    (hf : ∀ a, (f a).Within rel) : (b >>= f).Within rel := by
  change (Body.bind b f).Within rel
  induction b with
  | returned value => exact hf value
  | raised e => trivial
  | update change next ih => exact ⟨hb.1, ih hb.2⟩
  | read next ih => exact fun s => ih s (hb s)
  | activity a next ih => exact fun reply => ih reply (hb reply)
  | wait condition next ih => exact ih hb

/-- A guarded body stays within the relation when the handler does. -/
theorem Within.tryCatch {b : Body S A R F α} {handler : F → Body S A R F α} (hb : b.Within rel)
    (hhandler : ∀ e, (handler e).Within rel) : (b.tryCatch handler).Within rel := by
  induction b with
  | returned value => trivial
  | raised e => exact hhandler e
  | update change next ih => exact ⟨hb.1, ih hb.2⟩
  | read next ih => exact fun s => ih s (hb s)
  | activity a next ih => exact fun reply => ih reply (hb reply)
  | wait condition next ih => exact ih hb

end Within

end Body

section Within

variable {S A : Type} {R : A → Type} {F D α : Type} {rel : S → S → Prop}

/-- Every change of the object that is still to come lies in the relation. -/
def Stage.Within (rel : S → S → Prop) : Stage S A R F D α → Prop
  | .awaiting _ next _ _ => ∀ reply, (next reply).Within rel
  | .waiting _ next => next.Within rel
  | _ => True

/-- A body within a preorder takes the object upwards, and leaves it at such a stage. -/
theorem Body.Within.drive [IsPreorder S rel] {b : Body S A R F α} (h : b.Within rel) (s : S) :
    rel s (b.drive (D := D) s).1 ∧ (b.drive (D := D) s).2.Within rel := by
  induction b generalizing s with
  | returned value => exact ⟨refl s, trivial⟩
  | raised e => exact ⟨refl s, trivial⟩
  | update change next ih =>
    obtain ⟨hrel, hstage⟩ := ih h.2 (change s)
    exact ⟨trans_of rel (h.1 s) hrel, hstage⟩
  | read next ih => exact ih s (h s) s
  | activity a next _ => exact ⟨refl s, h⟩
  | wait condition next ih =>
    unfold Body.drive
    split
    · exact ih h s
    · exact ⟨refl s, h⟩

end Within

end DurableExecution
