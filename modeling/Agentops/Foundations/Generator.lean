import Mathlib.Data.List.Basic

/-!
# Generators with exceptions

A block of a generator yields values in order and comes to its end in one of three ways: the next statement
follows, the generator returns, or an exception is raised. An exception handler takes over what is raised in
its block, and a block of clean-up is run however the block before it ends.
-/

namespace Generators

variable {Y E A B : Type}

/-- How a block comes to its end. -/
inductive Exit (E A : Type)
  | next (value : A)
  | returned
  | raised (exception : E)
  deriving DecidableEq, Repr

/-- What a block yields, in order, and how it is left. -/
structure Block (Y E A : Type) where
  yields : List Y
  exit : Exit E A
  deriving DecidableEq, Repr

namespace Block

/-- One block after the other. -/
def andThen (first : Block Y E A) (second : A → Block Y E B) : Block Y E B :=
  match first.exit with
  | .next value => ⟨first.yields ++ (second value).yields, (second value).exit⟩
  | .returned => ⟨first.yields, .returned⟩
  | .raised exception => ⟨first.yields, .raised exception⟩

/-- Blocks follow each other until one is left early. -/
instance : Monad (Block Y E) where
  pure value := ⟨[], .next value⟩
  bind := andThen

/-- `yield value`. -/
def yield (value : Y) : Block Y E Unit := ⟨[value], .next ()⟩

/-- `return`. -/
def leave : Block Y E A := ⟨[], .returned⟩

/-- `raise exception`. -/
def raise (exception : E) : Block Y E A := ⟨[], .raised exception⟩

/-- `try` with its `except`; `none` for the exceptions that it does not catch. -/
def tryExcept (body : Block Y E A) (handler : E → Option (Block Y E A)) : Block Y E A :=
  match body.exit with
  | .raised exception =>
    match handler exception with
    | some handled => ⟨body.yields ++ handled.yields, handled.exit⟩
    | none => body
  | _ => body

/-- `try` with its `finally`. -/
def tryFinally (body : Block Y E A) (cleanup : Block Y E Unit) : Block Y E A :=
  match cleanup.exit with
  | .next _ => ⟨body.yields ++ cleanup.yields, body.exit⟩
  | .returned => ⟨body.yields ++ cleanup.yields, .returned⟩
  | .raised exception => ⟨body.yields ++ cleanup.yields, .raised exception⟩

section Rules

variable {values values' : List Y} {value : A} {exception : E} {f : A → Block Y E B}
  {handler : E → Option (Block Y E A)}

/-- A value alone yields nothing. -/
@[simp] theorem pure_eq (value : A) : (pure value : Block Y E A) = ⟨[], .next value⟩ := rfl

/-- A block that goes on is followed by the next one. -/
@[simp] theorem bind_next : ((⟨values, .next value⟩ : Block Y E A) >>= f) =
    ⟨values ++ (f value).yields, (f value).exit⟩ := rfl

/-- Behind a `return` nothing is executed. -/
@[simp] theorem bind_returned : ((⟨values, .returned⟩ : Block Y E A) >>= f) = ⟨values, .returned⟩ := rfl

/-- Nor is it behind an exception. -/
@[simp] theorem bind_raised : ((⟨values, .raised exception⟩ : Block Y E A) >>= f) = ⟨values, .raised exception⟩ := rfl

/-- Without an exception the handler is not executed. -/
@[simp] theorem tryExcept_next : (⟨values, .next value⟩ : Block Y E A).tryExcept handler = ⟨values, .next value⟩ :=
  rfl

/-- Nor is it for a `return`. -/
@[simp] theorem tryExcept_returned : (⟨values, .returned⟩ : Block Y E A).tryExcept handler = ⟨values, .returned⟩ :=
  rfl

/-- A `finally` that goes on leaves the exit as it was. -/
@[simp] theorem tryFinally_next (body : Block Y E A) :
    body.tryFinally ⟨values, .next ()⟩ = ⟨body.yields ++ values, body.exit⟩ := rfl

end Rules

end Block

end Generators
