import Mathlib

/-!
# Scripts: request code as a tree of statements

A request handler talks to the world through *statements* — one SQL query, one storage call, one
look at the clock — and does everything else privately. A `Script` keeps exactly that: the next
statement, and what the code does with each reply. Between two statements of one script any number
of statements of other scripts may run, which is the whole reason for not modelling a handler as a
function of the database.

A statement may fail. `query` is the ordinary call followed by `?`, which turns the failure into
the caller's error; `attempt` hands the failure to the caller. `ensuring q` runs the statement `q`
however the script inside it ends, as a destructor does.

## Implementation notes

The error type is a parameter and `throw` a constructor, rather than layering `ExceptT` on top:
the proof rules then follow the constructors, and a handler is one inductive value.
-/

namespace Interleave

/-- Code that issues statements `q : Q`, is answered in `R q`, or with a failure in `X`, and ends
in `α` or with an error in `ε`. -/
inductive Script {Q : Type} (R : Q → Type) (X ε α : Type) : Type where
  /-- The code has ended well. -/
  | ret (a : α)
  /-- The code has ended with an error. -/
  | throw (e : ε)
  /-- The next statement, and the rest for each answer. -/
  | call (q : Q) (k : Except X (R q) → Script R X ε α)

/-- The source's `From` conversion from a failed statement to an error of its own. -/
class Raises (X ε : Type) where
  raise : X → ε

instance {X : Type} : Raises X X := ⟨id⟩

namespace Script

variable {Q : Type} {R : Q → Type} {X ε ε' α β : Type}

/-- Sequencing; an error skips the rest. -/
def bind : Script R X ε α → (α → Script R X ε β) → Script R X ε β
  | ret a, f => f a
  | throw e, _ => throw e
  | call q k, f => call q fun r => (k r).bind f

instance : Monad (Script R X ε) where
  pure := ret
  bind := bind

instance : MonadExceptOf ε (Script R X ε) where
  throw := throw
  tryCatch x h :=
    let rec go : Script R X ε _ → Script R X ε _
      | ret a => ret a
      | throw e => h e
      | call q k => call q fun r => go (k r)
    go x

@[simp] theorem pure_eq (a : α) : (Pure.pure a : Script R X ε α) = ret a := rfl

@[simp] theorem throw_eq (e : ε) : (MonadExcept.throw e : Script R X ε α) = throw e := rfl

@[simp] theorem ret_bind (a : α) (f : α → Script R X ε β) : (ret a >>= f) = f a := rfl

@[simp] theorem throw_bind (e : ε) (f : α → Script R X ε β) : (throw e >>= f) = throw e := rfl

@[simp] theorem call_bind (q : Q) (k : Except X (R q) → Script R X ε α)
    (f : α → Script R X ε β) : (call q k >>= f) = call q fun r => k r >>= f := rfl

theorem bind_assoc {γ : Type} (x : Script R X ε α) (f : α → Script R X ε β)
    (g : β → Script R X ε γ) : x >>= f >>= g = x >>= fun a => f a >>= g := by
  induction x with
  | ret a => rfl
  | throw e => rfl
  | call q k ih => exact congrArg (call q) (funext ih)

/-- One statement, a failure of which is the caller's error. -/
def query [Raises X ε] (q : Q) : Script R X ε (R q) :=
  call q fun
    | .ok a => ret a
    | .error x => throw (Raises.raise x)

/-- One statement, a failure of which the caller handles itself. -/
def attempt (q : Q) : Script R X ε (Except X (R q)) := call q ret

/-- `Result::map_err` on a whole piece of code. -/
def mapError (f : ε → ε') : Script R X ε α → Script R X ε' α
  | ret a => ret a
  | throw e => throw (f e)
  | call q k => call q fun r => (k r).mapError f

/-- The outcome as a value: code that looks at a `Result` instead of passing it on. -/
def result : Script R X ε α → Script R X ε' (Except ε α)
  | ret a => ret (.ok a)
  | throw e => ret (.error e)
  | call q k => call q fun r => (k r).result

/-- `q` runs when the script ends, however it ends; its own reply is ignored. -/
def ensuring (q : Q) : Script R X ε α → Script R X ε α
  | ret a => call q fun _ => ret a
  | throw e => call q fun _ => throw e
  | call q' k => call q' fun r => (k r).ensuring q

/-- An `if` without `else`. -/
def when (c : Bool) (x : Script R X ε Unit) : Script R X ε Unit := if c then x else ret ()

/-- A value that need not be there; where it is not, the code ends with `e`. -/
def unwrap (e : ε) : Option α → Script R X ε α
  | some a => ret a
  | none => throw e

/-- A `for` loop without `break`. -/
def forEach (f : β → Script R X ε Unit) : List β → Script R X ε Unit
  | [] => ret ()
  | b :: bs => f b >>= fun _ => forEach f bs

end Script

end Interleave
