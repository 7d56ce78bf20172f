/-
Scripts: programs that ask, and go on from the answer, until they are done or fail. Who answers is left open, so that
something else can happen between two questions of a script.
-/
import Mathlib.Tactic

namespace Genzh.Lib

/-- A program that asks questions in `Q`, is answered with `R q`, fails with an `E` and returns an `α`. -/
inductive Script {Q : Type} (R : Q → Type) (E α : Type) where
  | done (a : α)
  | fail (e : E)
  | ask (q : Q) (next : R q → Script R E α)

namespace Script

variable {Q : Type} {R : Q → Type} {E α β : Type}

/-- Go on with what the first script returns. -/
def bind : Script R E α → (α → Script R E β) → Script R E β
  | done a, f => f a
  | fail e, _ => fail e
  | ask q next, f => ask q fun r => (next r).bind f

instance : Monad (Script R E) where
  pure := done
  bind := bind

/-- Ask one question. -/
def query (q : Q) : Script R E (R q) := ask q done

/-- A computed result, as `?` passes it on. -/
def lift : Except E α → Script R E α
  | .ok a => done a
  | .error e => fail e

/-- `.ok_or_else(..)?` -/
def found (e : E) : Option α → Script R E α
  | some a => done a
  | none => fail e

/-- Go on only if `c` holds. -/
def ensure (c : Bool) (e : E) : Script R E Unit := if c then done () else fail e

/-- `for a in as`. -/
def forEach : List α → (α → Script R E Unit) → Script R E Unit
  | [], _ => done ()
  | a :: as, f => (f a).bind fun _ => forEach as f

@[simp] theorem pure_eq (a : α) : (pure a : Script R E α) = done a := rfl

@[simp] theorem done_bind (a : α) (f : α → Script R E β) : (done a : Script R E α) >>= f = f a := rfl

@[simp] theorem fail_bind (e : E) (f : α → Script R E β) : (fail e : Script R E α) >>= f = fail e := rfl

@[simp] theorem ask_bind (q : Q) (next : R q → Script R E α) (f : α → Script R E β) :
    ask q next >>= f = ask q fun r => next r >>= f := rfl

@[simp] theorem query_bind (q : Q) (f : R q → Script R E β) : query q >>= f = ask q f := rfl

theorem bind_assoc {γ : Type} (m : Script R E α) (f : α → Script R E β) (g : β → Script R E γ) :
    m >>= f >>= g = m >>= fun a => f a >>= g := by
  induction m with
  | done a => rfl
  | fail e => rfl
  | ask q next ih => exact congrArg (ask q) (funext ih)

theorem bind_done (m : Script R E α) : m >>= done = m := by
  induction m with
  | done a => rfl
  | fail e => rfl
  | ask q next ih => exact congrArg (ask q) (funext ih)

instance : LawfulMonad (Script R E) :=
  LawfulMonad.mk' _ bind_done (fun _ _ => rfl) bind_assoc

@[simp] theorem lift_ok (a : α) : (lift (.ok a) : Script R E α) = done a := rfl

@[simp] theorem lift_error (e : E) : (lift (.error e) : Script R E α) = fail e := rfl

@[simp] theorem ensure_true (e : E) : (ensure true e : Script R E Unit) = done () := rfl

@[simp] theorem ensure_false (e : E) : (ensure false e : Script R E Unit) = fail e := rfl

@[simp] theorem forEach_nil (f : α → Script R E Unit) : forEach [] f = done () := rfl

@[simp] theorem forEach_cons (a : α) (as : List α) (f : α → Script R E Unit) :
    forEach (a :: as) f = f a >>= fun _ => forEach as f := rfl

@[simp] theorem found_some (e : E) (a : α) : (found e (some a) : Script R E α) = done a := rfl

@[simp] theorem found_none (e : E) : (found e none : Script R E α) = fail e := rfl

end Script

end Genzh.Lib
