/-
# OteStack.Lib.Proc — programs that talk to a server, one call at a time.

A `Proc` is a program cut at its calls: it is done, or it makes a call and goes on with the answer.
`run` executes a whole program against a server without interference.  Because a program keeps its
calls apart, several of them can also be interleaved call by call.

Go's error results are `Except`; its loops over a slice are `forEach`.
-/
import Mathlib.Init

namespace OteStack.Lib

/-- A program making calls `x : q`, answered in `r x`, with a result in `α`. -/
inductive Proc (q : Type) (r : q → Type) (α : Type) where
  | done (a : α)
  | call (x : q) (k : r x → Proc q r α)

namespace Proc

variable {q : Type} {r : q → Type} {α β σ ι : Type}

/-- Go on with the result of a program. -/
def bind : Proc q r α → (α → Proc q r β) → Proc q r β
  | .done a, f => f a
  | .call x k, f => .call x fun y => (k y).bind f

instance : Monad (Proc q r) where
  pure := .done
  bind := bind

/-- A loop that runs a program for every element. -/
def forEach (f : ι → Proc q r Unit) : List ι → Proc q r Unit
  | [] => .done ()
  | i :: l => (f i).bind fun _ => forEach f l

/-- Execute a program against a server, alone. -/
def run (serve : σ → (x : q) → r x × σ) : Proc q r α → σ → α × σ
  | .done a, s => (a, s)
  | .call x k, s => run serve (k (serve s x).1) (serve s x).2

/-- The calls that a program makes, alone, one after the other. -/
def calls (serve : σ → (x : q) → r x × σ) : Proc q r α → σ → List q
  | .done _, _ => []
  | .call x k, s => x :: calls serve (k (serve s x).1) (serve s x).2

/-- Whatever is answered, the calls of the program satisfy `P` and its result `Q`. -/
def Confined (P : q → Prop) (Q : α → Prop) : Proc q r α → Prop
  | .done a => Q a
  | .call x k => P x ∧ ∀ y, (k y).Confined P Q

theorem Confined.bind {P : q → Prop} {Q : α → Prop} {R : β → Prop} {p : Proc q r α} {f : α → Proc q r β}
    (hp : p.Confined P Q) (hf : ∀ a, Q a → (f a).Confined P R) : (p.bind f).Confined P R := by
  induction p with
  | done a => exact hf a hp
  | call x k ih => exact ⟨hp.1, fun y => ih y (hp.2 y)⟩

theorem Confined.forEach {P : q → Prop} {f : ι → Proc q r Unit}
    (hf : ∀ i, (f i).Confined P fun _ => True) (l : List ι) :
    (forEach f l).Confined P fun _ => True := by
  induction l with
  | nil => trivial
  | cons i l ih => exact (hf i).bind fun _ _ => ih

variable (serve : σ → (x : q) → r x × σ)

@[simp] theorem run_done (a : α) (s : σ) : run serve (.done a) s = (a, s) := rfl

@[simp] theorem run_pure (a : α) (s : σ) : run serve (pure a) s = (a, s) := rfl

/-- Running in sequence is running the second program where the first one ended. -/
theorem run_bind (p : Proc q r α) (f : α → Proc q r β) (s : σ) :
    run serve (p.bind f) s = run serve (f (run serve p s).1) (run serve p s).2 := by
  induction p generalizing s with
  | done a => rfl
  | call x k ih => exact ih (serve s x).1 (serve s x).2

@[simp] theorem run_do (p : Proc q r α) (f : α → Proc q r β) (s : σ) :
    run serve (p >>= f) s = run serve (f (run serve p s).1) (run serve p s).2 :=
  run_bind serve p f s

@[simp] theorem calls_pure (a : α) (s : σ) : calls serve (pure a) s = [] := rfl

@[simp] theorem calls_do (p : Proc q r α) (f : α → Proc q r β) (s : σ) :
    calls serve (p >>= f) s = calls serve p s ++ calls serve (f (run serve p s).1) (run serve p s).2 := by
  induction p generalizing s with
  | done a => rfl
  | call x k ih => exact congrArg (x :: ·) (ih (serve s x).1 (serve s x).2)

/-- The state after a loop is the fold of its rounds. -/
theorem run_forEach (f : ι → Proc q r Unit) (l : List ι) (s : σ) :
    (run serve (forEach f l) s).2 = l.foldl (fun s i => (run serve (f i) s).2) s := by
  induction l generalizing s with
  | nil => rfl
  | cons i l ih => rw [forEach, run_bind, ih, List.foldl_cons]

end Proc

end OteStack.Lib
