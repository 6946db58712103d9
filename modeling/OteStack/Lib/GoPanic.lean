/-
# OteStack.Lib.GoPanic — programs that may panic.

A Go program with pointers and maps stops when it reads through a nil pointer or writes to a nil map.
`Go σ α` is a program over a state `σ` that returns or panics; pointers and maps that may be nil are `Option`,
and following a pointer or writing to a map is an operation of the program.
-/
import OteStack.Lib.GoMap

namespace OteStack.Lib

/-- Why a program stops. -/
inductive Panic where
  | nilDereference
  | nilMapWrite
  deriving DecidableEq, Repr

/-- A program over a state. -/
abbrev Go (σ α : Type) := StateT σ (Except Panic) α

namespace Go

variable {σ α β κ ν : Type}

/-- Follow a pointer. -/
def deref : Option α → Go σ α
  | some a => pure a
  | none => throw .nilDereference

/-- Write to a map. -/
def assign [DecidableEq κ] (m : Option (GoMap κ ν)) (k : κ) (v : ν) : Go σ (Option (GoMap κ ν)) :=
  match m with
  | some m => pure (some (m.set k v))
  | none => throw .nilMapWrite

/-- The program panics in the state. -/
def Panics (p : Go σ α) (s : σ) : Prop := ∃ e, p.run s = .error e

instance (p : Go σ α) (s : σ) : Decidable (p.Panics s) :=
  match h : p.run s with
  | .ok _ => .isFalse fun ⟨_, he⟩ => by simp [h] at he
  | .error e => .isTrue ⟨e, h⟩

theorem not_panics_of_run {p : Go σ α} {s s' : σ} {a : α} (h : p.run s = .ok (a, s')) : ¬ p.Panics s := by
  rintro ⟨e, he⟩
  simp [h] at he

@[simp] theorem ok_bind (a : α) (f : α → Except Panic β) : (Except.ok a >>= f) = f a := rfl

@[simp] theorem error_bind (e : Panic) (f : α → Except Panic β) : (Except.error e >>= f) = .error e := rfl

@[simp] theorem run_pure (a : α) (s : σ) : (pure a : Go σ α).run s = .ok (a, s) := rfl

@[simp] theorem run_get (s : σ) : (get : Go σ σ).run s = .ok (s, s) := rfl

@[simp] theorem run_deref_some (a : α) (s : σ) : (deref (some a) : Go σ α).run s = .ok (a, s) := rfl

@[simp] theorem run_deref_none (s : σ) : (deref none : Go σ α).run s = .error .nilDereference := rfl

@[simp] theorem run_assign_some [DecidableEq κ] (m : GoMap κ ν) (k : κ) (v : ν) (s : σ) :
    (assign (some m) k v : Go σ _).run s = .ok (some (m.set k v), s) := rfl

/-! ## Which programs panic -/

@[simp] theorem panics_pure (a : α) (s : σ) : (pure a : Go σ α).Panics s ↔ False :=
  iff_of_false (not_panics_of_run (run_pure a s)) id

@[simp] theorem panics_modify (f : σ → σ) (s : σ) : (modify f : Go σ Unit).Panics s ↔ False :=
  iff_of_false (not_panics_of_run (rfl : (modify f : Go σ Unit).run s = .ok ((), f s))) id

@[simp] theorem panics_bind_get (f : σ → Go σ β) (s : σ) :
    ((get : Go σ σ) >>= f).Panics s ↔ (f s).Panics s := Iff.rfl

@[simp] theorem panics_bind_modify (f : σ → σ) (q : Unit → Go σ β) (s : σ) :
    ((modify f : Go σ Unit) >>= q).Panics s ↔ (q ()).Panics (f s) := Iff.rfl

@[simp] theorem panics_bind_deref_some (a : α) (f : α → Go σ β) (s : σ) :
    ((deref (some a) : Go σ α) >>= f).Panics s ↔ (f a).Panics s := Iff.rfl

@[simp] theorem panics_bind_deref_none (f : α → Go σ β) (s : σ) :
    ((deref none : Go σ α) >>= f).Panics s ↔ True := iff_of_true ⟨.nilDereference, rfl⟩ trivial

@[simp] theorem panics_map (f : α → β) (p : Go σ α) (s : σ) : (f <$> p).Panics s ↔ p.Panics s := by
  unfold Panics
  rw [StateT.run_map]
  cases p.run s <;> simp

/-- After a program that returns, the rest decides. -/
theorem panics_bind_of_run {p : Go σ α} {s s' : σ} {a : α} (h : p.run s = .ok (a, s')) (f : α → Go σ β) :
    (p >>= f).Panics s ↔ (f a).Panics s' := by
  unfold Panics
  rw [StateT.run_bind, h, ok_bind]

/-- A program that panics does so whatever comes after it. -/
theorem panics_bind {p : Go σ α} {s : σ} (h : p.Panics s) (f : α → Go σ β) : (p >>= f).Panics s := by
  obtain ⟨e, he⟩ := h
  refine ⟨e, ?_⟩
  rw [StateT.run_bind, he, error_bind]

/-- A program panics, or what comes after it does, if that depends neither on its result nor on the state. -/
theorem panics_bind_iff {p : Go σ α} {f : α → Go σ β} {P : Prop} (h : ∀ a s, (f a).Panics s ↔ P) (s : σ) :
    (p >>= f).Panics s ↔ p.Panics s ∨ P := by
  cases hp : p.run s with
  | error e => exact iff_of_true (panics_bind ⟨e, hp⟩ f) (Or.inl ⟨e, hp⟩)
  | ok r =>
      have hreturns : ¬ p.Panics s := not_panics_of_run hp
      rw [panics_bind_of_run hp, h]
      simp [hreturns]

end Go

end OteStack.Lib
