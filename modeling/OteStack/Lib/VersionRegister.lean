/-
# OteStack.Lib.VersionRegister — a register that keeps the highest version written since its last reset.

Writes carry a version and are ignored when a higher one is held; a reset empties the register and is
not versioned.  Without resets the order of the writes does not matter.  With them it does, and the
two facts below say how: what is held at the end is the highest version exactly when its write comes
after every reset (`run_eq_highest_iff`), and nothing is held exactly when nothing follows the last
reset (`run_eq_none_iff`).
-/
import Mathlib.Data.List.Induction
import Mathlib.Order.MinMax

namespace OteStack.Lib

/-- An operation on a register of versions. -/
inductive VersionOp (V : Type*) where
  | write (v : V)
  | reset
  deriving DecidableEq, Repr

namespace VersionOp

variable {V : Type*} [LinearOrder V]

/-- What the register holds after an operation. -/
def apply : Option V → VersionOp V → Option V
  | none, .write v => some v
  | some w, .write v => some (max w v)
  | _, .reset => none

/-- What an empty register holds after a sequence of operations. -/
def run (ops : List (VersionOp V)) : Option V := ops.foldl apply none

theorem run_append_singleton (ops : List (VersionOp V)) (op : VersionOp V) :
    run (ops ++ [op]) = apply (run ops) op := by
  rw [run, List.foldl_append]
  rfl

/-- What is held was written. -/
theorem write_mem_of_run {ops : List (VersionOp V)} {v : V} (h : run ops = some v) :
    .write v ∈ ops := by
  -- induction on the operations, the last one first
  induction ops using List.reverseRecOn generalizing v with
  | nil => cases h
  | append_singleton ops op ih =>
      rw [run_append_singleton] at h
      cases op with
      | reset =>
          cases hrun : run ops with
          | none => simp [hrun, apply] at h
          | some w => simp [hrun, apply] at h
      | write w =>
          cases hrun : run ops with
          | none =>
              simp only [hrun, apply, Option.some.injEq] at h
              simp [h]
          | some u =>
              simp only [hrun, apply, Option.some.injEq] at h
              rcases max_choice u w with hmax | hmax
              · rw [hmax] at h
                subst h
                exact List.mem_append_left _ (ih hrun)
              · rw [hmax] at h
                simp [h]

/-- Nothing is held exactly when nothing follows the last reset. -/
theorem run_eq_none_iff (ops : List (VersionOp V)) :
    run ops = none ↔ ∀ op, ops.getLast? = some op → op = .reset := by
  induction ops using List.reverseRecOn with
  | nil => simp [run]
  | append_singleton ops op _ =>
      rw [run_append_singleton, List.getLast?_append]
      cases op with
      | reset => cases run ops <;> simp [apply]
      | write v => cases run ops <;> simp [apply]

/-- Writes that are not higher leave a held version alone. -/
theorem foldl_apply_of_le {v : V} : ∀ {ops : List (VersionOp V)},
    (∀ op ∈ ops, ∃ w ≤ v, op = .write w) → ops.foldl apply (some v) = some v
  | [], _ => rfl
  | op :: ops, h => by
      obtain ⟨w, hw, rfl⟩ := h op (by simp)
      show ops.foldl apply (some (max v w)) = some v
      rw [max_eq_left hw]
      exact foldl_apply_of_le fun op' hop' => h op' (List.mem_cons_of_mem _ hop')

/-- The highest version is held at the end exactly when its write comes after every reset. -/
theorem run_eq_highest_iff {ops : List (VersionOp V)} {v : V}
    (hmax : ∀ w, .write w ∈ ops → w ≤ v) :
    run ops = some v ↔ ∃ pre post, ops = pre ++ .write v :: post ∧ .reset ∉ post := by
  constructor
  · -- induction on the operations, the last one first
    intro h
    induction ops using List.reverseRecOn with
    | nil => cases h
    | append_singleton ops op ih =>
        rw [run_append_singleton] at h
        cases op with
        | reset => cases hrun : run ops <;> simp [hrun, apply] at h
        | write w =>
            cases hrun : run ops with
            | none =>
                simp only [hrun, apply, Option.some.injEq] at h
                exact ⟨ops, [], by simp [h], by simp⟩
            | some u =>
                simp only [hrun, apply, Option.some.injEq] at h
                rcases max_choice u w with hc | hc
                · rw [hc] at h
                  subst h
                  obtain ⟨pre, post, rfl, hpost⟩ :=
                    ih (fun w hw => hmax w (List.mem_append_left _ hw)) hrun
                  exact ⟨pre, post ++ [.write w], by simp, by simp [hpost]⟩
                · rw [hc] at h
                  exact ⟨ops, [], by simp [h], by simp⟩
  · rintro ⟨pre, post, rfl, hpost⟩
    have hheld : apply (run pre) (.write v) = some v := by
      cases hrun : run pre with
      | none => rfl
      | some u =>
          have hu : u ≤ v := hmax u (List.mem_append_left _ (write_mem_of_run hrun))
          rw [apply, max_eq_right hu]
    have hwrites : ∀ op ∈ post, ∃ w ≤ v, op = .write w := by
      intro op hop
      cases op with
      | reset => exact absurd hop hpost
      | write w =>
          exact ⟨w, hmax w (List.mem_append_right _ (List.mem_cons_of_mem _ hop)), rfl⟩
    calc run (pre ++ .write v :: post)
        = post.foldl apply (apply (run pre) (.write v)) := by rw [run, List.foldl_append]; rfl
      _ = post.foldl apply (some v) := by rw [hheld]
      _ = some v := foldl_apply_of_le hwrites

end VersionOp

end OteStack.Lib
