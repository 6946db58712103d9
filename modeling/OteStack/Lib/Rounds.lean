/-
# OteStack.Lib.Rounds — systems that settle round by round.

What happens in a round is open; that it was one is a relation between the state before it and the state
after it.  `Rounds.levels` is the argument by which such systems settle: if some number of rounds
lifts the state by a level, that number of rounds for every level lifts it to the top.
-/
import Mathlib.Data.Nat.Notation
import OteStack.Lib.StepSystem

namespace OteStack.Lib

variable {σ α : Type*}

/-- A number of rounds, one after the other. -/
inductive Rounds (step : σ → α → Option σ) (Round : σ → σ → Prop) : ℕ → σ → σ → Prop
  | zero (s : σ) : Rounds step Round 0 s s
  | succ {n : ℕ} {s t u : σ} {as : List α} (h : Rounds step Round n s t)
      (hrun : runSteps step t as = some u) (hround : Round t u) : Rounds step Round (n + 1) s u

namespace Rounds

variable {step : σ → α → Option σ} {Round : σ → σ → Prop}

/-- The rounds in two parts. -/
theorem exists_between {m n : ℕ} {s u : σ} (h : Rounds step Round (m + n) s u) :
    ∃ t, Rounds step Round m s t ∧ Rounds step Round n t u := by
  induction n generalizing u with
  | zero => exact ⟨u, h, .zero u⟩
  | succ n ih =>
      cases h with
      | succ h hrun hround =>
          obtain ⟨t, hm, hn⟩ := ih h
          exact ⟨t, hm, hn.succ hrun hround⟩

/-- If `k` rounds lift the state by a level, `k` rounds for every level lift it to the top. -/
theorem levels {P : ℕ → σ → Prop} {k : ℕ}
    (hlevel : ∀ {h s t}, P h s → Rounds step Round k s t → P (h + 1) t) {n : ℕ} {s t : σ} (h₀ : P 0 s)
    (h : Rounds step Round (k * n) s t) : P n t := by
  induction n generalizing t with
  | zero =>
      cases h with
      | zero => exact h₀
  | succ n ih =>
      obtain ⟨u, hn, hk⟩ := exists_between h
      exact hlevel (ih hn) hk

end Rounds

end OteStack.Lib
