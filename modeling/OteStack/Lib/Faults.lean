/-
# OteStack.Lib.Faults — a server whose calls may fail.

A call to a server over a network is served, or refused without effect, or served with the answer lost:
the caller sees an error in both of the last cases.  A pattern of failures is the list of what happens to
the calls in turn; calls after its end are served.
-/
import OteStack.Lib.Proc

namespace OteStack.Lib

/-- What happens to a call. -/
inductive Fate (ε : Type) where
  | served
  | refused (err : ε)
  | lost (err : ε)
  deriving DecidableEq, Repr

namespace Fate

variable {ε : Type}

/-- The caller gets the server's answer. -/
def Answered : Fate ε → Prop
  | served => True
  | _ => False

/-- The server has carried out the call. -/
def Applied : Fate ε → Prop
  | refused _ => False
  | _ => True

instance (f : Fate ε) : Decidable f.Answered :=
  match f with
  | served => .isTrue trivial
  | refused _ => .isFalse id
  | lost _ => .isFalse id

instance (f : Fate ε) : Decidable f.Applied :=
  match f with
  | served => .isTrue trivial
  | refused _ => .isFalse id
  | lost _ => .isTrue trivial

/-- The fate of the next call of a pattern. -/
def next (fates : List (Fate ε)) : Fate ε := fates.headD served

end Fate

/-- A server whose answers may be errors in `ε`, under a pattern of failures. -/
def withFaults {q : Type} {r : q → Type} {ε σ : Type} (serve : σ → (x : q) → Except ε (r x) × σ) :
    σ × List (Fate ε) → (x : q) → Except ε (r x) × (σ × List (Fate ε))
  | (s, fates), x =>
      match Fate.next fates with
      | .served => ((serve s x).1, (serve s x).2, fates.tail)
      | .refused err => (.error err, s, fates.tail)
      | .lost err => (.error err, (serve s x).2, fates.tail)

section

variable {q : Type} {r : q → Type} {ε σ α : Type} (serve : σ → (x : q) → Except ε (r x) × σ)

/-- The answer to a call is the server's, or an error; with an error the call may have been served or not. -/
theorem run_withFaults_call (x : q) (s : σ) (fates : List (Fate ε)) :
    ∃ y s', Proc.run (withFaults serve) (.call x .done : Proc q (fun x => Except ε (r x)) (Except ε (r x)))
        (s, fates) = (y, s', fates.tail) ∧
      ((y = (serve s x).1 ∧ s' = (serve s x).2) ∨ ∃ err, y = .error err ∧ (s' = s ∨ s' = (serve s x).2)) := by
  rw [Proc.run, withFaults]
  cases Fate.next fates with
  | served => exact ⟨_, _, rfl, Or.inl ⟨rfl, rfl⟩⟩
  | refused err => exact ⟨_, _, rfl, Or.inr ⟨err, rfl, Or.inl rfl⟩⟩
  | lost err => exact ⟨_, _, rfl, Or.inr ⟨err, rfl, Or.inr rfl⟩⟩

/-- What the calls of a program keep, the program keeps whatever fails. -/
theorem run_withFaults_confined {I : σ → Prop} {P : q → Prop} {Q : α → Prop}
    (hI : ∀ {s x}, P x → I s → I (serve s x).2) {p : Proc q (fun x => Except ε (r x)) α}
    (hp : p.Confined P Q) {s : σ} (fates : List (Fate ε)) (h : I s) :
    Q (Proc.run (withFaults serve) p (s, fates)).1 ∧ I (Proc.run (withFaults serve) p (s, fates)).2.1 := by
  induction p generalizing s fates with
  | done a => exact ⟨hp, h⟩
  | call x k ih =>
      rw [Proc.run, withFaults]
      split
      · exact ih _ (hp.2 _) _ (hI hp.1 h)
      · exact ih _ (hp.2 _) _ h
      · exact ih _ (hp.2 _) _ (hI hp.1 h)

end

end OteStack.Lib
