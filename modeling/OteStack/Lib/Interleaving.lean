/-
# OteStack.Lib.Interleaving — programs that share a server, interleaved call by call.

`Sessions` is a server together with the programs (`Proc`) that are talking to it; one step lets one of
them make its next call.  `Safe` is the rely-guarantee judgement for one program: whatever changes of the
server the relation `R` allows happen before each of its calls, the call itself is such a change, and the
result of the program is right (`Q`) in every state that `R` allows from then on.

A preorder `R` under which every program is safe describes every run (`safe_run`): the server only moves
along `R`, and every program stays safe.  `ok` restricts the calls a run may make, as `StepsMeet` does for
steps; with `ok` always true the rule is about all runs.
-/
import Mathlib.Data.Nat.Notation
import OteStack.Lib.Proc
import OteStack.Lib.StepSystem

namespace OteStack.Lib

/-- A server and the programs that share it. -/
structure Sessions (σ q : Type) (r : q → Type) (α : Type) where
  server : σ
  procs : List (Proc q r α)

/-- The result of a program that is done. -/
def Proc.result {q : Type} {r : q → Type} {α : Type} : Proc q r α → Option α
  | .done a => some a
  | .call _ _ => none

namespace Sessions

variable {σ q : Type} {r : q → Type} {α : Type} (serve : σ → (x : q) → r x × σ)

/-- The `i`-th program makes its next call. -/
def step (w : Sessions σ q r α) (i : ℕ) : Option (Sessions σ q r α) :=
  match w.procs[i]? with
  | some (.call x k) => some ⟨(serve w.server x).2, w.procs.set i (k (serve w.server x).1)⟩
  | _ => none

variable {serve}

theorem step_cases {w w' : Sessions σ q r α} {i : ℕ} (h : step serve w i = some w') :
    ∃ x k, w.procs[i]? = some (.call x k) ∧
      w' = ⟨(serve w.server x).2, w.procs.set i (k (serve w.server x).1)⟩ := by
  unfold step at h
  split at h
  · rename_i x k hi
    exact ⟨x, k, hi, (Option.some.inj h).symm⟩
  · exact absurd h (by simp)

/-- The calls of a run are made in states that permit them. -/
def Permits (ok : σ → q → Prop) (w : Sessions σ q r α) (i : ℕ) : Prop :=
  match w.procs[i]? with
  | some (.call x _) => ok w.server x
  | _ => True

instance (ok : σ → q → Prop) [∀ s x, Decidable (ok s x)] (w : Sessions σ q r α) (i : ℕ) :
    Decidable (Permits ok w i) := by
  unfold Permits
  split
  · infer_instance
  · infer_instance

/-- The results of the programs, as far as they have one. -/
def results (w : Sessions σ q r α) : List (Option α) := w.procs.map Proc.result

end Sessions

/-! ## One program among others -/

namespace Proc

variable {σ q : Type} {r : q → Type} {α β : Type} (serve : σ → (x : q) → r x × σ)
  (R : σ → σ → Prop) (ok : σ → q → Prop)

/-- From the state on, every permitted call of the program moves the server along `R`, and its result
satisfies `Q`, whatever moves along `R` the server makes in between. -/
def Safe (Q : α → σ → Prop) : Proc q r α → σ → Prop
  | .done a, s => ∀ s', R s s' → Q a s'
  | .call x k, s => ∀ s', R s s' → ok s' x →
      R s' (serve s' x).2 ∧ Safe Q (k (serve s' x).1) (serve s' x).2

variable {serve R ok} {Q Q' : α → σ → Prop} {s s' : σ}

/-- Moves along `R` keep a program safe. -/
theorem Safe.mono (htrans : ∀ a b c, R a b → R b c → R a c) (hR : R s s') :
    ∀ {p : Proc q r α}, Safe serve R ok Q p s → Safe serve R ok Q p s'
  | .done _, h => fun t ht => h t (htrans _ _ _ hR ht)
  | .call _ _, h => fun t ht hok => h t (htrans _ _ _ hR ht) hok

/-- The postcondition may be weakened. -/
theorem Safe.imp (hQ : ∀ a t, Q a t → Q' a t) :
    ∀ {p : Proc q r α} {s : σ}, Safe serve R ok Q p s → Safe serve R ok Q' p s
  | .done _, _, h => fun t ht => hQ _ t (h t ht)
  | .call _ _, _, h => fun t ht hok => ⟨(h t ht hok).1, Safe.imp hQ (h t ht hok).2⟩

/-- The result stays right. -/
theorem Safe.stable (htrans : ∀ a b c, R a b → R b c → R a c) :
    ∀ {p : Proc q r α} {s : σ}, Safe serve R ok Q p s →
      Safe serve R ok (fun a t => ∀ t', R t t' → Q a t') p s
  | .done _, _, h => fun _ ht _ ht' => h _ (htrans _ _ _ ht ht')
  | .call _ _, _, h => fun t ht hok => ⟨(h t ht hok).1, Safe.stable htrans (h t ht hok).2⟩

/-- What `R` keeps holds at the end if it holds at the start. -/
theorem Safe.frame {P : σ → Prop} (hP : ∀ a b, R a b → P a → P b) :
    ∀ {p : Proc q r α} {s : σ}, Safe serve R ok Q p s → P s →
      Safe serve R ok (fun a t => Q a t ∧ P t) p s
  | .done _, _, h, hs => fun t ht => ⟨h t ht, hP _ t ht hs⟩
  | .call _ _, s, h, hs => fun t ht hok =>
      ⟨(h t ht hok).1, Safe.frame hP (h t ht hok).2 (hP t _ (h t ht hok).1 (hP s t ht hs))⟩

/-- A program that ends at once. -/
theorem Safe.pure {a : α} (h : ∀ t, R s t → Q a t) : Safe serve R ok Q (Pure.pure a) s := h

/-- Programs in sequence: the second one is safe wherever the first one may end. -/
theorem Safe.bind (hrefl : ∀ a, R a a) {Q' : β → σ → Prop} {f : α → Proc q r β} :
    ∀ {p : Proc q r α} {s : σ}, Safe serve R ok (fun a t => Safe serve R ok Q' (f a) t) p s →
      Safe serve R ok Q' (p >>= f) s
  | .done _, s, h => h s (hrefl s)
  | .call _ _, _, h => fun t ht hok => ⟨(h t ht hok).1, Safe.bind hrefl (h t ht hok).2⟩

end Proc

/-! ## All programs together -/

namespace Sessions

variable {σ q : Type} {r : q → Type} {α : Type} {serve : σ → (x : q) → r x × σ}
  {R : σ → σ → Prop} {ok : σ → q → Prop} {Q : ℕ → α → σ → Prop}

/-- Every program is safe. -/
def AllSafe (serve : σ → (x : q) → r x × σ) (R : σ → σ → Prop) (ok : σ → q → Prop)
    (Q : ℕ → α → σ → Prop) (w : Sessions σ q r α) : Prop :=
  ∀ (i : ℕ) (p : Proc q r α), w.procs[i]? = some p → Proc.Safe serve R ok (Q i) p w.server

/-- A permitted step of one program is a move along `R`, so the others stay safe. -/
theorem AllSafe.step (htrans : ∀ a b c, R a b → R b c → R a c) (hrefl : ∀ a, R a a)
    {w w' : Sessions σ q r α} {i : ℕ} (h : AllSafe serve R ok Q w) (hok : Permits ok w i)
    (hstep : Sessions.step serve w i = some w') :
    R w.server w'.server ∧ AllSafe serve R ok Q w' := by
  obtain ⟨x, k, hi, rfl⟩ := step_cases hstep
  have hokx : ok w.server x := by
    unfold Permits at hok
    rw [hi] at hok
    exact hok
  obtain ⟨hmove, hnext⟩ := h i _ hi w.server (hrefl _) hokx
  refine ⟨hmove, ?_⟩
  intro j p hj
  rw [List.getElem?_set] at hj
  split at hj
  · rename_i hij
    subst hij
    split at hj
    · obtain rfl := Option.some.inj hj
      exact hnext
    · exact absurd hj (by simp)
  · exact (h j p hj).mono htrans hmove

/-- What holds of safe programs in every run whose calls are permitted: the server has moved along `R`,
and all programs are safe where it is now. -/
theorem safe_run (htrans : ∀ a b c, R a b → R b c → R a c) (hrefl : ∀ a, R a a)
    {w w' : Sessions σ q r α} {is : List ℕ} (h : AllSafe serve R ok Q w)
    (hok : StepsMeet (Sessions.step serve) (Permits ok) w is)
    (hrun : runSteps (Sessions.step serve) w is = some w') :
    R w.server w'.server ∧ AllSafe serve R ok Q w' := by
  refine runSteps_invariant_of_meet
    (I := fun v => R w.server v.server ∧ AllSafe serve R ok Q v) ?_ ⟨hrefl _, h⟩ hok hrun
  rintro v i v' ⟨hmoved, hsafe⟩ hokv hstep
  obtain ⟨hmove, hsafe'⟩ := hsafe.step htrans hrefl hokv hstep
  exact ⟨htrans _ _ _ hmoved hmove, hsafe'⟩

/-- A program that is done has a right result. -/
theorem AllSafe.result {w : Sessions σ q r α} (hrefl : ∀ a, R a a) (h : AllSafe serve R ok Q w) {i : ℕ}
    {a : α} (hi : w.results[i]? = some (some a)) : Q i a w.server := by
  rw [results, List.getElem?_map, Option.map_eq_some_iff] at hi
  obtain ⟨p, hp, hresult⟩ := hi
  have hsafe := h i p hp
  rcases p with b | ⟨x, k⟩
  · obtain rfl : b = a := Option.some.inj hresult
    exact hsafe _ (hrefl _)
  · exact absurd hresult (by simp [Proc.result])

/-- A run keeps the number of programs. -/
theorem length_procs_run {w w' : Sessions σ q r α} {is : List ℕ}
    (hrun : runSteps (Sessions.step serve) w is = some w') : w'.procs.length = w.procs.length := by
  refine runSteps_invariant (I := fun v => v.procs.length = w.procs.length) ?_ rfl hrun
  intro v i v' hv hstep
  obtain ⟨x, k, -, rfl⟩ := step_cases hstep
  rw [List.length_set, hv]

end Sessions

end OteStack.Lib
