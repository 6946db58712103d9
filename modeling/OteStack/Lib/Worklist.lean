/-
# OteStack.Lib.Worklist — work that fans out, handled in any order.

A `Worklist` is a pool of tasks in flight.  Handling one of them emits outputs and puts new tasks in
flight; which task is handled next, and how the choices inside the handling fall (`χ`), is open.
This is the shape of a message passed down a network: every hop is a task, every delivery an output.

Three facts about one handling become facts about every run:

* `emits_le_of_potential` — if a handling never adds to a potential, the outputs of a run weigh no
  more than the tasks it began with (nothing is done twice);
* `kept_of_handle` — if a handling of a marked task emits a marked output or passes the mark on, a
  mark is never lost (nothing is dropped), and likewise `kept_of_step` where only one handling is known;
* `length_le_of_rank` and `exists_complete` — if a handling lowers the total rank, runs are bounded
  and every pool can be worked off.
-/
import Mathlib.Algebra.BigOperators.Group.List.Basic
import Mathlib.Data.List.Perm.Basic
import Mathlib.Tactic.Linarith
import OteStack.Lib.StepSystem

namespace OteStack.Lib

/-- Tasks `τ` that fan out, emitting outputs `ω`, with the open choices of one handling in `χ`. -/
structure Worklist (χ τ ω : Type*) where
  spawn : χ → τ → List τ
  emit : χ → τ → List ω

namespace Worklist

variable {χ τ ω : Type*} (W : Worklist χ τ ω)

/-- The tasks in flight and everything emitted so far. -/
structure Pool (τ ω : Type*) where
  tasks : List τ
  log : List ω

/-- Handle the `i`-th task in flight, with the choices `c`. -/
def step (s : Pool τ ω) (a : χ × ℕ) : Option (Pool τ ω) :=
  s.tasks[a.2]?.map fun t =>
    { tasks := s.tasks.eraseIdx a.2 ++ W.spawn a.1 t, log := s.log ++ W.emit a.1 t }

/-- What one step does: some task leaves, its offspring and its outputs are added. -/
theorem step_cases {s s' : Pool τ ω} {a : χ × ℕ} (h : W.step s a = some s') :
    ∃ t rest, s.tasks.Perm (t :: rest) ∧ s'.tasks = rest ++ W.spawn a.1 t ∧
      s'.log = s.log ++ W.emit a.1 t := by
  obtain ⟨t, ht, rfl⟩ := Option.map_eq_some_iff.mp h
  obtain ⟨hlt, rfl⟩ := List.getElem?_eq_some_iff.mp ht
  exact ⟨_, _, (List.getElem_cons_eraseIdx_perm hlt).symm, rfl, rfl⟩

/-! ## Nothing is done twice -/

/-- A potential that no handling increases bounds what a run can emit. -/
theorem emits_le_of_potential {f : τ → ℕ} {g : ω → ℕ}
    (hle : ∀ c t, ((W.emit c t).map g).sum + ((W.spawn c t).map f).sum ≤ f t)
    {s s' : Pool τ ω} {as : List (χ × ℕ)} (hrun : runSteps W.step s as = some s') :
    (s'.log.map g).sum + (s'.tasks.map f).sum ≤ (s.log.map g).sum + (s.tasks.map f).sum := by
  refine runSteps_invariant (I := fun u => (u.log.map g).sum + (u.tasks.map f).sum ≤
    (s.log.map g).sum + (s.tasks.map f).sum) ?_ le_rfl hrun
  intro u a u' hu hstep
  obtain ⟨t, rest, hperm, htasks, hlog⟩ := W.step_cases hstep
  have hsum : (u.tasks.map f).sum = f t + (rest.map f).sum := by
    rw [(hperm.map f).sum_eq, List.map_cons, List.sum_cons]
  have hstepLe := hle a.1 t
  rw [htasks, hlog, List.map_append, List.map_append, List.sum_append, List.sum_append]
  omega

/-! ## Nothing is lost -/

/-- A mark that every handling either emits or passes on survives every run. -/
theorem kept_of_handle {P : τ → Prop} {Q : ω → Prop}
    (hkeep : ∀ c t, P t → (∃ o ∈ W.emit c t, Q o) ∨ ∃ t' ∈ W.spawn c t, P t')
    {s s' : Pool τ ω} {as : List (χ × ℕ)} (hrun : runSteps W.step s as = some s')
    (hs : (∃ o ∈ s.log, Q o) ∨ ∃ t ∈ s.tasks, P t) :
    (∃ o ∈ s'.log, Q o) ∨ ∃ t ∈ s'.tasks, P t := by
  refine runSteps_invariant (I := fun u => (∃ o ∈ u.log, Q o) ∨ ∃ t ∈ u.tasks, P t) ?_ hs hrun
  intro u a u' hu hstep
  obtain ⟨t, rest, hperm, htasks, hlog⟩ := W.step_cases hstep
  rcases hu with ⟨o, ho, hQ⟩ | ⟨t', ht', hP⟩
  · exact Or.inl ⟨o, by rw [hlog]; exact List.mem_append_left _ ho, hQ⟩
  · rcases List.mem_cons.mp (hperm.mem_iff.mp ht') with rfl | hrest
    · rcases hkeep a.1 t' hP with ⟨o, ho, hQ⟩ | ⟨t'', ht'', hP'⟩
      · exact Or.inl ⟨o, by rw [hlog]; exact List.mem_append_right _ ho, hQ⟩
      · exact Or.inr ⟨t'', by rw [htasks]; exact List.mem_append_right _ ht'', hP'⟩
    · exact Or.inr ⟨t', by rw [htasks]; exact List.mem_append_left _ hrest, hP⟩

/-- A property that every handling passes to its offspring and its outputs holds of all of them. -/
theorem all_of_handle {P : τ → Prop} {Q : ω → Prop}
    (hall : ∀ c t, P t → (∀ o ∈ W.emit c t, Q o) ∧ ∀ t' ∈ W.spawn c t, P t')
    {s s' : Pool τ ω} {as : List (χ × ℕ)} (hrun : runSteps W.step s as = some s')
    (hs : (∀ o ∈ s.log, Q o) ∧ ∀ t ∈ s.tasks, P t) :
    (∀ o ∈ s'.log, Q o) ∧ ∀ t ∈ s'.tasks, P t := by
  refine runSteps_invariant (I := fun u => (∀ o ∈ u.log, Q o) ∧ ∀ t ∈ u.tasks, P t) ?_ hs hrun
  intro u a u' hu hstep
  obtain ⟨t, rest, hperm, htasks, hlog⟩ := W.step_cases hstep
  obtain ⟨hemit, hspawn⟩ := hall a.1 t (hu.2 t (hperm.mem_iff.mpr (by simp)))
  refine ⟨?_, ?_⟩
  · intro o ho
    rw [hlog] at ho
    exact (List.mem_append.mp ho).elim (hu.1 o) (hemit o)
  · intro t' ht'
    rw [htasks] at ht'
    exact (List.mem_append.mp ht').elim
      (fun h => hu.2 t' (hperm.mem_iff.mpr (List.mem_cons_of_mem _ h))) (hspawn t')

/-! ## One handling

The same rules for a single step.  The choices are those of the step, so a rule may rely on how they fall, and a
property may rely on what has been emitted. -/

/-- A mark that the handling of the task emits or passes on survives the step. -/
theorem kept_of_step {P : τ → Prop} {Q : ω → Prop} {s s' : Pool τ ω} {c : χ} {i : ℕ}
    (hkeep : ∀ t, s.tasks[i]? = some t → P t → (∃ o ∈ W.emit c t, Q o) ∨ ∃ t' ∈ W.spawn c t, P t')
    (hstep : W.step s (c, i) = some s') (hs : (∃ o ∈ s.log, Q o) ∨ ∃ t ∈ s.tasks, P t) :
    (∃ o ∈ s'.log, Q o) ∨ ∃ t ∈ s'.tasks, P t := by
  obtain ⟨t, ht, rfl⟩ := Option.map_eq_some_iff.mp hstep
  rcases hs with ⟨o, ho, hQ⟩ | ⟨t', ht', hP⟩
  · exact Or.inl ⟨o, List.mem_append_left _ ho, hQ⟩
  · obtain ⟨hlt, rfl⟩ := List.getElem?_eq_some_iff.mp ht
    rcases List.mem_cons.mp ((List.getElem_cons_eraseIdx_perm hlt).symm.mem_iff.mp ht') with rfl | hrest
    · rcases hkeep _ ht hP with ⟨o, ho, hQ⟩ | ⟨t'', ht'', hP'⟩
      · exact Or.inl ⟨o, List.mem_append_right _ ho, hQ⟩
      · exact Or.inr ⟨t'', List.mem_append_right _ ht'', hP'⟩
    · exact Or.inr ⟨t', List.mem_append_left _ hrest, hP⟩

/-- A task in flight can be handled next. -/
theorem exists_step_of_mem {s : Pool τ ω} {t : τ} (ht : t ∈ s.tasks) (c : χ) :
    ∃ i s', W.step s (c, i) = some s' ∧ (∀ t' ∈ W.spawn c t, t' ∈ s'.tasks) ∧
      ∀ o ∈ W.emit c t, o ∈ s'.log := by
  obtain ⟨i, hi⟩ := List.mem_iff_getElem?.mp ht
  refine ⟨i, _, Option.map_eq_some_iff.mpr ⟨t, hi, rfl⟩, ?_, ?_⟩
  · exact fun t' ht' => List.mem_append_right _ ht'
  · exact fun o ho => List.mem_append_right _ ho

/-- A property that grows with what has been emitted, and that every handling passes on. -/
theorem all_of_step {P : List ω → τ → Prop} {Q : List ω → ω → Prop}
    (hP : ∀ l l' t, P l t → P (l ++ l') t) (hQ : ∀ l l' o, Q l o → Q (l ++ l') o) {c : χ} {i : ℕ}
    (hall : ∀ l t, P l t →
      (∀ o ∈ W.emit c t, Q (l ++ W.emit c t) o) ∧ ∀ t' ∈ W.spawn c t, P (l ++ W.emit c t) t')
    {s s' : Pool τ ω} (hstep : W.step s (c, i) = some s')
    (hs : (∀ o ∈ s.log, Q s.log o) ∧ ∀ t ∈ s.tasks, P s.log t) :
    (∀ o ∈ s'.log, Q s'.log o) ∧ ∀ t ∈ s'.tasks, P s'.log t := by
  obtain ⟨t, rest, hperm, htasks, hlog⟩ := W.step_cases hstep
  obtain ⟨hemit, hspawn⟩ := hall s.log t (hs.2 t (hperm.mem_iff.mpr List.mem_cons_self))
  rw [htasks, hlog]
  refine ⟨?_, ?_⟩
  · intro o ho
    rcases List.mem_append.mp ho with ho | ho
    · exact hQ _ _ o (hs.1 o ho)
    · exact hemit o ho
  · intro t' ht'
    rcases List.mem_append.mp ht' with ht' | ht'
    · exact hP _ _ t' (hs.2 t' (hperm.mem_iff.mpr (List.mem_cons_of_mem t ht')))
    · exact hspawn t' ht'

/-- What the log has after a step it had before, or the handling emitted it and left its offspring in flight. -/
theorem mem_log_of_step {s s' : Pool τ ω} {a : χ × ℕ} (hstep : W.step s a = some s') {o : ω}
    (ho : o ∈ s'.log) : o ∈ s.log ∨ ∃ t ∈ s.tasks, o ∈ W.emit a.1 t ∧ ∀ t' ∈ W.spawn a.1 t, t' ∈ s'.tasks := by
  obtain ⟨t, rest, hperm, htasks, hlog⟩ := W.step_cases hstep
  rw [hlog] at ho
  rcases List.mem_append.mp ho with ho | ho
  · exact Or.inl ho
  · refine Or.inr ⟨t, hperm.mem_iff.mpr List.mem_cons_self, ho, ?_⟩
    intro t' ht'
    rw [htasks]
    exact List.mem_append_right rest ht'

/-! ## Runs end -/

/-- A rank that every handling lowers bounds the number of handlings. -/
theorem length_le_of_rank {r : τ → ℕ}
    (hlt : ∀ c t, ((W.spawn c t).map r).sum < r t) :
    ∀ {as : List (χ × ℕ)} {s s' : Pool τ ω}, runSteps W.step s as = some s' →
      as.length + (s'.tasks.map r).sum ≤ (s.tasks.map r).sum
  | [], s, s', h => by
      obtain rfl : s = s' := Option.some.inj h
      simp
  | a :: as, s, s', h => by
      obtain ⟨u, hu, hrest⟩ := runSteps_cons.mp h
      obtain ⟨t, rest, hperm, htasks, -⟩ := W.step_cases hu
      have ih := length_le_of_rank hlt hrest
      have hsum : (s.tasks.map r).sum = r t + (rest.map r).sum := by
        rw [(hperm.map r).sum_eq, List.map_cons, List.sum_cons]
      have hrank := hlt a.1 t
      rw [htasks, List.map_append, List.sum_append] at ih
      simp only [List.length_cons]
      omega

/-- Under such a rank every pool can be worked off. -/
theorem exists_complete [Inhabited χ] {r : τ → ℕ}
    (hlt : ∀ c t, ((W.spawn c t).map r).sum < r t) (s : Pool τ ω) :
    ∃ as s', runSteps W.step s as = some s' ∧ s'.tasks = [] := by
  -- induction on the total rank in flight
  induction hn : (s.tasks.map r).sum using Nat.strong_induction_on generalizing s with
  | _ n ih =>
    cases htasks : s.tasks with
    | nil => exact ⟨[], s, rfl, htasks⟩
    | cons t rest =>
        have hstep : W.step s (default, 0) =
            some { tasks := rest ++ W.spawn default t, log := s.log ++ W.emit default t } := by
          simp [step, htasks]
        have hdrop : ((rest ++ W.spawn default t).map r).sum < n := by
          have hrank := hlt default t
          rw [← hn, htasks, List.map_append, List.sum_append, List.map_cons, List.sum_cons]
          omega
        obtain ⟨as, s', hrun, hdone⟩ :=
          ih _ hdrop ⟨rest ++ W.spawn default t, s.log ++ W.emit default t⟩ rfl
        exact ⟨(default, 0) :: as, s', runSteps_cons.mpr ⟨_, hstep, hrun⟩, hdone⟩

end Worklist

end OteStack.Lib
