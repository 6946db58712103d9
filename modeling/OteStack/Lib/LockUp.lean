/-
# OteStack.Lib.LockUp — when threads that share a `sync.RWMutex` wait for each other, and when they race.

A thread may hold several read locks.  That is where the mutex can lock up: a reader that asks for a
second read lock behind a waiting writer waits for a writer that waits for it (`Caught`).

* `canFinish_iff`: the threads can all finish from exactly the states that are not caught;
* `exists_caught_iff`: some schedule gets caught exactly when one program takes a read lock under a
  read lock and another one takes the write lock;
* `exists_race_iff`: some schedule lets two threads meet at a table of which one of them writes, exactly
  when one of two such accesses is made without a lock.
-/
import Mathlib.Algebra.Order.BigOperators.Group.Finset
import OteStack.Lib.RWMutex

namespace OteStack.Lib.RWMutex

variable {ι R : Type*}

/-! ## Getting caught -/

/-- A thread that holds `n` read locks asks for another one before it has released them all. -/
def relocks : ℕ → List (LockOp R) → Bool
  | _ + 1, .rLock :: _ => true
  | n + 1, .rUnlock :: rest => relocks n rest
  | n + 1, .access _ _ :: rest => relocks (n + 1) rest
  | _, _ => false

/-- The thread holds a read lock and comes to ask for another one. -/
def Thread.Relocks (t : Thread R) : Prop := ∃ n, t.mode = .reading n ∧ relocks n t.rest = true

/-- A writer waits for a thread that is about to wait for the writer. -/
def State.Caught (s : State ι R) : Prop :=
  ∃ w j, s.writer = some w ∧ (s.threads w).mode = .reading 0 ∧ (s.threads j).Relocks

section Caught

variable {progs : ι → List (LockOp R)} {s s' : State ι R} {i j : ι} {t t' : Thread R} {op : LockOp R}

theorem Thread.Relocks.mode_ne (h : t.Relocks) : t.mode ≠ .reading 0 := by
  obtain ⟨n, hn, hre⟩ := h
  intro h0
  obtain rfl : n = 0 := by simpa [hn] using h0
  simp [relocks] at hre

/-- Until it comes to the read lock that it waits for, such a thread stays one. -/
theorem Thread.Relocks.next (h : t.Relocks) (hnext : t.next = some (op, t')) :
    op = .rLock ∨ t'.Relocks := by
  obtain ⟨n, hn, hre⟩ := h
  obtain ⟨rest, m, hrest, hm, rfl⟩ := Thread.next_eq_some.mp hnext
  rw [hrest] at hre
  rw [hn] at hm
  cases n with
  | zero => simp [relocks] at hre
  | succ n =>
      cases op with
      | rLock => exact Or.inl rfl
      | rUnlock =>
          obtain rfl : Mode.reading n = m := by simpa [Mode.advance] using hm
          exact Or.inr ⟨n, rfl, hre⟩
      | lock => simp [Mode.advance] at hm
      | unlock => simp [Mode.advance] at hm
      | access x w =>
          obtain rfl : Mode.reading (n + 1) = m := by simpa [Mode.advance] using hm
          exact Or.inr ⟨n + 1, rfl, hre⟩

/-- The operation for which a thread counts as one. -/
theorem exists_use_of_relocks {n : ℕ} {p : List (LockOp R)} (h : relocks n p = true) :
    ∃ k, (Mode.reading (k + 1), LockOp.rLock) ∈ uses (.reading n) p := by
  fun_induction relocks n p with
  | case1 n rest => exact ⟨n, List.mem_cons_self⟩
  | case2 n rest ih =>
      obtain ⟨k, hk⟩ := ih h
      exact ⟨k, List.mem_cons_of_mem _ hk⟩
  | case3 n x w rest ih =>
      obtain ⟨k, hk⟩ := ih h
      exact ⟨k, List.mem_cons_of_mem _ hk⟩
  | case4 => cases h

theorem State.Caught.not_finished (h : s.Caught) : ¬ s.Finished := by
  obtain ⟨w, j, -, -, n, -, hre⟩ := h
  intro hfin
  rw [hfin j] at hre
  cases n with
  | zero => cases hre
  | succ n => cases hre

variable [DecidableEq ι]

theorem State.Caught.put (h : s.Caught) (hnext : (s.threads i).next = some (op, t))
    (hop : op ≠ .rLock) (hfree : (s.threads i).mode = .reading 0 → t.mode = .reading 0) :
    (s.put i t).Caught := by
  obtain ⟨w, j, hw, hfw, hj⟩ := h
  refine ⟨w, j, hw, ?_, ?_⟩
  · by_cases hwi : w = i
    · subst hwi
      rw [State.put_self]
      exact hfree hfw
    · rwa [State.put_of_ne s t hwi]
  · by_cases hji : j = i
    · subst hji
      rw [State.put_self]
      exact (hj.next hnext).resolve_left hop
    · rwa [State.put_of_ne s t hji]

/-- Who is caught stays caught, whoever moves. -/
theorem State.Caught.step [Fintype ι] (hs : Sound progs s) (h : s.Caught)
    (hstep : s.step i = some s') : s'.Caught := by
  cases State.transition_of_step hstep with
  | enter _ _ hnone =>
      obtain ⟨w, j, hw, -, -⟩ := h
      rw [hnone] at hw
      cases hw
  | park hnext _ _ =>
      obtain ⟨w, j, hw, hfw, hj⟩ := h
      refine ⟨w, j, hw, ?_, ?_⟩
      · by_cases hwi : w = i
        · subst hwi
          rwa [State.put_self]
        · rwa [State.put_of_ne s _ hwi]
      · by_cases hji : j = i
        · subst hji
          rw [State.put_self]
          exact hj
        · rwa [State.put_of_ne s _ hji]
  | announce _ hnone =>
      obtain ⟨w, j, hw, -, -⟩ := h
      rw [hnone] at hw
      cases hw
  | acquire _ _ hunread =>
      obtain ⟨w, j, -, -, hj⟩ := h
      exact absurd (hunread j) hj.mode_ne
  | release hnext =>
      -- the writer that waits is the one that would have to be writing
      obtain ⟨w, j, hw, hfw, -⟩ := h
      have hi := (Thread.mode_of_next_unlock hnext).1
      obtain rfl : w = i := Option.some.inj (hw.symm.trans (hs.alone i hi).1)
      rw [hi] at hfw
      cases hfw
  | rUnlock hnext =>
      obtain ⟨n, hn, -⟩ := Thread.mode_of_next_rUnlock hnext
      exact h.put hnext (by simp) (by simp [hn])
  | access hnext =>
      have hmode := Thread.mode_of_next_access hnext
      exact h.put hnext (by simp) (by rw [hmode]; exact id)

end Caught

/-! ## Finishing -/

section Finish

variable {progs : ι → List (LockOp R)} {s s' : State ι R} {i j : ι} {t t' : Thread R} {op : LockOp R}

/-- A thread of a balanced program that has something left to do comes to its next operation. -/
theorem Thread.Follows.exists_next {p : List (LockOp R)} (h : t.Follows p) (hp : Balanced p)
    (hrest : t.rest ≠ []) : ∃ op t', t.next = some (op, t') := by
  have hbal := h.rest_balanced hp
  obtain ⟨op, rest, hcons⟩ := List.exists_cons_of_ne_nil hrest
  rw [hcons] at hbal
  obtain ⟨m, hm, -⟩ := runSteps_cons.mp hbal
  exact ⟨op, _, Thread.next_eq_some.mpr ⟨rest, m, hcons, hm, rfl⟩⟩

/-- Who holds a lock has something left to do. -/
theorem Thread.Follows.rest_ne_nil {p : List (LockOp R)} (h : t.Follows p) (hp : Balanced p)
    (hmode : t.mode ≠ .reading 0) : t.rest ≠ [] := by
  intro hnil
  have hbal := h.rest_balanced hp
  rw [hnil] at hbal
  exact hmode (Option.some.inj hbal)

/-- Releasing a read lock and accessing a table do not make a thread ask for a second lock. -/
theorem Thread.Relocks.of_next (h : t'.Relocks) (hnext : t.next = some (op, t'))
    (hop : op = .rUnlock ∨ ∃ x w, op = .access x w) : t.Relocks := by
  obtain ⟨n, hn, hre⟩ := h
  obtain ⟨rest, m, hrest, hm, rfl⟩ := Thread.next_eq_some.mp hnext
  rcases hop with rfl | ⟨x, w, rfl⟩
  · obtain ⟨k, hk, hk'⟩ := Thread.mode_of_next_rUnlock hnext
    obtain rfl : k = n := Mode.reading.inj (hk'.symm.trans hn)
    exact ⟨k + 1, hk, by rw [hrest]; exact hre⟩
  · have hmode : t.mode = .reading n := (Thread.mode_of_next_access hnext).symm.trans hn
    refine ⟨n, hmode, ?_⟩
    rw [hrest]
    cases n with
    | zero => cases rest <;> cases hre
    | succ n => exact hre

theorem Thread.length_rest_of_next (h : t.next = some (op, t')) :
    t'.rest.length < t.rest.length := by
  obtain ⟨rest, m, hrest, -, rfl⟩ := Thread.next_eq_some.mp h
  simp [hrest]

theorem Thread.length_rest_letIn_le (t : Thread R) : t.letIn.rest.length ≤ t.rest.length := by
  unfold Thread.letIn
  split
  · next t' hnext => exact (Thread.length_rest_of_next hnext).le
  · exact le_rfl

theorem State.not_caught_of_writer (hw : s.writer = none) : ¬ s.Caught := by
  rintro ⟨w, j, hsome, -, -⟩
  rw [hw] at hsome
  cases hsome

variable [Fintype ι]

/-- What is left to do; an announcement counts as a half of the operation it belongs to. -/
def State.weight (s : State ι R) : ℕ :=
  2 * (∑ i, (s.threads i).rest.length) + if s.writer = none then 1 else 0

/-- Doing an operation makes the rest smaller, whatever becomes of the mutex. -/
theorem State.weight_lt (hle : ∀ j, (s'.threads j).rest.length ≤ (s.threads j).rest.length)
    (hlt : (s'.threads i).rest.length < (s.threads i).rest.length) : s'.weight < s.weight := by
  have hsum : ∑ j, (s'.threads j).rest.length < ∑ j, (s.threads j).rest.length :=
    Finset.sum_lt_sum (fun j _ => hle j) ⟨i, Finset.mem_univ i, hlt⟩
  unfold State.weight
  split <;> split <;> omega

theorem State.weight_announce (hw : s.writer = none) :
    State.weight { s with writer := some i } < s.weight := by
  simp [State.weight, hw]

variable [DecidableEq ι]

theorem State.weight_put (hnext : (s.threads i).next = some (op, t)) :
    (s.put i t).weight < s.weight := by
  have hlt := Thread.length_rest_of_next hnext
  refine State.weight_lt (i := i) (fun j => ?_) (by rwa [State.put_self])
  by_cases hji : j = i
  · subst hji
    rw [State.put_self]
    exact hlt.le
  · rw [State.put_of_ne s t hji]

theorem State.weight_release (hnext : (s.threads i).next = some (op, t)) :
    (s.release i t).weight < s.weight := by
  have hlt := Thread.length_rest_of_next hnext
  refine State.weight_lt (i := i) (fun j => ?_) (by rwa [State.release_self])
  by_cases hji : j = i
  · subst hji
    rw [State.release_self]
    exact hlt.le
  · rw [State.release_of_ne s t hji]
    exact Thread.length_rest_letIn_le _

/-- A good move: the threads get on and nobody is caught by it. -/
def State.GoodMove (s : State ι R) : Prop :=
  ∃ i s', s.step i = some s' ∧ ¬ s'.Caught ∧ s'.weight < s.weight

/-- While nobody has called `Lock`, whoever holds a lock can go on; if nobody does, anybody can. -/
theorem goodMove_of_no_writer (h : Sound progs s) (hw : s.writer = none)
    (hnext : (s.threads i).next = some (op, t))
    (hfree : s.Unread ∨ (s.threads i).mode ≠ .reading 0) : s.GoodMove := by
  cases op with
  | rLock =>
      refine ⟨i, s.put i t, ?_, State.not_caught_of_writer hw, State.weight_put hnext⟩
      simp [State.step, hnext, hw, h.not_parked hw i]
  | rUnlock =>
      exact ⟨i, s.put i t, by simp [State.step, hnext], State.not_caught_of_writer hw,
        State.weight_put hnext⟩
  | access x w =>
      exact ⟨i, s.put i t, by simp [State.step, hnext], State.not_caught_of_writer hw,
        State.weight_put hnext⟩
  | unlock => exact absurd (Thread.mode_of_next_unlock hnext).1 (h.not_writing hw i)
  | lock =>
      -- nobody holds a lock, so there is nobody to be caught by the announcement
      have hunread : s.Unread := hfree.resolve_right fun hne => hne (Thread.mode_of_next_lock hnext).1
      refine ⟨i, { s with writer := some i }, by simp [State.step, hnext, hw], ?_,
        State.weight_announce hw⟩
      rintro ⟨_, j, -, -, hj⟩
      exact hj.mode_ne (hunread j)

/-- The thread that has the write lock can go on. -/
theorem goodMove_of_writing (h : Sound progs s) (hbal : ∀ i, Balanced (progs i))
    (hmode : (s.threads i).mode = .writing) : s.GoodMove := by
  have hw := (h.alone i hmode).1
  obtain ⟨op, t, hnext⟩ := (h.follows i).exists_next (hbal i)
    ((h.follows i).rest_ne_nil (hbal i) (by simp [hmode]))
  cases op with
  | rLock =>
      obtain ⟨n, hn, -⟩ := Thread.mode_of_next_rLock hnext
      rw [hmode] at hn
      cases hn
  | rUnlock =>
      obtain ⟨n, hn, -⟩ := Thread.mode_of_next_rUnlock hnext
      rw [hmode] at hn
      cases hn
  | lock =>
      have hn := (Thread.mode_of_next_lock hnext).1
      rw [hmode] at hn
      cases hn
  | unlock =>
      exact ⟨i, s.release i t, by simp [State.step, hnext], State.not_caught_of_writer rfl,
        State.weight_release hnext⟩
  | access x w =>
      refine ⟨i, s.put i t, by simp [State.step, hnext], ?_, State.weight_put hnext⟩
      rintro ⟨v, j, hv, hfree, -⟩
      obtain rfl : i = v := Option.some.inj (hw.symm.trans hv)
      rw [State.put_self, Thread.mode_of_next_access hnext, hmode] at hfree
      cases hfree

/-- While a writer waits, a thread that holds a read lock and does not ask for another can go on. -/
theorem goodMove_of_reader (h : Sound progs s) (hbal : ∀ i, Balanced (progs i)) (hc : ¬ s.Caught)
    {w : ι} (hw : s.writer = some w) (hfree : (s.threads w).mode = .reading 0)
    (hmode : (s.threads j).mode ≠ .reading 0) : s.GoodMove := by
  obtain ⟨op, t, hnext⟩ := (h.follows j).exists_next (hbal j)
    ((h.follows j).rest_ne_nil (hbal j) hmode)
  have hre : ¬ (s.threads j).Relocks := fun hre => hc ⟨w, j, hw, hfree, hre⟩
  have hwj : w ≠ j := by
    rintro rfl
    exact hmode hfree
  have hgood : (op = .rUnlock ∨ ∃ x v, op = .access x v) → s.GoodMove := by
    intro hop
    refine ⟨j, s.put j t, ?_, ?_, State.weight_put hnext⟩
    · rcases hop with rfl | ⟨x, v, rfl⟩
      · simp [State.step, hnext]
      · simp [State.step, hnext]
    · rintro ⟨w', k, hw', hfree', hk⟩
      obtain rfl : w = w' := Option.some.inj (hw.symm.trans hw')
      by_cases hkj : k = j
      · subst hkj
        rw [State.put_self] at hk
        exact hre (hk.of_next hnext hop)
      · rw [State.put_of_ne s t hkj] at hk
        exact hc ⟨w, k, hw, hfree, hk⟩
  cases op with
  | rLock =>
      obtain ⟨n, hn, -⟩ := Thread.mode_of_next_rLock hnext
      obtain ⟨rest, m, hrest, -, -⟩ := Thread.next_eq_some.mp hnext
      cases n with
      | zero => exact absurd hn hmode
      | succ n => exact absurd ⟨n + 1, hn, by rw [hrest]; rfl⟩ hre
  | lock => exact absurd (Thread.mode_of_next_lock hnext).1 hmode
  | unlock =>
      have hi := (Thread.mode_of_next_unlock hnext).1
      exact absurd (Option.some.inj (hw.symm.trans (h.alone j hi).1)) hwj
  | rUnlock => exact hgood (Or.inl rfl)
  | access x v => exact hgood (Or.inr ⟨x, v, rfl⟩)

/-- As long as nobody is caught and somebody is not through, there is a good move. -/
theorem goodMove_of_not_caught (h : Sound progs s) (hbal : ∀ i, Balanced (progs i)) (hc : ¬ s.Caught)
    (hfin : ¬ s.Finished) : s.GoodMove := by
  cases hw : s.writer with
  | none =>
      by_cases hunread : s.Unread
      · obtain ⟨i, hi⟩ := not_forall.mp hfin
        obtain ⟨op, t, hnext⟩ := (h.follows i).exists_next (hbal i) hi
        exact goodMove_of_no_writer h hw hnext (Or.inl hunread)
      · obtain ⟨i, hi⟩ := not_forall.mp hunread
        obtain ⟨op, t, hnext⟩ := (h.follows i).exists_next (hbal i)
          ((h.follows i).rest_ne_nil (hbal i) hi)
        exact goodMove_of_no_writer h hw hnext (Or.inr hi)
  | some w =>
      rcases h.pending w hw with hmode | ⟨t, hnext⟩
      · exact goodMove_of_writing h hbal hmode
      · by_cases hunread : s.Unread
        · refine ⟨w, s.put w t, by simp [State.step, hnext, hw, hunread], ?_, State.weight_put hnext⟩
          rintro ⟨w', j, hw', hfree, -⟩
          obtain rfl : w = w' := Option.some.inj (hw.symm.trans hw')
          rw [State.put_self, (Thread.mode_of_next_lock hnext).2] at hfree
          cases hfree
        · obtain ⟨j, hj⟩ := not_forall.mp hunread
          exact goodMove_of_reader h hbal hc hw (Thread.mode_of_next_lock hnext).1 hj

/-- From a state of a run the threads can all finish, if and only if nobody is caught. -/
theorem canFinish_iff (hbal : ∀ i, Balanced (progs i)) (h : Sound progs s) :
    (∃ as u, runSteps State.step s as = some u ∧ u.Finished) ↔ ¬ s.Caught := by
  constructor
  · rintro ⟨as, u, hrun, hfin⟩ hc
    have hu := runSteps_invariant (I := fun u => Sound progs u ∧ u.Caught)
      (fun hI hstep => ⟨hI.1.step hstep, hI.2.step hI.1 hstep⟩) ⟨h, hc⟩ hrun
    exact hu.2.not_finished hfin
  · intro hc
    have hprogress : ∀ {u : State ι R}, Sound progs u ∧ ¬ u.Caught → ¬ u.Finished →
        ∃ i u', True ∧ u.step i = some u' ∧ (Sound progs u' ∧ ¬ u'.Caught) ∧ u'.weight < u.weight := by
      intro u hI hD
      obtain ⟨i, u', hstep, hu', hlt⟩ := goodMove_of_not_caught hI.1 hbal hI.2 hD
      exact ⟨i, u', trivial, hstep, ⟨hI.1.step hstep, hu'⟩, hlt⟩
    obtain ⟨as, u, -, hrun, -, hfin⟩ := exists_run_until hprogress ⟨h, hc⟩
    exact ⟨as, u, hrun, hfin⟩

end Finish

/-! ## Which programs get caught, and which meet -/

section Solo

variable {progs : ι → List (LockOp R)} {s : State ι R} {i : ι}

/-- Only the thread `i` may hold anything. -/
structure State.Solo (s : State ι R) (i : ι) : Prop where
  writer : s.writer = if (s.threads i).mode = .writing then some i else none
  free : ∀ j, j ≠ i → (s.threads j).mode = .reading 0 ∧ (s.threads j).parked = false
  own : (s.threads i).parked = false

theorem solo_start (progs : ι → List (LockOp R)) (i : ι) : (start progs).Solo i where
  writer := rfl
  free _ _ := ⟨rfl, rfl⟩
  own := rfl

/-- The use that a thread is about to make. -/
theorem Sound.use_of_head (h : Sound progs s) {i : ι} {op : LockOp R}
    (hhead : (s.threads i).rest.head? = some op) :
    ((s.threads i).mode, op) ∈ uses (.reading 0) (progs i) := by
  obtain ⟨rest, hrest⟩ := List.head?_eq_some_iff.mp hhead
  refine (h.follows i).uses_subset ?_
  rw [hrest]
  exact List.mem_cons_self

variable [DecidableEq ι]

/-- The state in which the thread `i` has come to `rest`, holding `m`. -/
def State.goto (s : State ι R) (i : ι) (m : Mode) (rest : List (LockOp R)) : State ι R where
  threads := Function.update s.threads i ⟨m, rest, false⟩
  writer := if m = .writing then some i else none

@[simp] theorem State.goto_self (s : State ι R) (i : ι) (m : Mode) (rest : List (LockOp R)) :
    (s.goto i m rest).threads i = ⟨m, rest, false⟩ := by
  simp [State.goto]

theorem State.goto_of_ne (s : State ι R) {i j : ι} (m : Mode) (rest : List (LockOp R)) (h : j ≠ i) :
    (s.goto i m rest).threads j = s.threads j := by
  simp [State.goto, h]

theorem State.Solo.goto (h : s.Solo i) (m : Mode) (rest : List (LockOp R)) :
    (s.goto i m rest).Solo i where
  writer := by simp [State.goto]
  free j hj := by
    rw [State.goto_of_ne s m rest hj]
    exact h.free j hj
  own := by simp

variable [Fintype ι]

/-- A thread that is alone takes its next operation, in one move or, for the write lock, in two. -/
theorem State.Solo.step (h : s.Solo i) {op : LockOp R} {rest : List (LockOp R)} {m : Mode}
    (hrest : (s.threads i).rest = op :: rest) (hm : (s.threads i).mode.advance op = some m) :
    ∃ as, runSteps State.step s as = some (s.goto i m rest) := by
  have hnext : (s.threads i).next = some (op, ⟨m, rest, false⟩) :=
    Thread.next_eq_some.mpr ⟨rest, m, hrest, hm, rfl⟩
  have hput : ∀ {w}, s.writer = w → w = (if m = .writing then some i else none) →
      s.put i ⟨m, rest, false⟩ = s.goto i m rest := by
    rintro _ rfl hw
    simp [State.put, State.goto, hw]
  cases op with
  | rLock =>
      obtain ⟨n, hn, rfl⟩ := Thread.mode_of_next_rLock hnext
      have hw : s.writer = none := by rw [h.writer, hn]; rfl
      refine ⟨[i], ?_⟩
      rw [← hput hw rfl]
      simp [runSteps, State.step, hnext, hw, h.own]
  | rUnlock =>
      obtain ⟨n, hn, rfl⟩ := Thread.mode_of_next_rUnlock hnext
      have hw : s.writer = none := by rw [h.writer, hn]; rfl
      refine ⟨[i], ?_⟩
      rw [← hput hw rfl]
      simp [runSteps, State.step, hnext]
  | lock =>
      obtain ⟨hn, rfl⟩ := Thread.mode_of_next_lock hnext
      have hw : s.writer = none := by rw [h.writer, hn]; rfl
      have hunread : s.Unread := fun j => by
        by_cases hj : j = i
        · rw [hj, hn]
        · exact (h.free j hj).1
      have hunread' : State.Unread { s with writer := some i } := hunread
      refine ⟨[i, i], ?_⟩
      simp [runSteps, State.step, hnext, hw, hunread', State.put, State.goto]
  | unlock =>
      obtain ⟨hn, rfl⟩ := Thread.mode_of_next_unlock hnext
      refine ⟨[i], ?_⟩
      have hletIn : (fun j => (s.threads j).letIn) = Function.update s.threads i (s.threads i) := by
        rw [Function.update_eq_self]
        funext j
        by_cases hj : j = i
        · rw [hj]
          exact Thread.letIn_of_not_parked h.own
        · exact Thread.letIn_of_not_parked (h.free j hj).2
      simp [runSteps, State.step, hnext, State.release, State.goto, hletIn]
  | access x w =>
      refine ⟨[i], ?_⟩
      have hmode : m = (s.threads i).mode := Thread.mode_of_next_access hnext
      rw [← hput h.writer (by rw [hmode])]
      simp [runSteps, State.step, hnext]

/-- A thread that is alone comes to any place of its program. -/
theorem State.Solo.run : ∀ (done rest : List (LockOp R)) {m : Mode} {s : State ι R}, s.Solo i →
    (s.threads i).rest = done ++ rest → runSteps Mode.advance (s.threads i).mode done = some m →
    ∃ as, runSteps State.step s as = some (s.goto i m rest)
  | [], rest, m, s, h, hrest, hrun => by
      obtain rfl : (s.threads i).mode = m := Option.some.inj hrun
      refine ⟨[], ?_⟩
      have hself : s.threads i = ⟨(s.threads i).mode, rest, false⟩ := by
        rw [List.nil_append] at hrest
        rw [← h.own, ← hrest]
      have hstay : s.goto i (s.threads i).mode rest = s := by
        unfold State.goto
        rw [← hself, Function.update_eq_self, ← h.writer]
      rw [hstay]
      rfl
  | op :: done, rest, m, s, h, hrest, hrun => by
      obtain ⟨m₁, hop, hrun₁⟩ := runSteps_cons.mp hrun
      obtain ⟨as, has⟩ := h.step hrest hop
      obtain ⟨bs, hbs⟩ := State.Solo.run done rest (h.goto m₁ (done ++ rest)) (by simp)
        (by simpa using hrun₁)
      refine ⟨as ++ bs, ?_⟩
      have hgoto : (s.goto i m₁ (done ++ rest)).goto i m rest = s.goto i m rest := by
        simp [State.goto]
      rw [← hgoto]
      exact runSteps_append has hbs

/-- One thread comes to a place where it holds nothing, and then another one to any place of its own. -/
theorem exists_run_to_both {i j : ι} (hij : i ≠ j) {m : Mode} {a b : LockOp R}
    (ha : (Mode.reading 0, a) ∈ uses (.reading 0) (progs i)) (hb : (m, b) ∈ uses (.reading 0) (progs j)) :
    ∃ as s, runSteps State.step (start progs) as = some s ∧
      (∃ rest, s.threads i = ⟨.reading 0, a :: rest, false⟩) ∧
      (∃ rest, s.threads j = ⟨m, b :: rest, false⟩) ∧
      s.writer = if m = .writing then some j else none := by
  obtain ⟨doneA, restA, hpa, hruna⟩ := mem_uses.mp ha
  obtain ⟨doneB, restB, hpb, hrunb⟩ := mem_uses.mp hb
  obtain ⟨as, has⟩ := State.Solo.run doneA (a :: restA) (solo_start progs i) hpa hruna
  let s₁ := (start progs).goto i (.reading 0) (a :: restA)
  have hsolo : s₁.Solo j := by
    refine ⟨?_, fun k hk => ?_, ?_⟩
    · show none = _
      rw [State.goto_of_ne _ _ _ hij.symm]
      rfl
    · by_cases hki : k = i
      · subst hki
        simp [s₁]
      · simp only [s₁]
        rw [State.goto_of_ne _ _ _ hki]
        exact ⟨rfl, rfl⟩
    · simp only [s₁]
      rw [State.goto_of_ne _ _ _ hij.symm]
      rfl
  have hj : s₁.threads j = ⟨.reading 0, progs j, false⟩ := State.goto_of_ne _ _ _ hij.symm
  obtain ⟨bs, hbs⟩ := State.Solo.run doneB (b :: restB) hsolo (by rw [hj]; exact hpb)
    (by rw [hj]; exact hrunb)
  refine ⟨as ++ bs, _, runSteps_append has hbs, ⟨restA, ?_⟩, ⟨restB, ?_⟩, rfl⟩
  · rw [State.goto_of_ne _ _ _ hij]
    exact State.goto_self ..
  · exact State.goto_self ..

/-- Some schedule gets caught exactly when one program takes a read lock while it holds one, and
another one takes the write lock. -/
theorem exists_caught_iff :
    (∃ as s, runSteps State.step (start progs) as = some s ∧ s.Caught) ↔
      ∃ i j, i ≠ j ∧ (∃ n, (Mode.reading (n + 1), LockOp.rLock) ∈ uses (.reading 0) (progs i)) ∧
        (Mode.reading 0, LockOp.lock) ∈ uses (.reading 0) (progs j) := by
  constructor
  · rintro ⟨as, s, hrun, w, j, hw, hfree, hj⟩
    have hs := sound_of_run hrun
    refine ⟨j, w, ?_, ?_, ?_⟩
    · rintro rfl
      exact hj.mode_ne hfree
    · obtain ⟨n, hn, hre⟩ := hj
      obtain ⟨k, hk⟩ := exists_use_of_relocks hre
      rw [← hn] at hk
      exact ⟨k, (hs.follows j).uses_subset hk⟩
    · rcases hs.pending w hw with hmode | ⟨t, hnext⟩
      · rw [hfree] at hmode
        cases hmode
      · obtain ⟨rest, m, hrest, -, -⟩ := Thread.next_eq_some.mp hnext
        have huse : (Mode.reading 0, LockOp.lock) ∈ uses (s.threads w).mode (s.threads w).rest := by
          rw [hrest, hfree]
          exact List.mem_cons_self
        exact (hs.follows w).uses_subset huse
  · rintro ⟨i, j, hij, ⟨n, hn⟩, hlock⟩
    obtain ⟨as, s, hrun, ⟨restj, hj⟩, ⟨resti, hi⟩, hw⟩ := exists_run_to_both hij.symm hlock hn
    have hw : s.writer = none := hw
    have hnext : (s.threads j).next = some (.lock, ⟨.writing, restj, false⟩) := by
      rw [hj]
      rfl
    refine ⟨as ++ [j], { s with writer := some j }, runSteps_append hrun ?_, j, i, rfl, ?_, n + 1, ?_, ?_⟩
    · simp [runSteps, State.step, hnext, hw]
    · show (s.threads j).mode = _
      rw [hj]
    · show (s.threads i).mode = _
      rw [hi]
    · show relocks (n + 1) (s.threads i).rest = true
      rw [hi]
      rfl

/-- Two threads are about to access the same table, and one of them to write it. -/
def State.Race (s : State ι R) : Prop :=
  ∃ i j x v w, i ≠ j ∧ (s.threads i).rest.head? = some (.access x v) ∧
    (s.threads j).rest.head? = some (.access x w) ∧ (v = true ∨ w = true)

/-- If tables are written under the write lock or without any, some schedule lets two threads meet at a
table exactly when one of two such accesses is made without a lock. -/
theorem exists_race_iff
    (hread : ∀ i n x, (Mode.reading (n + 1), LockOp.access x true) ∉ uses (.reading 0) (progs i)) :
    (∃ as s, runSteps State.step (start progs) as = some s ∧ s.Race) ↔
      ∃ i j x v w m, i ≠ j ∧ (Mode.reading 0, LockOp.access x v) ∈ uses (.reading 0) (progs i) ∧
        (m, LockOp.access x w) ∈ uses (.reading 0) (progs j) ∧ (v = true ∨ w = true) := by
  constructor
  · rintro ⟨as, s, hrun, i, j, x, v, w, hij, hi, hj, hvw⟩
    have hs := sound_of_run hrun
    have hui := hs.use_of_head hi
    have huj := hs.use_of_head hj
    -- the one that writes holds the write lock, which keeps the other one out, or nothing
    have hone : ∀ {a b : ι} {v w : Bool}, a ≠ b → v = true →
        ((s.threads a).mode, LockOp.access x v) ∈ uses (.reading 0) (progs a) →
        ((s.threads b).mode, LockOp.access x w) ∈ uses (.reading 0) (progs b) →
        (s.threads a).mode = .reading 0 ∨ (s.threads b).mode = .reading 0 := by
      rintro a b _ w hab rfl hua -
      rcases hmode : (s.threads a).mode with (_ | n) | _
      · exact Or.inl rfl
      · rw [hmode] at hua
        exact absurd hua (hread a n x)
      · exact Or.inr (hs.reading_zero hmode hab.symm)
    have hfree : (s.threads i).mode = .reading 0 ∨ (s.threads j).mode = .reading 0 := by
      rcases hvw with hv | hw
      · exact hone hij hv hui huj
      · exact (hone hij.symm hw huj hui).symm
    rcases hfree with hfree | hfree
    · rw [hfree] at hui
      exact ⟨i, j, x, v, w, _, hij, hui, huj, hvw⟩
    · rw [hfree] at huj
      exact ⟨j, i, x, w, v, _, hij.symm, huj, hui, hvw.symm⟩
  · rintro ⟨i, j, x, v, w, m, hij, hi, hj, hvw⟩
    obtain ⟨as, s, hrun, ⟨resti, hi⟩, ⟨restj, hj⟩, -⟩ := exists_run_to_both hij hi hj
    exact ⟨as, s, hrun, i, j, x, v, w, hij, by rw [hi]; rfl, by rw [hj]; rfl, hvw⟩

end Solo

end OteStack.Lib.RWMutex
