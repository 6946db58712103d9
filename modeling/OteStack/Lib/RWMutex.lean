/-
# OteStack.Lib.RWMutex — threads that share one of Go's `sync.RWMutex`.

A thread is a list of operations: the four of the mutex and accesses to shared tables.  A thread that
calls `Lock` announces itself and then waits for the readers; from the announcement on, a thread that
calls `RLock` is parked, and `Unlock` lets everybody in that was parked.  Waking the parked readers and
giving the mutex free are one step here.

`Sound` is the invariant of every run (`sound_of_run`): a thread is where its program says, a parked
thread waits behind a writer, and beside a thread that writes nobody holds a lock.
-/
import Mathlib.Data.Fintype.Basic
import Mathlib.Logic.Function.Basic
import OteStack.Lib.StepSystem

namespace OteStack.Lib.RWMutex

/-! ## Programs -/

/-- An operation of a thread. -/
inductive LockOp (R : Type*) where
  | rLock
  | rUnlock
  | lock
  | unlock
  | access (x : R) (write : Bool)
  deriving DecidableEq, Repr

/-- What a thread holds: some read locks, or the write lock. -/
inductive Mode where
  | reading (n : ℕ)
  | writing
  deriving DecidableEq, Repr

variable {ι R : Type*}

/-- What a thread holds after an operation.  `none` is an operation that its thread cannot survive: `sync`
panics when a lock is released that nobody holds, and who asks for the write lock while holding a lock
waits for themselves. -/
def Mode.advance : Mode → LockOp R → Option Mode
  | .reading n, .rLock => some (.reading (n + 1))
  | .reading (n + 1), .rUnlock => some (.reading n)
  | .reading 0, .lock => some .writing
  | .writing, .unlock => some (.reading 0)
  | m, .access _ _ => some m
  | _, _ => none

/-- A part of a program that is left with the locks it was entered with. -/
def Within (m : Mode) (p : List (LockOp R)) : Prop := runSteps Mode.advance m p = some m

instance (m : Mode) (p : List (LockOp R)) : Decidable (Within m p) := inferInstanceAs (Decidable (_ = _))

/-- A program that releases what it takes. -/
abbrev Balanced (p : List (LockOp R)) : Prop := Within (.reading 0) p

/-- The operations of a program, each with what the thread holds when it comes to it. -/
def uses : Mode → List (LockOp R) → List (Mode × LockOp R)
  | _, [] => []
  | m, op :: p => (m, op) :: match m.advance op with
    | some m' => uses m' p
    | none => []

theorem uses_append {m m' : Mode} {p : List (LockOp R)} (q : List (LockOp R))
    (h : runSteps Mode.advance m p = some m') : uses m (p ++ q) = uses m p ++ uses m' q := by
  induction p generalizing m with
  | nil =>
      obtain rfl : m = m' := Option.some.inj h
      rfl
  | cons op p ih =>
      obtain ⟨m₁, hop, hp⟩ := runSteps_cons.mp h
      simp [uses, hop, ih hp]

/-- Where an operation stands in a program. -/
theorem mem_uses {m m' : Mode} {op : LockOp R} {p : List (LockOp R)} :
    (m', op) ∈ uses m p ↔
      ∃ done rest, p = done ++ op :: rest ∧ runSteps Mode.advance m done = some m' := by
  constructor
  · intro h
    induction p generalizing m with
    | nil => simp [uses] at h
    | cons o p ih =>
        rcases List.mem_cons.mp h with heq | h
        · obtain ⟨rfl, rfl⟩ := Prod.mk.inj heq
          exact ⟨[], p, rfl, rfl⟩
        · cases ho : m.advance o with
          | none => simp [ho] at h
          | some m₁ =>
              rw [ho] at h
              obtain ⟨done, rest, rfl, hdone⟩ := ih h
              exact ⟨o :: done, rest, rfl, runSteps_cons.mpr ⟨m₁, ho, hdone⟩⟩
  · rintro ⟨done, rest, rfl, hdone⟩
    rw [uses_append _ hdone]
    exact List.mem_append_right _ List.mem_cons_self

/-! ## Parts of programs -/

/-- A part that begins with `RLock` and ends with the deferred `RUnlock`. -/
def rLocked (body : List (LockOp R)) : List (LockOp R) := .rLock :: body ++ [.rUnlock]

/-- A part that begins with `Lock` and ends with the deferred `Unlock`. -/
def locked (body : List (LockOp R)) : List (LockOp R) := .lock :: body ++ [.unlock]

/-- The operation leaves the mutex alone. -/
def LockOp.isAccess : LockOp R → Bool
  | .access _ _ => true
  | _ => false

/-- A part that leaves the mutex alone. -/
def OnlyAccesses (p : List (LockOp R)) : Prop := p.all LockOp.isAccess = true

section Parts

variable {m m' : Mode} {n : ℕ} {op : LockOp R} {p q body : List (LockOp R)}

theorem Within.append (hp : Within m p) (hq : Within m q) : Within m (p ++ q) :=
  runSteps_append hp hq

theorem Within.rLocked (h : Within (.reading (n + 1)) body) : Within (.reading n) (rLocked body) :=
  runSteps_cons.mpr ⟨.reading (n + 1), rfl, runSteps_append h rfl⟩

theorem Within.locked (h : Within .writing body) : Within (.reading 0) (locked body) :=
  runSteps_cons.mpr ⟨.writing, rfl, runSteps_append h rfl⟩

/-- The operations of a part that can be gone through are all of them used. -/
theorem exists_use_iff (h : runSteps Mode.advance m p = some m') :
    (∃ k, (k, op) ∈ uses m p) ↔ op ∈ p := by
  induction p generalizing m with
  | nil => simp [uses]
  | cons o p ih =>
      obtain ⟨k, hk, hp⟩ := runSteps_cons.mp h
      simp [uses, hk, exists_or, ih hp]

theorem Within.mem_uses_append {u : Mode × LockOp R} (h : Within m p) :
    u ∈ uses m (p ++ q) ↔ u ∈ uses m p ∨ u ∈ uses m q := by
  rw [uses_append q h, List.mem_append]

theorem Within.mem_uses_rLocked {u : Mode × LockOp R} (h : Within (.reading (n + 1)) body) :
    u ∈ uses (.reading n) (RWMutex.rLocked body) ↔
      u = (.reading n, .rLock) ∨ u ∈ uses (.reading (n + 1)) body ∨ u = (.reading (n + 1), .rUnlock) := by
  show u ∈ (Mode.reading n, LockOp.rLock) :: uses (.reading (n + 1)) (body ++ [.rUnlock]) ↔ _
  rw [List.mem_cons, h.mem_uses_append]
  simp [uses, Mode.advance]

theorem Within.mem_uses_locked {u : Mode × LockOp R} (h : Within .writing body) :
    u ∈ uses (.reading 0) (RWMutex.locked body) ↔
      u = (.reading 0, .lock) ∨ u ∈ uses .writing body ∨ u = (.writing, .unlock) := by
  show u ∈ (Mode.reading 0, LockOp.lock) :: uses .writing (body ++ [.unlock]) ↔ _
  rw [List.mem_cons, h.mem_uses_append]
  simp [uses, Mode.advance]

theorem advance_of_isAccess (h : op.isAccess = true) (m : Mode) : m.advance op = some m := by
  cases op with
  | access x w => cases m <;> rfl
  | rLock | rUnlock | lock | unlock => cases h

theorem onlyAccesses_cons : OnlyAccesses (op :: p) ↔ op.isAccess = true ∧ OnlyAccesses p := by
  simp [OnlyAccesses]

theorem OnlyAccesses.within (h : OnlyAccesses p) (m : Mode) : Within m p := by
  induction p with
  | nil => rfl
  | cons op p ih =>
      obtain ⟨hop, hp⟩ := onlyAccesses_cons.mp h
      exact runSteps_cons.mpr ⟨m, advance_of_isAccess hop m, ih hp⟩

theorem OnlyAccesses.mem_uses (h : OnlyAccesses p) : (m', op) ∈ uses m p ↔ m' = m ∧ op ∈ p := by
  induction p with
  | nil => simp [uses]
  | cons o p ih =>
      obtain ⟨ho, hp⟩ := onlyAccesses_cons.mp h
      simp only [uses, advance_of_isAccess ho m, List.mem_cons, Prod.mk.injEq, ih hp]
      tauto

theorem OnlyAccesses.mem_uses_rLocked (h : OnlyAccesses body) :
    (m', op) ∈ uses (.reading n) (RWMutex.rLocked body) ↔
      (m' = .reading n ∧ op = .rLock) ∨ (m' = .reading (n + 1) ∧ op ∈ body) ∨
        (m' = .reading (n + 1) ∧ op = .rUnlock) := by
  rw [(h.within _).mem_uses_rLocked, h.mem_uses, Prod.mk.injEq, Prod.mk.injEq]

theorem OnlyAccesses.mem_uses_locked (h : OnlyAccesses body) :
    (m', op) ∈ uses (.reading 0) (RWMutex.locked body) ↔
      (m' = .reading 0 ∧ op = .lock) ∨ (m' = .writing ∧ op ∈ body) ∨ (m' = .writing ∧ op = .unlock) := by
  rw [(h.within _).mem_uses_locked, h.mem_uses, Prod.mk.injEq, Prod.mk.injEq]

end Parts

/-! ## The threads and their mutex -/

/-- A thread: what it holds, what it has still to do, and whether it is parked in `RLock`. -/
structure Thread (R : Type*) where
  mode : Mode
  rest : List (LockOp R)
  parked : Bool
  deriving DecidableEq

/-- The next operation of a thread, and the thread after it. -/
def Thread.next (t : Thread R) : Option (LockOp R × Thread R) :=
  match t.rest with
  | [] => none
  | op :: rest => (t.mode.advance op).map fun m => (op, ⟨m, rest, false⟩)

/-- A parked thread gets its read lock. -/
def Thread.letIn (t : Thread R) : Thread R :=
  match t.parked, t.next with
  | true, some (_, t') => t'
  | _, _ => t

/-- The threads, and the one that has called `Lock` and not yet `Unlock`. -/
structure State (ι R : Type*) where
  threads : ι → Thread R
  writer : Option ι

/-- Every thread before its first operation. -/
def start (progs : ι → List (LockOp R)) : State ι R :=
  ⟨fun i => { mode := .reading 0, rest := progs i, parked := false }, none⟩

namespace State

/-- Every thread is through. -/
def Finished (s : State ι R) : Prop := ∀ i, (s.threads i).rest = []

/-- No thread holds a lock. -/
def Unread (s : State ι R) : Prop := ∀ i, (s.threads i).mode = .reading 0

instance [Fintype ι] (s : State ι R) : Decidable s.Unread :=
  inferInstanceAs (Decidable (∀ i, (s.threads i).mode = .reading 0))

variable [DecidableEq ι]

/-- The state with another thread `i`. -/
def put (s : State ι R) (i : ι) (t : Thread R) : State ι R :=
  { s with threads := Function.update s.threads i t }

/-- `Unlock`: whoever is parked gets the read lock. -/
def release (s : State ι R) (i : ι) (t : Thread R) : State ι R :=
  ⟨Function.update (fun j => (s.threads j).letIn) i t, none⟩

@[simp] theorem put_self (s : State ι R) (i : ι) (t : Thread R) : (s.put i t).threads i = t :=
  Function.update_self ..

theorem put_of_ne (s : State ι R) {i j : ι} (t : Thread R) (h : j ≠ i) :
    (s.put i t).threads j = s.threads j :=
  Function.update_of_ne h ..

@[simp] theorem put_writer (s : State ι R) (i : ι) (t : Thread R) : (s.put i t).writer = s.writer := rfl

@[simp] theorem release_self (s : State ι R) (i : ι) (t : Thread R) : (s.release i t).threads i = t := by
  simp [release]

theorem release_of_ne (s : State ι R) {i j : ι} (t : Thread R) (h : j ≠ i) :
    (s.release i t).threads j = (s.threads j).letIn := by
  simp [release, h]

@[simp] theorem release_writer (s : State ι R) (i : ι) (t : Thread R) :
    (s.release i t).writer = none := rfl

/-- One move of the thread `i`. -/
def step [Fintype ι] (s : State ι R) (i : ι) : Option (State ι R) :=
  match (s.threads i).next with
  | none => none
  | some (.rLock, t) =>
      if (s.threads i).parked then none
      else if s.writer = none then some (s.put i t)
      else some (s.put i { s.threads i with parked := true })
  | some (.lock, t) =>
      if s.writer = none then some { s with writer := some i }
      else if s.writer = some i ∧ s.Unread then some (s.put i t)
      else none
  | some (.unlock, t) => some (s.release i t)
  | some (.rUnlock, t) => some (s.put i t)
  | some (.access _ _, t) => some (s.put i t)

/-- The moves. -/
inductive Transition (s : State ι R) (i : ι) : State ι R → Prop where
  | enter {t : Thread R} (hnext : (s.threads i).next = some (.rLock, t))
      (hpark : (s.threads i).parked = false) (hw : s.writer = none) : Transition s i (s.put i t)
  | park {t : Thread R} (hnext : (s.threads i).next = some (.rLock, t))
      (hpark : (s.threads i).parked = false) (hw : s.writer ≠ none) :
      Transition s i (s.put i { s.threads i with parked := true })
  | announce {t : Thread R} (hnext : (s.threads i).next = some (.lock, t)) (hw : s.writer = none) :
      Transition s i { s with writer := some i }
  | acquire {t : Thread R} (hnext : (s.threads i).next = some (.lock, t)) (hw : s.writer = some i)
      (hunread : s.Unread) : Transition s i (s.put i t)
  | release {t : Thread R} (hnext : (s.threads i).next = some (.unlock, t)) :
      Transition s i (s.release i t)
  | rUnlock {t : Thread R} (hnext : (s.threads i).next = some (.rUnlock, t)) :
      Transition s i (s.put i t)
  | access {t : Thread R} {x : R} {w : Bool} (hnext : (s.threads i).next = some (.access x w, t)) :
      Transition s i (s.put i t)

theorem transition_of_step [Fintype ι] {s s' : State ι R} {i : ι} (h : s.step i = some s') :
    Transition s i s' := by
  unfold step at h
  split at h
  · cases h
  · next t hnext =>
      split at h
      · cases h
      · next hpark =>
          split at h
          · next hw =>
              cases h
              exact .enter hnext (by simpa using hpark) hw
          · next hw =>
              cases h
              exact .park hnext (by simpa using hpark) hw
  · next t hnext =>
      split at h
      · next hw =>
          cases h
          exact .announce hnext hw
      · split at h
        · next hw =>
            cases h
            exact .acquire hnext hw.1 hw.2
        · cases h
  · next t hnext =>
      cases h
      exact .release hnext
  · next t hnext =>
      cases h
      exact .rUnlock hnext
  · next x w t hnext =>
      cases h
      exact .access hnext

end State

/-! ## What holds in every state -/

section Follows

variable {p : List (LockOp R)} {t t' : Thread R} {op : LockOp R}

theorem Thread.next_eq_some : t.next = some (op, t') ↔
    ∃ rest m, t.rest = op :: rest ∧ t.mode.advance op = some m ∧ t' = ⟨m, rest, false⟩ := by
  unfold Thread.next
  cases t.rest with
  | nil => simp
  | cons o rest =>
      simp only [Option.map_eq_some_iff, Prod.mk.injEq, List.cons.injEq]
      constructor
      · rintro ⟨m, hm, rfl, rfl⟩
        exact ⟨rest, m, ⟨rfl, rfl⟩, hm, rfl⟩
      · rintro ⟨_, m, ⟨rfl, rfl⟩, hm, rfl⟩
        exact ⟨m, hm, rfl, rfl⟩

/-- The thread has done a first part of the program and has the rest before it. -/
def Thread.Follows (t : Thread R) (p : List (LockOp R)) : Prop :=
  ∃ done, p = done ++ t.rest ∧ runSteps Mode.advance (.reading 0) done = some t.mode

theorem Thread.Follows.next (h : t.Follows p) (hnext : t.next = some (op, t')) : t'.Follows p := by
  obtain ⟨done, rfl, hdone⟩ := h
  obtain ⟨rest, m, hrest, hm, rfl⟩ := Thread.next_eq_some.mp hnext
  refine ⟨done ++ [op], by simp [hrest], ?_⟩
  exact runSteps_append hdone (runSteps_cons.mpr ⟨m, hm, rfl⟩)

theorem Thread.Follows.letIn (h : t.Follows p) : t.letIn.Follows p := by
  unfold Thread.letIn
  split
  · next t' hnext => exact h.next hnext
  · exact h

/-- What is left of a balanced program releases what the thread holds. -/
theorem Thread.Follows.rest_balanced (h : t.Follows p) (hp : Balanced p) :
    runSteps Mode.advance t.mode t.rest = some (.reading 0) := by
  obtain ⟨done, rfl, hdone⟩ := h
  obtain ⟨m, hm, hrest⟩ := exists_of_runSteps_append hp
  obtain rfl : m = t.mode := Option.some.inj (hm.symm.trans hdone)
  exact hrest

/-- What is left of a program is used as in the program. -/
theorem Thread.Follows.uses_subset (h : t.Follows p) : uses t.mode t.rest ⊆ uses (.reading 0) p := by
  obtain ⟨done, rfl, hdone⟩ := h
  rw [uses_append _ hdone]
  exact List.subset_append_right _ _

theorem Thread.letIn_of_parked (hpark : t.parked = true) (hnext : t.next = some (op, t')) :
    t.letIn = t' := by
  simp [Thread.letIn, hpark, hnext]

theorem Thread.letIn_of_not_parked (hpark : t.parked = false) : t.letIn = t := by
  simp [Thread.letIn, hpark]

/-- Who comes to an operation holds what it takes. -/
theorem Thread.mode_of_next_rLock (h : t.next = some (.rLock, t')) :
    ∃ n, t.mode = .reading n ∧ t'.mode = .reading (n + 1) := by
  obtain ⟨rest, m, -, hm, rfl⟩ := Thread.next_eq_some.mp h
  cases hmode : t.mode with
  | reading n => exact ⟨n, rfl, by simpa [Mode.advance, hmode] using hm.symm⟩
  | writing => simp [Mode.advance, hmode] at hm

theorem Thread.mode_of_next_rUnlock (h : t.next = some (.rUnlock, t')) :
    ∃ n, t.mode = .reading (n + 1) ∧ t'.mode = .reading n := by
  obtain ⟨rest, m, -, hm, rfl⟩ := Thread.next_eq_some.mp h
  rcases hmode : t.mode with (_ | n) | _
  · simp [Mode.advance, hmode] at hm
  · exact ⟨n, rfl, by simpa [Mode.advance, hmode] using hm.symm⟩
  · simp [Mode.advance, hmode] at hm

theorem Thread.mode_of_next_lock (h : t.next = some (.lock, t')) :
    t.mode = .reading 0 ∧ t'.mode = .writing := by
  obtain ⟨rest, m, -, hm, rfl⟩ := Thread.next_eq_some.mp h
  rcases hmode : t.mode with (_ | n) | _
  · exact ⟨rfl, by simpa [Mode.advance, hmode] using hm.symm⟩
  · simp [Mode.advance, hmode] at hm
  · simp [Mode.advance, hmode] at hm

theorem Thread.mode_of_next_unlock (h : t.next = some (.unlock, t')) :
    t.mode = .writing ∧ t'.mode = .reading 0 := by
  obtain ⟨rest, m, -, hm, rfl⟩ := Thread.next_eq_some.mp h
  rcases hmode : t.mode with _ | _
  · simp [Mode.advance, hmode] at hm
  · exact ⟨rfl, by simpa [Mode.advance, hmode] using hm.symm⟩

theorem Thread.mode_of_next_access {x : R} {w : Bool} (h : t.next = some (.access x w, t')) :
    t'.mode = t.mode := by
  obtain ⟨rest, m, -, hm, rfl⟩ := Thread.next_eq_some.mp h
  rcases hmode : t.mode with _ | _
  · simpa [Mode.advance, hmode] using hm.symm
  · simpa [Mode.advance, hmode] using hm.symm

theorem Thread.parked_of_next (h : t.next = some (op, t')) : t'.parked = false := by
  obtain ⟨rest, m, -, -, rfl⟩ := Thread.next_eq_some.mp h
  rfl

end Follows

/-- The invariant of a run of the programs `progs`. -/
structure Sound (progs : ι → List (LockOp R)) (s : State ι R) : Prop where
  follows : ∀ i, (s.threads i).Follows (progs i)
  parked : ∀ i, (s.threads i).parked = true →
    s.writer ≠ none ∧ ∃ t, (s.threads i).next = some (.rLock, t)
  pending : ∀ i, s.writer = some i →
    (s.threads i).mode = .writing ∨ ∃ t, (s.threads i).next = some (.lock, t)
  alone : ∀ i, (s.threads i).mode = .writing →
    s.writer = some i ∧ ∀ j, j ≠ i → (s.threads j).mode = .reading 0

theorem sound_start (progs : ι → List (LockOp R)) : Sound progs (start progs) where
  follows i := ⟨[], rfl, rfl⟩
  parked i h := by simp [start] at h
  pending i h := by simp [start] at h
  alone i h := by simp [start] at h

section Step

variable {progs : ι → List (LockOp R)} {s s' : State ι R} {i j : ι} {t : Thread R} {op : LockOp R}

namespace Sound

theorem not_writing (h : Sound progs s) (hw : s.writer = none) (i : ι) :
    (s.threads i).mode ≠ .writing := by
  intro hmode
  rw [(h.alone i hmode).1] at hw
  cases hw

theorem not_parked (h : Sound progs s) (hw : s.writer = none) (i : ι) :
    (s.threads i).parked = false := by
  cases hpark : (s.threads i).parked with
  | false => rfl
  | true => exact absurd hw (h.parked i hpark).1

/-- No reader beside a writer. -/
theorem reading_zero (h : Sound progs s) (hmode : (s.threads i).mode = .writing) (hj : j ≠ i) :
    (s.threads j).mode = .reading 0 :=
  (h.alone i hmode).2 j hj

theorem announce (h : Sound progs s) (hnext : (s.threads i).next = some (.lock, t))
    (hw : s.writer = none) : Sound progs { s with writer := some i } where
  follows := h.follows
  parked j hj := absurd hj (by simp [h.not_parked hw j])
  pending j hj := by
    obtain rfl : i = j := Option.some.inj hj
    exact Or.inr ⟨t, hnext⟩
  alone j hj := absurd hj (h.not_writing hw j)

variable [DecidableEq ι]

theorem follows_put (h : Sound progs s) (ht : t.Follows (progs i)) (j : ι) :
    ((s.put i t).threads j).Follows (progs j) := by
  by_cases hj : j = i
  · subst hj
    rw [State.put_self]
    exact ht
  · rw [State.put_of_ne s t hj]
    exact h.follows j

theorem parked_put (h : Sound progs s) (ht : t.parked = false) (j : ι)
    (hj : ((s.put i t).threads j).parked = true) :
    s.writer ≠ none ∧ ∃ u, ((s.put i t).threads j).next = some (.rLock, u) := by
  by_cases hji : j = i
  · subst hji
    rw [State.put_self, ht] at hj
    cases hj
  · rw [State.put_of_ne s t hji] at hj ⊢
    exact h.parked j hj

/-- A move that changes neither who writes nor what the writer waits for. -/
theorem put_of_mode (h : Sound progs s) (hnext : (s.threads i).next = some (op, t))
    (hlock : op ≠ .lock) (hmode : t.mode = .writing ↔ (s.threads i).mode = .writing)
    (hfree : (s.threads i).mode = .reading 0 → t.mode = .reading 0) : Sound progs (s.put i t) where
  follows := h.follows_put ((h.follows i).next hnext)
  parked := h.parked_put (Thread.parked_of_next hnext)
  pending j hj := by
    by_cases hji : j = i
    · subst hji
      rw [State.put_self]
      rcases h.pending j hj with hw | ⟨u, hu⟩
      · exact Or.inl (hmode.mpr hw)
      · rw [hnext] at hu
        exact absurd (Prod.mk.inj (Option.some.inj hu)).1 hlock
    · rw [State.put_of_ne s t hji]
      exact h.pending j hj
  alone j hj := by
    by_cases hji : j = i
    · subst hji
      rw [State.put_self] at hj
      refine ⟨(h.alone j (hmode.mp hj)).1, fun k hk => ?_⟩
      rw [State.put_of_ne s t hk]
      exact h.reading_zero (hmode.mp hj) hk
    · rw [State.put_of_ne s t hji] at hj
      refine ⟨(h.alone j hj).1, fun k hk => ?_⟩
      by_cases hki : k = i
      · subst hki
        rw [State.put_self]
        exact hfree (h.reading_zero hj hk)
      · rw [State.put_of_ne s t hki]
        exact h.reading_zero hj hk

theorem enter (h : Sound progs s) (hnext : (s.threads i).next = some (.rLock, t))
    (hw : s.writer = none) : Sound progs (s.put i t) where
  follows := h.follows_put ((h.follows i).next hnext)
  parked := h.parked_put (Thread.parked_of_next hnext)
  pending j hj := by
    rw [State.put_writer, hw] at hj
    cases hj
  alone j hj := by
    obtain ⟨n, -, hn⟩ := Thread.mode_of_next_rLock hnext
    by_cases hji : j = i
    · subst hji
      rw [State.put_self, hn] at hj
      cases hj
    · rw [State.put_of_ne s t hji] at hj
      exact absurd hj (h.not_writing hw j)

theorem park (h : Sound progs s) (hnext : (s.threads i).next = some (.rLock, t))
    (hw : s.writer ≠ none) : Sound progs (s.put i { s.threads i with parked := true }) := by
  have hmode : ∀ j, ((s.put i { s.threads i with parked := true }).threads j).mode =
      (s.threads j).mode := by
    intro j
    by_cases hji : j = i
    · subst hji
      rw [State.put_self]
    · rw [State.put_of_ne s _ hji]
  have hsame : ∀ j, ((s.put i { s.threads i with parked := true }).threads j).next =
      (s.threads j).next := by
    intro j
    by_cases hji : j = i
    · subst hji
      rw [State.put_self]
      rfl
    · rw [State.put_of_ne s _ hji]
  refine ⟨h.follows_put (h.follows i), fun j hj => ⟨hw, ?_⟩, ?_, ?_⟩
  · rw [hsame]
    by_cases hji : j = i
    · subst hji
      exact ⟨t, hnext⟩
    · rw [State.put_of_ne s _ hji] at hj
      exact (h.parked j hj).2
  · intro j hj
    rw [hmode, hsame]
    exact h.pending j hj
  · intro j hj
    rw [hmode] at hj
    refine ⟨(h.alone j hj).1, fun k hk => ?_⟩
    rw [hmode]
    exact h.reading_zero hj hk

theorem acquire (h : Sound progs s) (hnext : (s.threads i).next = some (.lock, t))
    (hw : s.writer = some i) (hunread : s.Unread) : Sound progs (s.put i t) where
  follows := h.follows_put ((h.follows i).next hnext)
  parked := h.parked_put (Thread.parked_of_next hnext)
  pending j hj := by
    obtain rfl : i = j := Option.some.inj (hw.symm.trans hj)
    rw [State.put_self]
    exact Or.inl (Thread.mode_of_next_lock hnext).2
  alone j hj := by
    by_cases hji : j = i
    · subst hji
      refine ⟨hw, fun k hk => ?_⟩
      rw [State.put_of_ne s t hk]
      exact hunread k
    · rw [State.put_of_ne s t hji, hunread j] at hj
      cases hj

theorem release (h : Sound progs s) (hnext : (s.threads i).next = some (.unlock, t)) :
    Sound progs (s.release i t) := by
  have hi := (Thread.mode_of_next_unlock hnext).1
  refine ⟨fun j => ?_, fun j hj => ?_, fun j hj => ?_, fun j hj => ?_⟩
  · by_cases hji : j = i
    · subst hji
      rw [State.release_self]
      exact (h.follows j).next hnext
    · rw [State.release_of_ne s t hji]
      exact (h.follows j).letIn
  · -- nobody stays parked
    by_cases hji : j = i
    · subst hji
      rw [State.release_self, Thread.parked_of_next hnext] at hj
      cases hj
    · rw [State.release_of_ne s t hji] at hj
      cases hpark : (s.threads j).parked with
      | false => simp [Thread.letIn_of_not_parked hpark, hpark] at hj
      | true =>
          obtain ⟨-, u, hu⟩ := h.parked j hpark
          simp [Thread.letIn_of_parked hpark hu, Thread.parked_of_next hu] at hj
  · rw [State.release_writer] at hj
    cases hj
  · by_cases hji : j = i
    · subst hji
      rw [State.release_self, (Thread.mode_of_next_unlock hnext).2] at hj
      cases hj
    · rw [State.release_of_ne s t hji] at hj
      cases hpark : (s.threads j).parked with
      | false =>
          rw [Thread.letIn_of_not_parked hpark, h.reading_zero hi hji] at hj
          cases hj
      | true =>
          obtain ⟨-, u, hu⟩ := h.parked j hpark
          obtain ⟨n, -, hn⟩ := Thread.mode_of_next_rLock hu
          rw [Thread.letIn_of_parked hpark hu, hn] at hj
          cases hj

/-- Every move keeps the invariant. -/
theorem step [Fintype ι] (h : Sound progs s) (hstep : s.step i = some s') : Sound progs s' := by
  cases State.transition_of_step hstep with
  | enter hnext _ hw => exact h.enter hnext hw
  | park hnext _ hw => exact h.park hnext hw
  | announce hnext hw => exact h.announce hnext hw
  | acquire hnext hw hunread => exact h.acquire hnext hw hunread
  | release hnext => exact h.release hnext
  | rUnlock hnext =>
      obtain ⟨n, hn, hn'⟩ := Thread.mode_of_next_rUnlock hnext
      exact h.put_of_mode hnext (by simp) (by simp [hn, hn']) (by simp [hn])
  | access hnext =>
      have hmode := Thread.mode_of_next_access hnext
      exact h.put_of_mode hnext (by simp) (by rw [hmode]) (by rw [hmode]; exact id)

end Sound

/-- The invariant holds in every state that a run of the programs reaches. -/
theorem sound_of_run [DecidableEq ι] [Fintype ι] {as : List ι}
    (hrun : runSteps State.step (start progs) as = some s) : Sound progs s :=
  runSteps_invariant (fun h hstep => Sound.step h hstep) (sound_start progs) hrun

end Step

end OteStack.Lib.RWMutex
