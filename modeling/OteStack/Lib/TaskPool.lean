/-
# OteStack.Lib.TaskPool — goroutines as a pool of tasks, and slots that tasks hold.

The running goroutines of a program are a list of tasks, each standing for what the goroutine will do
next.  A step takes one task out and puts in what it becomes and what it starts (`swap`).

A table that goroutines write often mirrors the pool: an entry is there exactly while one of them holds
it.  `Ledger owner T pool` says so: a slot of `T` has exactly one holder in the pool, any other slot has
none.  A step may pass a slot on, take a free one or give one up (`Ledger.swap_same`,
`Ledger.acquire`, `Ledger.release`), and all three are one equation about counts (`held_swap`).
-/
import Mathlib.Data.List.Basic
import Mathlib.Data.Set.Basic

namespace OteStack.Lib.TaskPool

variable {τ : Type*} {κ : Type*}

section Swap

variable [DecidableEq τ]

/-- A task takes a step and is replaced by new ones. -/
def swap (pool : List τ) (t : τ) (new : List τ) : List τ := new ++ pool.erase t

theorem mem_swap {pool new : List τ} {t u : τ} :
    u ∈ swap pool t new ↔ u ∈ new ∨ u ∈ pool.erase t := List.mem_append

theorem mem_swap_of_mem {pool : List τ} {t u : τ} (new : List τ) (hu : u ∈ pool) (hne : u ≠ t) :
    u ∈ swap pool t new := mem_swap.mpr (Or.inr ((List.mem_erase_of_ne hne).mpr hu))

theorem of_mem_swap {pool new : List τ} {t u : τ} (h : u ∈ swap pool t new) :
    u ∈ new ∨ u ∈ pool := (mem_swap.mp h).imp_right List.mem_of_mem_erase

end Swap

/-! ## Slots held by tasks -/

variable [DecidableEq κ]

/-- How many tasks hold the slot. -/
def held (owner : τ → Option κ) (pool : List τ) (k : κ) : ℕ :=
  pool.countP fun t => owner t == some k

variable {owner : τ → Option κ} {T T' : Set κ} {pool new : List τ} {t : τ} {k : κ}

@[simp] theorem held_nil (k : κ) : held owner [] k = 0 := rfl

theorem held_cons (t : τ) (pool : List τ) (k : κ) :
    held owner (t :: pool) k = held owner pool k + if owner t = some k then 1 else 0 := by
  simp [held, List.countP_cons]

theorem held_append (pool pool' : List τ) (k : κ) :
    held owner (pool ++ pool') k = held owner pool k + held owner pool' k := List.countP_append

theorem held_eq_zero_iff : held owner pool k = 0 ↔ ∀ t ∈ pool, owner t ≠ some k := by
  simp [held, List.countP_eq_zero]

theorem held_pos_iff : 0 < held owner pool k ↔ ∃ t ∈ pool, owner t = some k := by
  simp [held, List.countP_pos_iff]

variable [DecidableEq τ]

variable (owner) in
/-- What a step does to the number of holders. -/
theorem held_swap (ht : t ∈ pool) (new : List τ) (k : κ) :
    held owner (swap pool t new) k + held owner [t] k = held owner pool k + held owner new k := by
  have herase : held owner (t :: pool.erase t) k = held owner pool k :=
    (List.perm_cons_erase ht).symm.countP_eq _
  rw [held_cons] at herase
  rw [swap, held_append, held_cons, held_nil]
  omega

/-- Every slot of `T` is held by exactly one task, and no other slot is held. -/
def Ledger (owner : τ → Option κ) (T : Set κ) (pool : List τ) : Prop :=
  ∀ k, (k ∈ T → held owner pool k = 1) ∧ (k ∉ T → held owner pool k = 0)

namespace Ledger

omit [DecidableEq τ] in
theorem mem_iff (h : Ledger owner T pool) : k ∈ T ↔ ∃ t ∈ pool, owner t = some k := by
  rw [← held_pos_iff]
  obtain ⟨hin, hout⟩ := h k
  by_cases hk : k ∈ T
  · simp [hk, hin hk]
  · simp [hk, hout hk]

/-- No two tasks hold the same slot. -/
theorem held_erase (h : Ledger owner T pool) (ht : t ∈ pool) (hk : owner t = some k) :
    held owner (pool.erase t) k = 0 := by
  have hone := (h k).1 (h.mem_iff.mpr ⟨t, ht, hk⟩)
  have hswap := held_swap owner ht [] k
  rw [held_cons, if_pos hk, held_nil] at hswap
  have hsame : held owner (swap pool t []) k = held owner (pool.erase t) k := rfl
  omega

omit [DecidableEq τ] in
/-- Tasks that hold nothing may start. -/
theorem spawn (h : Ledger owner T pool) (hnew : ∀ u ∈ new, owner u = none) :
    Ledger owner T (new ++ pool) := by
  intro k
  have hzero : held owner new k = 0 := held_eq_zero_iff.mpr fun u hu => by simp [hnew u hu]
  rw [held_append, hzero, Nat.zero_add]
  exact h k

/-- A step that passes on what the task holds. -/
theorem swap_same (h : Ledger owner T pool) (ht : t ∈ pool)
    (hsame : ∀ k, held owner new k = held owner [t] k) : Ledger owner T (swap pool t new) := by
  intro k
  have hcount := held_swap owner ht new k
  have hk := hsame k
  obtain ⟨hin, hout⟩ := h k
  refine ⟨fun hmem => ?_, fun hnot => ?_⟩
  · have := hin hmem
    omega
  · have := hout hnot
    omega

/-- A step of a task that holds nothing and starts nothing that does. -/
theorem swap_idle (h : Ledger owner T pool) (ht : t ∈ pool) (hnone : owner t = none)
    (hnew : ∀ u ∈ new, owner u = none) : Ledger owner T (swap pool t new) := by
  refine h.swap_same ht fun k => ?_
  have hzero : held owner new k = 0 := held_eq_zero_iff.mpr fun u hu => by simp [hnew u hu]
  rw [hzero, held_cons, if_neg (by simp [hnone]), held_nil]

/-- A step that takes a free slot. -/
theorem acquire (h : Ledger owner T pool) (ht : t ∈ pool) (hnone : owner t = none) (hfree : k ∉ T)
    (hnew : ∀ j, held owner new j = if j = k then 1 else 0)
    (hT : ∀ j, j ∈ T' ↔ j = k ∨ j ∈ T) : Ledger owner T' (swap pool t new) := by
  intro j
  have hcount := held_swap owner ht new j
  rw [held_cons, if_neg (by simp [hnone]), held_nil, hnew j] at hcount
  obtain ⟨hin, hout⟩ := h j
  rw [hT j]
  by_cases hj : j = k
  · subst hj
    have := hout hfree
    rw [if_pos rfl] at hcount
    exact ⟨fun _ => by omega, fun hnot => absurd (Or.inl rfl) hnot⟩
  · rw [if_neg hj] at hcount
    refine ⟨fun hmem => ?_, fun hnot => ?_⟩
    · have := hin (hmem.resolve_left hj)
      omega
    · have := hout fun hmem => hnot (Or.inr hmem)
      omega

/-- A step that gives up what the task holds. -/
theorem release (h : Ledger owner T pool) (ht : t ∈ pool) (hk : owner t = some k)
    (hnew : ∀ u ∈ new, owner u = none) (hT : ∀ j, j ∈ T' ↔ j ≠ k ∧ j ∈ T) :
    Ledger owner T' (swap pool t new) := by
  intro j
  have hcount := held_swap owner ht new j
  have hzero : held owner new j = 0 := held_eq_zero_iff.mpr fun u hu => by simp [hnew u hu]
  rw [held_cons, held_nil, hk, hzero] at hcount
  obtain ⟨hin, hout⟩ := h j
  rw [hT j]
  by_cases hj : j = k
  · subst hj
    have := hin (h.mem_iff.mpr ⟨t, ht, hk⟩)
    rw [if_pos rfl] at hcount
    exact ⟨fun hmem => absurd rfl hmem.1, fun _ => by omega⟩
  · rw [if_neg fun hkj => hj (Option.some.inj hkj).symm] at hcount
    refine ⟨fun hmem => ?_, fun hnot => ?_⟩
    · have := hin hmem.2
      omega
    · have := hout fun hmem => hnot ⟨hj, hmem⟩
      omega

end Ledger

end OteStack.Lib.TaskPool
