/-
# OteStack.Lib.ChangeQueue — changes that are applied before they are passed on.

A source applies each change at once and queues it for somebody who follows the source.  Every change is
about one key and says what the key has become.  The last queued change of a key therefore says what the
source has there (`Leads`), and a key with nothing in the queue is settled: the follower has been told.
-/
import Mathlib.Data.List.Basic

namespace OteStack.Lib

variable {α κ β : Type} (key : α → κ) (result : α → β)

/-- A change of the key is in the queue. -/
def Awaited (queue : List α) (k : κ) : Prop := ∃ e ∈ queue, key e = k

instance [DecidableEq κ] (queue : List α) (k : κ) : Decidable (Awaited key queue k) :=
  inferInstanceAs (Decidable (∃ e ∈ queue, key e = k))

/-- The last queued change of a key says what the source has there. -/
def Leads (queue : List α) (source : κ → β) : Prop :=
  ∀ pre e post, queue = pre ++ e :: post → ¬ Awaited key post (key e) → source (key e) = result e

variable {key result} {queue : List α} {source source' : κ → β} {e : α} {k : κ}

theorem not_awaited_nil : ¬ Awaited key [] k := fun ⟨_, he, _⟩ => absurd he List.not_mem_nil

theorem awaited_cons_iff : Awaited key (e :: queue) k ↔ key e = k ∨ Awaited key queue k := by
  simp [Awaited]

theorem awaited_push_iff : Awaited key (queue ++ [e]) k ↔ Awaited key queue k ∨ key e = k := by
  simp [Awaited, or_and_right, exists_or]

theorem leads_nil : Leads key result [] source := by
  intro pre e post h
  simp at h

/-- A change is applied and queued. -/
theorem Leads.push (h : Leads key result queue source) (hnew : source' (key e) = result e)
    (hother : ∀ k, k ≠ key e → source' k = source k) : Leads key result (queue ++ [e]) source' := by
  intro pre e' post hq hlast
  rcases List.eq_nil_or_concat post with rfl | ⟨post', x, rfl⟩
  · obtain ⟨-, rfl⟩ := List.append_singleton_inj.mp hq
    exact hnew
  · rw [List.concat_eq_append, ← List.cons_append, ← List.append_assoc] at hq
    obtain ⟨rfl, rfl⟩ := List.append_singleton_inj.mp hq
    rw [List.concat_eq_append, awaited_push_iff, not_or] at hlast
    rw [hother _ (Ne.symm hlast.2)]
    exact h pre e' post' rfl hlast.1

/-- The first change is passed on. -/
theorem Leads.pop (h : Leads key result (e :: queue) source) : Leads key result queue source := by
  intro pre e' post hq
  exact h (e :: pre) e' post (by rw [hq, List.cons_append])

/-- The last change of a key is passed on. -/
theorem Leads.head (h : Leads key result (e :: queue) source) (hlast : ¬ Awaited key queue (key e)) :
    source (key e) = result e :=
  h [] e queue rfl hlast

end OteStack.Lib
