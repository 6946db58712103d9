/-
# OteStack.Lib.Ownership — writes by others in a keyed store.

A store is seen through what it holds under each key (`obs`).  Some of the objects belong to an owner
(`mine`).  A write by somebody else works on one key; it may hit what it finds there or spare it
(`Touches`), and it never leaves an object of the owner that was not there before.

So what the owner has can only shrink (`owned_of_foldl`), and a sequence of such writes leaves it
alone exactly when none of them hits an object the owner has at the start (`owned_foldl_iff`): one
that is hit is gone for good.
-/
import Mathlib.Data.Option.Basic

namespace OteStack.Lib

variable {σ κ β ι : Type*} (obs : σ → κ → Option β) (mine : β → Bool)

/-- The owner's object under a key. -/
def owned (s : σ) (k : κ) : Option β := (obs s k).filter mine

/-- A write on the key `k` by somebody else than the owner. -/
structure Touches (k : κ) (hits : β → Prop) (f : σ → σ) : Prop where
  other : ∀ s k', k' ≠ k → obs (f s) k' = obs s k'
  spared : ∀ s x, obs s k = some x → ¬ hits x → obs (f s) k = some x
  hit : ∀ s, (∀ x, obs s k = some x → hits x) → ∀ x, obs (f s) k = some x → mine x = false

variable {obs mine}

theorem owned_eq_some {s : σ} {k : κ} {x : β} :
    owned obs mine s k = some x ↔ obs s k = some x ∧ mine x = true :=
  Option.filter_eq_some_iff

section Write

variable {k : κ} {hits : β → Prop} {f : σ → σ} {s : σ}

/-- A write by somebody else adds nothing to what the owner has. -/
theorem Touches.owned_of_owned (h : Touches obs mine k hits f) {k' : κ} {x : β}
    (hx : owned obs mine (f s) k' = some x) : owned obs mine s k' = some x := by
  classical
  rw [owned_eq_some] at hx ⊢
  by_cases hk : k' = k
  · subst hk
    by_cases hhit : ∀ y, obs s k' = some y → hits y
    · exact absurd (h.hit s hhit x hx.1) (by simp [hx.2])
    · obtain ⟨y, hy⟩ := Classical.not_forall.mp hhit
      obtain ⟨hy, hspare⟩ := Classical.not_imp.mp hy
      rw [h.spared s y hy hspare] at hx
      exact ⟨hy.trans hx.1, hx.2⟩
  · rwa [h.other s k' hk] at hx

/-- It leaves everything the owner has alone exactly when it does not hit the owner's object. -/
theorem Touches.owned_iff (h : Touches obs mine k hits f) :
    (∀ k', owned obs mine (f s) k' = owned obs mine s k') ↔
      ∀ x, owned obs mine s k = some x → ¬ hits x := by
  constructor
  · intro hall x hx hhit
    obtain ⟨hobs, hmine⟩ := owned_eq_some.mp hx
    rw [← hall k, owned_eq_some] at hx
    have hnot := h.hit s (fun y hy => by rw [hobs] at hy; exact Option.some.inj hy ▸ hhit) x hx.1
    simp [hmine] at hnot
  · intro hspare k'
    apply Option.ext
    intro x
    constructor
    · exact h.owned_of_owned
    · intro hx
      obtain ⟨hobs, hmine⟩ := owned_eq_some.mp hx
      by_cases hk : k' = k
      · subst hk
        exact owned_eq_some.mpr ⟨h.spared s x hobs (hspare x hx), hmine⟩
      · exact owned_eq_some.mpr ⟨by rw [h.other s k' hk]; exact hobs, hmine⟩

end Write

section Writes

variable {key : ι → κ} {hits : ι → β → Prop} {step : σ → ι → σ}

/-- Nor does a sequence of writes add anything. -/
theorem owned_of_foldl : ∀ {l : List ι},
    (∀ i ∈ l, Touches obs mine (key i) (hits i) fun s => step s i) → ∀ {s : σ} {k : κ} {x : β},
      owned obs mine (l.foldl step s) k = some x → owned obs mine s k = some x
  | [], _, _, _, _, hx => hx
  | i :: l, h, s, k, x, hx => by
      have hrest := owned_of_foldl (fun j hj => h j (List.mem_cons_of_mem i hj)) hx
      exact (h i (by simp)).owned_of_owned hrest

/-- A sequence of writes leaves everything the owner has alone exactly when none of them hits an
object the owner has at the start. -/
theorem owned_foldl_iff : ∀ {l : List ι},
    (∀ i ∈ l, Touches obs mine (key i) (hits i) fun s => step s i) → ∀ (s : σ),
      (∀ k, owned obs mine (l.foldl step s) k = owned obs mine s k) ↔
        ∀ i ∈ l, ∀ x, owned obs mine s (key i) = some x → ¬ hits i x
  | [], _, _ => by simp
  | i :: l, h, s => by
      have hi := h i (by simp)
      have hl := fun j hj => h j (List.mem_cons_of_mem i hj)
      have ih := owned_foldl_iff hl (step s i)
      rw [List.forall_mem_cons, List.foldl_cons, ← hi.owned_iff]
      constructor
      · intro hall
        -- nothing that is there at the end was missing in between
        have hfirst : ∀ k, owned obs mine (step s i) k = owned obs mine s k := by
          intro k
          apply Option.ext
          intro x
          constructor
          · exact hi.owned_of_owned
          · intro hx
            rw [← hall k] at hx
            exact owned_of_foldl hl hx
        refine ⟨hfirst, fun j hj x hx => ?_⟩
        exact ih.mp (fun k => (hall k).trans (hfirst k).symm) j hj x ((hfirst (key j)).trans hx)
      · rintro ⟨hfirst, hrest⟩ k
        rw [← hfirst k]
        exact ih.mpr (fun j hj x hx => hrest j hj x ((hfirst (key j)).symm.trans hx)) k

end Writes

end OteStack.Lib
