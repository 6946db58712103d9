/-
# OteStack.Lib.LastWriter — a state that only takes writes stamped later than itself.

A write may use the state it finds (`onto m a`), so two writes need not commute even when the stamps are
ordered: only the stamp of the outcome is fixed.  What does not depend on the order is which write is the
last one to take effect: the one with the largest stamp, if that is larger than the state's own
(`foldl_written_of_latest`), and none otherwise (`foldl_written_of_le`).

Where a write replaces the state altogether (`newest`), the outcome is the latest of what was held and what
was written, whatever the order and the repetitions (`foldl_newest_eq_some_iff`).
-/
import Mathlib.Order.Lattice

namespace OteStack.Lib.LastWriter

variable {A M V : Type} [LinearOrder V] {time : A → V} {stamp : M → V} {onto : M → A → A}

/-- The state after a write. -/
def written (time : A → V) (stamp : M → V) (onto : M → A → A) (a : A) (m : M) : A :=
  if time a < stamp m then onto m a else a

/-- Writes that are not later leave the state alone. -/
theorem foldl_written_of_le {a : A} : ∀ {l : List M}, (∀ m ∈ l, stamp m ≤ time a) →
    l.foldl (written time stamp onto) a = a
  | [], _ => rfl
  | m :: l, h => by
      have hm : written time stamp onto a m = a := if_neg (not_lt.mpr (h m (by simp)))
      rw [List.foldl_cons, hm]
      exact foldl_written_of_le fun m' hm' => h m' (List.mem_cons_of_mem m hm')

/-- Writes below a bound keep the state below it. -/
theorem time_foldl_written_lt (htime : ∀ m a, time (onto m a) = stamp m) {v : V} {l : List M} {a : A}
    (ha : time a < v) (h : ∀ m ∈ l, stamp m < v) : time (l.foldl (written time stamp onto) a) < v := by
  induction l generalizing a with
  | nil => exact ha
  | cons m l ih =>
      rw [List.foldl_cons]
      refine ih ?_ fun m' hm' => h m' (List.mem_cons_of_mem m hm')
      unfold written
      split
      · rw [htime]
        exact h m (by simp)
      · exact ha

/-- Of writes with different stamps the latest one is the last to take effect, in whatever order they
come. -/
theorem foldl_written_of_latest (htime : ∀ m a, time (onto m a) = stamp m) {l : List M} {a : A} {m : M}
    (hdistinct : (l.map stamp).Nodup) (hm : m ∈ l) (hlatest : ∀ m' ∈ l, stamp m' ≤ stamp m)
    (ha : time a < stamp m) : ∃ b, l.foldl (written time stamp onto) a = onto m b := by
  obtain ⟨before, after, rfl⟩ := List.append_of_mem hm
  -- what comes before is strictly older, since no other write has the stamp of `m`
  have hbefore : ∀ m' ∈ before, stamp m' < stamp m := by
    intro m' hm'
    refine lt_of_le_of_ne (hlatest m' (by simp [hm'])) fun heq => ?_
    rw [List.map_append, List.nodup_append] at hdistinct
    exact hdistinct.2.2 (stamp m') (List.mem_map_of_mem hm') (stamp m) (by simp) heq
  have hlt := time_foldl_written_lt htime ha hbefore
  refine ⟨before.foldl (written time stamp onto) a, ?_⟩
  rw [List.foldl_append, List.foldl_cons, written, if_pos hlt]
  refine foldl_written_of_le fun m' hm' => ?_
  rw [htime]
  exact hlatest m' (by simp [hm'])

/-! ## Writes that replace -/

section Newest

/-- The state after a write that replaces what it finds, if that is older. -/
def newest (time : A → V) : Option A → A → Option A
  | none, a => some a
  | some b, a => if time b < time a then some a else some b

/-- After a write the later of the two is held. -/
theorem newest_spec (time : A → V) (o : Option A) (a : A) :
    ∃ d, newest time o a = some d ∧ (o = some d ∨ d = a) ∧ ∀ b, (o = some b ∨ b = a) → time b ≤ time d := by
  cases o with
  | none =>
      refine ⟨a, rfl, Or.inr rfl, ?_⟩
      rintro b (h | rfl)
      · cases h
      · exact le_refl _
  | some c =>
      by_cases hlt : time c < time a
      · refine ⟨a, if_pos hlt, Or.inr rfl, ?_⟩
        rintro b (h | rfl)
        · rw [← Option.some.inj h]
          exact le_of_lt hlt
        · exact le_refl _
      · refine ⟨c, if_neg hlt, Or.inl rfl, ?_⟩
        rintro b (h | rfl)
        · rw [← Option.some.inj h]
        · exact not_lt.mp hlt

/-- After writes the latest of what was held and what was written is held. -/
theorem foldl_newest_spec (time : A → V) : ∀ (l : List A) (o : Option A), (∃ b, o = some b ∨ b ∈ l) →
    ∃ a, l.foldl (newest time) o = some a ∧ (o = some a ∨ a ∈ l) ∧
      ∀ b, (o = some b ∨ b ∈ l) → time b ≤ time a
  | [], o, h => by
      obtain ⟨b, hb⟩ := h
      obtain rfl : o = some b := hb.resolve_right List.not_mem_nil
      refine ⟨b, rfl, Or.inl rfl, ?_⟩
      rintro b' (hb' | hb')
      · rw [Option.some.inj hb']
      · cases hb'
  | c :: l, o, _ => by
      obtain ⟨d, hd, hheld, hlatest⟩ := newest_spec time o c
      obtain ⟨a, ha, hmem, hle⟩ := foldl_newest_spec time l (some d) ⟨d, Or.inl rfl⟩
      refine ⟨a, ?_, ?_, ?_⟩
      · rw [List.foldl_cons, hd, ha]
      · rcases hmem with hmem | hmem
        · obtain rfl : d = a := Option.some.inj hmem
          rcases hheld with hheld | rfl
          · exact Or.inl hheld
          · exact Or.inr List.mem_cons_self
        · exact Or.inr (List.mem_cons_of_mem c hmem)
      · intro b hb
        by_cases hbl : b ∈ l
        · exact hle b (Or.inr hbl)
        · have hfirst : o = some b ∨ b = c := hb.imp_right fun h => (List.mem_cons.mp h).resolve_right hbl
          exact le_trans (hlatest b hfirst) (hle d (Or.inl rfl))

/-- If different writes have different stamps, what is held in the end is the latest of what was held at the
start and what was written. -/
theorem foldl_newest_eq_some_iff {l : List A} {o : Option A} {a : A}
    (hdistinct : ∀ b c, (o = some b ∨ b ∈ l) → (o = some c ∨ c ∈ l) → time b = time c → b = c) :
    l.foldl (newest time) o = some a ↔
      (o = some a ∨ a ∈ l) ∧ ∀ b, (o = some b ∨ b ∈ l) → time b ≤ time a := by
  constructor
  · intro h
    have hsome : ∃ b, o = some b ∨ b ∈ l := by
      cases l with
      | nil => exact ⟨a, Or.inl h⟩
      | cons c l => exact ⟨c, Or.inr List.mem_cons_self⟩
    obtain ⟨b, hb, hspec⟩ := foldl_newest_spec time l o hsome
    obtain rfl : b = a := Option.some.inj (hb.symm.trans h)
    exact hspec
  · rintro ⟨hmem, hle⟩
    obtain ⟨b, hb, hbmem, hble⟩ := foldl_newest_spec time l o ⟨a, hmem⟩
    rw [hb, hdistinct b a hbmem hmem (le_antisymm (hle b hbmem) (hble a hmem))]

end Newest

end OteStack.Lib.LastWriter
