/-
# OteStack.Lib.GoMap — Go's built-in map, its range loop, and loops that work slot by slot.

A Go `map[K]V` is a finite partial function: reading an absent key answers "not there", writing and
deleting touch one key, and two maps are the same when they answer every read alike.  `GoMap` is
Mathlib's `Finmap` under Go's own four operations, so every later proof uses `get_set`,
`get_delete` and `ext` and never looks at the entries.

`range` visits the keys of a map once each, in an order the language leaves open.  A `MapOrder` is
one way to resolve that choice for every map; a result about a function that ranges over a map is
stated for every `MapOrder`.  `MapOrder.sorted` is a computable one, so that models can be run.

The last section is the engine for range loops: when each round of a loop reads and writes one slot
of the state and the rounds have different slots, the loop acts on every slot on its own and its
order does not matter.
-/
import Mathlib.Data.Finmap
import Mathlib.Data.List.Sort
import Mathlib.Data.String.Basic

namespace OteStack.Lib

universe u v

/-! ## The map and its operations -/

/-- A Go map from `κ` to `ν`. -/
def GoMap (κ : Type u) (ν : Type v) : Type (max u v) := Finmap fun _ : κ => ν

namespace GoMap

variable {κ : Type u} {ν : Type v}

instance [DecidableEq κ] [DecidableEq ν] : DecidableEq (GoMap κ ν) :=
  inferInstanceAs (DecidableEq (Finmap fun _ : κ => ν))

/-- The map `make(map[K]V)` returns. -/
def empty : GoMap κ ν := (∅ : Finmap fun _ : κ => ν)

instance : EmptyCollection (GoMap κ ν) := ⟨empty⟩

instance : Inhabited (GoMap κ ν) := ⟨empty⟩

/-- The finite set of keys present. -/
def keys (m : GoMap κ ν) : Finset κ := Finmap.keys m

variable [DecidableEq κ]

/-- The read `v, ok := m[k]`. -/
def get (m : GoMap κ ν) (k : κ) : Option ν := Finmap.lookup k m

/-- The write `m[k] = v`. -/
def set (m : GoMap κ ν) (k : κ) (v : ν) : GoMap κ ν := Finmap.insert k v m

/-- The built-in `delete(m, k)`. -/
def delete (m : GoMap κ ν) (k : κ) : GoMap κ ν := Finmap.erase k m

/-- A map literal: later pairs overwrite earlier ones with the same key. -/
def ofList (l : List (κ × ν)) : GoMap κ ν := l.foldl (fun m e => m.set e.1 e.2) ∅

@[simp] theorem get_empty (k : κ) : (∅ : GoMap κ ν).get k = none := Finmap.lookup_empty k

theorem get_set (m : GoMap κ ν) (k k' : κ) (v : ν) :
    (m.set k v).get k' = if k' = k then some v else m.get k' := by
  by_cases h : k' = k
  · subst h
    rw [if_pos rfl]
    exact Finmap.lookup_insert m
  · rw [if_neg h]
    exact Finmap.lookup_insert_of_ne m h

theorem get_delete (m : GoMap κ ν) (k k' : κ) :
    (m.delete k).get k' = if k' = k then none else m.get k' := by
  by_cases h : k' = k
  · subst h
    rw [if_pos rfl]
    exact Finmap.lookup_erase k' m
  · rw [if_neg h]
    exact Finmap.lookup_erase_ne h

@[simp] theorem get_set_self (m : GoMap κ ν) (k : κ) (v : ν) : (m.set k v).get k = some v := by
  rw [get_set, if_pos rfl]

theorem get_set_of_ne (m : GoMap κ ν) {k k' : κ} (h : k' ≠ k) (v : ν) :
    (m.set k v).get k' = m.get k' := by
  rw [get_set, if_neg h]

@[simp] theorem get_delete_self (m : GoMap κ ν) (k : κ) : (m.delete k).get k = none := by
  rw [get_delete, if_pos rfl]

theorem get_delete_of_ne (m : GoMap κ ν) {k k' : κ} (h : k' ≠ k) :
    (m.delete k).get k' = m.get k' := by
  rw [get_delete, if_neg h]

/-- What is there after a deletion was there before. -/
theorem get_of_get_delete {m : GoMap κ ν} {k k' : κ} {v : ν} (h : (m.delete k).get k' = some v) :
    m.get k' = some v := by
  rw [get_delete] at h
  exact (Option.ite_none_left_eq_some.mp h).2

/-- Go maps have no content beyond what reads answer. -/
theorem ext {m m' : GoMap κ ν} (h : ∀ k, m.get k = m'.get k) : m = m' :=
  Finmap.ext_lookup h

/-- An entry after a write is the one written, or was there before. -/
theorem get_set_eq_some {m : GoMap κ ν} {k k' : κ} {v w : ν} :
    (m.set k v).get k' = some w ↔ k' = k ∧ v = w ∨ k' ≠ k ∧ m.get k' = some w := by
  rw [get_set]
  by_cases h : k' = k
  · simp [h]
  · simp [h]

theorem get_set_ne_none {m : GoMap κ ν} {k k' : κ} {v : ν} :
    (m.set k v).get k' ≠ none ↔ k' = k ∨ m.get k' ≠ none := by
  rw [get_set]
  by_cases h : k' = k
  · simp [h]
  · simp [h]

theorem get_delete_ne_none {m : GoMap κ ν} {k k' : κ} :
    (m.delete k).get k' ≠ none ↔ k' ≠ k ∧ m.get k' ≠ none := by
  rw [get_delete]
  by_cases h : k' = k
  · simp [h]
  · simp [h]

theorem mem_keys {m : GoMap κ ν} {k : κ} : k ∈ m.keys ↔ ∃ v, m.get k = some v :=
  Finmap.mem_keys.trans Finmap.mem_iff

theorem notMem_keys {m : GoMap κ ν} {k : κ} : k ∉ m.keys ↔ m.get k = none :=
  (not_congr Finmap.mem_keys).trans Finmap.lookup_eq_none.symm

theorem mem_keys_of_get {m : GoMap κ ν} {k : κ} {v : ν} (h : m.get k = some v) : k ∈ m.keys :=
  mem_keys.mpr ⟨v, h⟩

/-- The map that answers like `f` on the keys in `s`. -/
def ofKeys (s : Finset κ) (f : κ → Option ν) : GoMap κ ν :=
  Finmap.keysLookupEquiv.symm ⟨(s.filter fun k => (f k).isSome, fun k => if k ∈ s then f k else none), by
    intro k
    by_cases hk : k ∈ s
    · simp [hk]
    · simp [hk]⟩

theorem get_ofKeys (s : Finset κ) (f : κ → Option ν) (k : κ) :
    (ofKeys s f).get k = if k ∈ s then f k else none :=
  Finmap.keysLookupEquiv_symm_apply_lookup _ k

/-- A map laid over another one. -/
def overlay (m m' : GoMap κ ν) : GoMap κ ν := ofKeys (m.keys ∪ m'.keys) fun k => (m'.get k).or (m.get k)

theorem get_overlay (m m' : GoMap κ ν) (k : κ) : (m.overlay m').get k = (m'.get k).or (m.get k) := by
  rw [overlay, get_ofKeys]
  by_cases hk : k ∈ m.keys ∪ m'.keys
  · rw [if_pos hk]
  · rw [Finset.mem_union, not_or, notMem_keys, notMem_keys] at hk
    simp [hk.1, hk.2]

/-- The overlay is the upper map exactly when that has all the keys of the lower one. -/
theorem overlay_eq_right_iff {m m' : GoMap κ ν} : m.overlay m' = m' ↔ m.keys ⊆ m'.keys := by
  constructor
  · intro h k hk
    by_contra hk'
    have hget := get_overlay m m' k
    rw [h, notMem_keys.mp hk', Option.none_or] at hget
    exact notMem_keys.mpr hget.symm hk
  · intro h
    refine ext fun k => ?_
    rw [get_overlay]
    by_cases hk : k ∈ m.keys
    · obtain ⟨v, hv⟩ := mem_keys.mp (h hk)
      rw [hv, Option.some_or]
    · rw [notMem_keys.mp hk, Option.or_none]

/-- The map with every value replaced by its image. -/
def mapValues {ν' : Type*} (f : ν → ν') (m : GoMap κ ν) : GoMap κ ν' := ofKeys m.keys fun k => (m.get k).map f

theorem get_mapValues {ν' : Type*} (f : ν → ν') (m : GoMap κ ν) (k : κ) :
    (m.mapValues f).get k = (m.get k).map f := by
  rw [mapValues, get_ofKeys]
  by_cases hk : k ∈ m.keys
  · rw [if_pos hk]
  · rw [if_neg hk, notMem_keys.mp hk, Option.map_none]

theorem keys_mapValues {ν' : Type*} (f : ν → ν') (m : GoMap κ ν) : (m.mapValues f).keys = m.keys := by
  ext k
  simp [mem_keys, get_mapValues]

/-- What a map literal holds is one of its pairs. -/
theorem mem_of_get_ofList {l : List (κ × ν)} {k : κ} {v : ν} (h : (ofList l).get k = some v) :
    (k, v) ∈ l := by
  have hfold : ∀ (l : List (κ × ν)) (m : GoMap κ ν),
      (l.foldl (fun m e => m.set e.1 e.2) m).get k = some v → (k, v) ∈ l ∨ m.get k = some v := by
    intro l
    induction l with
    | nil => exact fun _ h => Or.inr h
    | cons e l ih =>
        intro m h
        rcases ih _ h with hl | hm
        · exact Or.inl (List.mem_cons_of_mem _ hl)
        · rw [get_set] at hm
          split at hm
          · rename_i hk
            obtain rfl := Option.some.inj hm
            exact Or.inl (hk ▸ List.mem_cons_self)
          · exact Or.inr hm
  exact (hfold l ∅ h).resolve_right (by simp)

/-- A map literal holds nothing under other keys. -/
theorem get_ofList_of_notMem {l : List (κ × ν)} {k : κ} (h : k ∉ l.map Prod.fst) :
    (ofList l).get k = none := by
  by_contra hne
  obtain ⟨v, hv⟩ := Option.ne_none_iff_exists'.mp hne
  exact h (List.mem_map.mpr ⟨(k, v), mem_of_get_ofList hv, rfl⟩)

/-- Deleting a list of keys. -/
theorem get_foldl_delete (l : List κ) (m : GoMap κ ν) (k : κ) :
    (l.foldl delete m).get k = if k ∈ l then none else m.get k := by
  induction l generalizing m with
  | nil => simp
  | cons a l ih =>
      rw [List.foldl_cons, ih, get_delete]
      by_cases hl : k ∈ l
      · simp [hl]
      · by_cases ha : k = a
        · simp [ha]
        · simp [hl, ha]

end GoMap

/-! ## The range loop -/

/-- One resolution of the order in which `range` visits the keys of every map. -/
structure MapOrder (κ : Type u) where
  order : ∀ {ν : Type}, GoMap κ ν → List κ
  nodup : ∀ {ν : Type} (m : GoMap κ ν), (order m).Nodup
  mem_order : ∀ {ν : Type} (m : GoMap κ ν) (k : κ), k ∈ order m ↔ k ∈ m.keys

namespace MapOrder

/-- A map with one entry is ranged over once. -/
theorem order_set_empty {κ : Type u} [DecidableEq κ] {ν : Type} (it : MapOrder κ) (k : κ) (v : ν) :
    it.order ((∅ : GoMap κ ν).set k v) = [k] := by
  apply List.perm_singleton.mp
  refine (List.perm_ext_iff_of_nodup (it.nodup _) (List.nodup_singleton k)).mpr fun k' => ?_
  rw [it.mem_order, GoMap.mem_keys, List.mem_singleton]
  by_cases hk : k' = k
  · simp [hk]
  · simp [GoMap.get_set_of_ne _ hk, hk]

/-- Only an empty map is not ranged over at all. -/
theorem order_eq_nil_iff {κ : Type u} [DecidableEq κ] {ν : Type} (it : MapOrder κ) (m : GoMap κ ν) :
    it.order m = [] ↔ m.keys = ∅ := by
  rw [List.eq_nil_iff_forall_not_mem, Finset.eq_empty_iff_forall_notMem]
  simp only [it.mem_order]

variable {κ : Type u} [LinearOrder κ]

/-- Insertion sort does not see the order of its input. -/
theorem insertionSort_eq_of_perm {l l' : List κ} (h : l.Perm l') :
    l.insertionSort (· ≤ ·) = l'.insertionSort (· ≤ ·) := by
  have hp : (l.insertionSort (· ≤ ·)).Perm (l'.insertionSort (· ≤ ·)) :=
    (List.perm_insertionSort _ l).trans (h.trans (List.perm_insertionSort _ l').symm)
  exact hp.eq_of_pairwise (fun a b _ _ hab hba => le_antisymm hab hba)
    (List.pairwise_insertionSort _ l) (List.pairwise_insertionSort _ l')

/-- The keys of a map in increasing order, computed by structural recursion. -/
def sortedKeys {ν : Type v} (m : GoMap κ ν) : List κ :=
  Quot.liftOn m.keys.val (fun l => l.insertionSort (· ≤ ·)) fun _ _ h => insertionSort_eq_of_perm h

theorem coe_sortedKeys {ν : Type v} (m : GoMap κ ν) : (sortedKeys m : Multiset κ) = m.keys.val := by
  unfold sortedKeys
  generalize m.keys.val = s
  induction s using Quot.inductionOn with
  | _ l => exact Quot.sound (List.perm_insertionSort _ l)

/-- `range` in increasing key order. -/
def sorted : MapOrder κ where
  order := sortedKeys
  nodup m := by
    rw [← Multiset.coe_nodup, coe_sortedKeys]
    exact m.keys.nodup
  mem_order m k := by
    rw [← Multiset.mem_coe, coe_sortedKeys]
    exact Iff.of_eq Finset.mem_val

theorem pairwise_sorted {ν : Type} (m : GoMap κ ν) : (sorted.order m).Pairwise (· ≤ ·) := by
  show (sortedKeys m).Pairwise (· ≤ ·)
  unfold sortedKeys
  generalize m.keys.val = s
  induction s using Quot.inductionOn with
  | _ l => exact List.pairwise_insertionSort _ l

end MapOrder

/-! ## Loops that work slot by slot -/

section SlotLoop

variable {σ : Type*} {ι : Type*} {α : Type*} {β : Type*} (obs : σ → α → β) (slot : ι → α)
  (step : σ → ι → σ)

/-- A loop none of whose rounds has slot `a` leaves slot `a` alone. -/
theorem foldl_obs_of_notMem :
    ∀ {l : List ι}, (∀ i ∈ l, ∀ s a, a ≠ slot i → obs (step s i) a = obs s a) →
      ∀ {a : α}, a ∉ l.map slot → ∀ s, obs (l.foldl step s) a = obs s a
  | [], _, _, _, _ => rfl
  | i :: l, hother, a, ha, s => by
      rw [List.map_cons, List.mem_cons, not_or] at ha
      rw [List.foldl_cons, foldl_obs_of_notMem (fun j hj => hother j (List.mem_cons_of_mem _ hj)) ha.2]
      exact hother i (by simp) s a ha.1

/-- A loop whose rounds have pairwise different slots treats the slot of each round as that round does
alone, in some state that agrees with the first one on the slot. -/
theorem foldl_at_slot :
    ∀ {l : List ι}, (l.map slot).Nodup →
      (∀ i ∈ l, ∀ s a, a ≠ slot i → obs (step s i) a = obs s a) →
      ∀ i ∈ l, ∀ s, ∃ s', obs s' (slot i) = obs s (slot i) ∧
        obs (l.foldl step s) (slot i) = obs (step s' i) (slot i)
  | j :: l, hn, hother, i, hi, s => by
      rw [List.map_cons, List.nodup_cons] at hn
      have hother' := fun k hk => hother k (List.mem_cons_of_mem j hk)
      rw [List.foldl_cons]
      rcases List.mem_cons.mp hi with rfl | hi
      · exact ⟨s, rfl, foldl_obs_of_notMem obs slot step hother' hn.1 _⟩
      · have hne : slot i ≠ slot j := fun h => hn.1 (h ▸ List.mem_map_of_mem hi)
        obtain ⟨s', hs', hfinal⟩ := foldl_at_slot hn.2 hother' i hi (step s j)
        exact ⟨s', hs'.trans (hother j (by simp) s _ hne), hfinal⟩

/-- When a round maps the content of its slot by `f`, so does the whole loop. -/
theorem foldl_obs_slot (f : ι → β → β) {l : List ι} (hn : (l.map slot).Nodup)
    (hself : ∀ i ∈ l, ∀ s, obs (step s i) (slot i) = f i (obs s (slot i)))
    (hother : ∀ i ∈ l, ∀ s a, a ≠ slot i → obs (step s i) a = obs s a) :
    ∀ i ∈ l, ∀ s, obs (l.foldl step s) (slot i) = f i (obs s (slot i)) := by
  intro i hi s
  obtain ⟨s', hs', hfinal⟩ := foldl_at_slot obs slot step hn hother i hi s
  rw [hfinal, hself i hi, hs']

end SlotLoop

/-! ## Range loops over the keys of a map -/

namespace MapOrder

variable {κ : Type u} [DecidableEq κ] {ν : Type} {σ : Type*} {β : Type*}

/-- A range loop in which the round of key `k` works on slot `k` only: afterwards the slot of a key
of the map is what its round makes of it, and every other slot is as before. -/
theorem obs_range (it : MapOrder κ) (m : GoMap κ ν) (obs : σ → κ → β) (step : σ → κ → σ)
    (f : κ → β → β) (hself : ∀ k, m.get k ≠ none → ∀ s, obs (step s k) k = f k (obs s k))
    (hother : ∀ k, m.get k ≠ none → ∀ s a, a ≠ k → obs (step s k) a = obs s a) (s : σ) (k : κ) :
    obs ((it.order m).foldl step s) k = if m.get k = none then obs s k else f k (obs s k) := by
  have hmem : ∀ i, i ∈ it.order m ↔ m.get i ≠ none := fun i => by
    rw [it.mem_order, ← not_iff_not, not_not, GoMap.notMem_keys]
  by_cases hk : m.get k = none
  · rw [if_pos hk]
    exact foldl_obs_of_notMem obs id step (fun i hi => hother i ((hmem i).mp hi))
      (by simpa using fun h => (hmem k).mp h hk) s
  · rw [if_neg hk]
    exact foldl_obs_slot obs id step f (by simpa using it.nodup m)
      (fun i hi => hself i ((hmem i).mp hi)) (fun i hi => hother i ((hmem i).mp hi)) k
      ((hmem k).mpr hk) s

end MapOrder

end OteStack.Lib
