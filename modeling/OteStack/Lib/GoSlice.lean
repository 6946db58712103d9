/-
# OteStack.Lib.GoSlice — slices as views of shared arrays.

A Go slice is a header: an array, where it starts in it, its length and its capacity.  Two slices may view
the same array, so what is written through one is seen through the other.  Arrays are numbered cells of a
memory, and the operations of a slice return the memory afterwards.

`append` writes in place as long as the capacity allows, and otherwise to a new array.  `elems_append` says
what the slice it returns holds, and `elems_append_shared` what a longer slice of the same array holds after
an append in place.
-/
import Mathlib.Data.List.Basic

namespace OteStack.Lib

/-- The backing arrays, by number. -/
abbrev Arrays (α : Type*) := List (List α)

/-- A slice header. -/
structure Slice where
  array : ℕ
  start : ℕ
  len : ℕ
  cap : ℕ
  deriving DecidableEq, Repr

/-- A list with the elements `xs` written from an index on. -/
def overwrite {α : Type*} (l : List α) (i : ℕ) (xs : List α) : List α :=
  l.take i ++ xs ++ l.drop (i + xs.length)

namespace Slice

variable {α : Type*}

/-- What a slice holds. -/
def elems (mem : Arrays α) (s : Slice) : List α := ((mem.getD s.array []).drop s.start).take s.len

/-- The slice `s[:n]`. -/
def upTo (s : Slice) (n : ℕ) : Slice := { s with len := n }

/-- The slice `s[n:]`. -/
def after (s : Slice) (n : ℕ) : Slice := ⟨s.array, s.start + n, s.len - n, s.cap - n⟩

/-- The capacity of a slice is within its array, and its length within its capacity. -/
def Valid (mem : Arrays α) (s : Slice) : Prop :=
  ∃ l, mem[s.array]? = some l ∧ s.start + s.cap ≤ l.length ∧ s.len ≤ s.cap

/-- The slice `t` begins where `s` begins, and is at least as long. -/
def Extends (t s : Slice) : Prop := t.array = s.array ∧ t.start = s.start ∧ s.len ≤ t.len

/-- Go's `append(s, xs...)`.  How much capacity a new array gets beyond what is needed is up to `grow`. -/
def append [Inhabited α] (grow : ℕ → ℕ → ℕ) (mem : Arrays α) (s : Slice) (xs : List α) :
    Arrays α × Slice :=
  let len := s.len + xs.length
  if len ≤ s.cap then
    (mem.modify s.array fun l => overwrite l (s.start + s.len) xs, { s with len := len })
  else
    let cap := max len (grow s.cap len)
    (mem ++ [s.elems mem ++ xs ++ List.replicate (cap - len) default], ⟨mem.length, 0, len, cap⟩)

/-! ## Overwriting -/

section Overwrite

variable {l xs : List α} {i n m : ℕ}

theorem length_overwrite (h : i + xs.length ≤ l.length) : (overwrite l i xs).length = l.length := by
  simp only [overwrite, List.length_append, List.length_take, List.length_drop]
  omega

theorem drop_overwrite (h : i + n ≤ l.length) :
    (overwrite l (i + n) xs).drop i = overwrite (l.drop i) n xs := by
  have hlen : i ≤ (l.take (i + n)).length := by
    rw [List.length_take]
    omega
  rw [overwrite, overwrite, List.append_assoc, List.drop_append_of_le_length hlen, List.drop_take,
    List.drop_drop, Nat.add_sub_cancel_left, List.append_assoc]
  congr 3
  omega

theorem take_overwrite (h : n + xs.length ≤ m) (hm : m ≤ l.length) :
    (overwrite l n xs).take m = overwrite (l.take m) n xs := by
  have hn : (l.take n).length = n := by
    rw [List.length_take]
    omega
  have hfirst : (l.take m).take n = l.take n := by
    rw [List.take_take, Nat.min_eq_left (by omega)]
  rw [overwrite, overwrite, List.take_append, List.length_append, hn, hfirst, List.drop_take,
    List.take_of_length_le]
  rw [List.length_append, hn]
  exact h

end Overwrite

/-! ## Appending -/

variable {mem : Arrays α} {s t : Slice}

theorem elems_of_array {l : List α} (h : mem[s.array]? = some l) :
    s.elems mem = (l.drop s.start).take s.len := by
  rw [elems, List.getD, h, Option.getD_some]

theorem length_elems (h : s.Valid mem) : (s.elems mem).length = s.len := by
  obtain ⟨l, hl, hcap, hlen⟩ := h
  rw [elems_of_array hl, List.length_take, List.length_drop]
  omega

theorem elems_upTo {n : ℕ} (h : n ≤ s.len) : (s.upTo n).elems mem = (s.elems mem).take n := by
  rw [elems, elems, List.take_take]
  rw [Nat.min_eq_left h]
  rfl

theorem elems_after (n : ℕ) : (s.after n).elems mem = (s.elems mem).drop n := by
  rw [elems, elems, List.drop_take, List.drop_drop]
  rfl

theorem Valid.upTo (h : s.Valid mem) {n : ℕ} (hn : n ≤ s.cap) : (s.upTo n).Valid mem := by
  obtain ⟨l, hl, hcap, -⟩ := h
  exact ⟨l, hl, hcap, hn⟩

/-- The part of a longer slice that a shorter one views. -/
theorem Extends.elems_eq (h : t.Extends s) : s.elems mem = (t.elems mem).take s.len := by
  obtain ⟨harray, hstart, hlen⟩ := h
  rw [elems, elems, List.take_take, Nat.min_eq_left hlen, harray, hstart]

/-- After an append in place, a longer slice of the same array sees what has been written. -/
theorem elems_append_shared [Inhabited α] (grow : ℕ → ℕ → ℕ) {xs : List α} (hs : s.len + xs.length ≤ s.cap)
    (ht : t.Valid mem) (hext : t.Extends s) (hlen : s.len + xs.length ≤ t.len) :
    t.elems (s.append grow mem xs).1 = overwrite (t.elems mem) s.len xs ∧
      t.Valid (s.append grow mem xs).1 := by
  obtain ⟨l, hl, hcap, htlen⟩ := ht
  obtain ⟨harray, hstart, -⟩ := hext
  have hl' : (s.append grow mem xs).1[t.array]? = some (overwrite l (s.start + s.len) xs) := by
    simp [append, hs, ← harray, hl]
  refine ⟨?_, overwrite l (s.start + s.len) xs, hl', ?_, htlen⟩
  · rw [elems_of_array hl', elems_of_array hl, hstart, drop_overwrite (by omega), take_overwrite hlen]
    rw [List.length_drop]
    omega
  · rw [length_overwrite (by omega)]
    exact hcap

/-- What the slice holds that `append` returns. -/
theorem elems_append [Inhabited α] (grow : ℕ → ℕ → ℕ) (h : s.Valid mem) (xs : List α) :
    (s.append grow mem xs).2.elems (s.append grow mem xs).1 = s.elems mem ++ xs ∧
      (s.append grow mem xs).2.Valid (s.append grow mem xs).1 := by
  by_cases hroom : s.len + xs.length ≤ s.cap
  · -- in place: the slice returned is a longer one of the same array
    have hreturned : (s.append grow mem xs).2 = s.upTo (s.len + xs.length) := by
      simp [append, hroom, upTo]
    have hext : (s.upTo (s.len + xs.length)).Extends s := ⟨rfl, rfl, Nat.le_add_right _ _⟩
    obtain ⟨helems, hvalid⟩ := elems_append_shared grow hroom (h.upTo hroom) hext (Nat.le_refl _)
    rw [hreturned]
    refine ⟨?_, hvalid⟩
    have htake : ((s.upTo (s.len + xs.length)).elems mem).take s.len = s.elems mem := (hext.elems_eq).symm
    have hdrop : ((s.upTo (s.len + xs.length)).elems mem).drop (s.len + xs.length) = [] := by
      rw [List.drop_eq_nil_iff, length_elems (h.upTo hroom)]
      exact Nat.le_refl _
    rw [helems, overwrite, htake, hdrop, List.append_nil]
  · have hlen := length_elems h
    -- a new array, whose first elements are those of the slice and the new ones
    have hnew : ∀ rest : List α, (mem ++ [s.elems mem ++ xs ++ rest])[mem.length]? =
        some (s.elems mem ++ xs ++ rest) := by simp
    simp only [append, if_neg hroom]
    refine ⟨?_, _, hnew _, ?_, Nat.le_max_left _ _⟩
    · rw [elems_of_array (hnew _), List.drop_zero, List.take_left']
      rw [List.length_append, hlen]
    · simp only [List.length_append, List.length_replicate, hlen]
      omega

/-! ## Removing

`append(s[:n], s[n+1:]...)`, the way to take an element out of a slice. -/

section Remove

variable {n : ℕ}

theorem length_remove (hs : s.Valid mem) (hn : n < s.len) :
    (s.upTo n).len + ((s.after (n + 1)).elems mem).length = s.len - 1 := by
  rw [elems_after, List.length_drop, length_elems hs]
  show n + (s.len - (n + 1)) = s.len - 1
  omega

/-- There is room for it: it works in place. -/
theorem remove_le_cap (hs : s.Valid mem) (hn : n < s.len) :
    (s.upTo n).len + ((s.after (n + 1)).elems mem).length ≤ (s.upTo n).cap := by
  rw [length_remove hs hn]
  obtain ⟨l, -, -, hcap⟩ := hs
  exact Nat.le_trans (Nat.sub_le _ _) hcap

/-- The slice returned is one shorter. -/
theorem slice_remove [Inhabited α] (grow : ℕ → ℕ → ℕ) (hs : s.Valid mem) (hn : n < s.len) :
    ((s.upTo n).append grow mem ((s.after (n + 1)).elems mem)).2 = s.upTo (s.len - 1) := by
  rw [append, if_pos (remove_le_cap hs hn), length_remove hs hn]
  rfl

/-- It holds the other elements. -/
theorem elems_remove [Inhabited α] (grow : ℕ → ℕ → ℕ) (hs : s.Valid mem) (hn : n < s.len) :
    (s.upTo (s.len - 1)).elems ((s.upTo n).append grow mem ((s.after (n + 1)).elems mem)).1 =
        (s.elems mem).eraseIdx n ∧
      (s.upTo (s.len - 1)).Valid ((s.upTo n).append grow mem ((s.after (n + 1)).elems mem)).1 := by
  have hcap : n ≤ s.cap := by
    obtain ⟨l, -, -, hcap⟩ := hs
    exact Nat.le_trans (Nat.le_of_lt hn) hcap
  obtain ⟨helems, hvalid⟩ := elems_append grow (hs.upTo hcap) ((s.after (n + 1)).elems mem)
  rw [slice_remove grow hs hn] at helems hvalid
  refine ⟨helems.trans ?_, hvalid⟩
  rw [elems_upTo (Nat.le_of_lt hn), elems_after, List.eraseIdx_eq_take_drop_succ]

/-- A longer slice of the same array sees the later elements move up, and the last one stay as well. -/
theorem elems_remove_shared [Inhabited α] (grow : ℕ → ℕ → ℕ) (hs : s.Valid mem) (ht : t.Valid mem)
    (hext : t.Extends s) (hn : n < s.len) :
    t.elems ((s.upTo n).append grow mem ((s.after (n + 1)).elems mem)).1 =
        (s.elems mem).eraseIdx n ++ (t.elems mem).drop (s.len - 1) ∧
      t.Valid ((s.upTo n).append grow mem ((s.after (n + 1)).elems mem)).1 := by
  obtain ⟨harray, hstart, hlen⟩ := hext
  have hextN : t.Extends (s.upTo n) := ⟨harray, hstart, Nat.le_trans (Nat.le_of_lt hn) hlen⟩
  have hfits : (s.upTo n).len + ((s.after (n + 1)).elems mem).length ≤ t.len := by
    rw [length_remove hs hn]
    exact Nat.le_trans (Nat.sub_le _ _) hlen
  obtain ⟨helems, hvalid⟩ := elems_append_shared grow (remove_le_cap hs hn) ht hextN hfits
  refine ⟨?_, hvalid⟩
  have htake : (t.elems mem).take (s.upTo n).len = (s.elems mem).take n := by
    rw [← hextN.elems_eq, elems_upTo (Nat.le_of_lt hn)]
  rw [helems, overwrite, length_remove hs hn, htake, elems_after, List.eraseIdx_eq_take_drop_succ]

end Remove

end Slice

end OteStack.Lib
