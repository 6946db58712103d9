/-
# OteStack.Lib.GoStrings — the parts of Go's `strings` and `strconv` that work character by character.

A Lean `String` and the list of its characters carry the same information (`String.toList`,
`String.ofList`), so `Split`, `Join`, `TrimSpace` and `Atoi` are given on lists of characters, where
Mathlib and core have the lemmas.  `Split` and `Join` take a separator of one character.
-/
import Mathlib.Data.List.DropRight
import Mathlib.Data.String.Basic

namespace OteStack.Lib.GoStrings

/-- The White_Space property, as `unicode.IsSpace` tests it. -/
def isSpace (c : Char) : Bool :=
  let n := c.toNat
  (9 ≤ n && n ≤ 13) || n == 0x20 || n == 0x85 || n == 0xA0 || n == 0x1680 ||
    (0x2000 ≤ n && n ≤ 0x200A) || n == 0x2028 || n == 0x2029 || n == 0x202F || n == 0x205F ||
    n == 0x3000

/-- Go's `strings.TrimSpace`: leading and trailing white space removed. -/
def trimSpace (s : String) : String :=
  String.ofList ((s.toList.dropWhile isSpace).rdropWhile isSpace)

/-- Go's `strings.Split(s, sep)`; the empty string splits into one empty piece. -/
def split (sep : Char) (s : String) : List String :=
  (s.toList.splitOn sep).map String.ofList

/-- Go's `strings.Join(l, sep)`. -/
def join (sep : Char) (l : List String) : String :=
  String.ofList ([sep].intercalate (l.map String.toList))

/-- Splitting a joined list gives the pieces back, when there is a piece and no piece holds the
separator. -/
theorem split_join {sep : Char} {l : List String} (hne : l ≠ []) (h : ∀ s ∈ l, sep ∉ s.toList) :
    split sep (join sep l) = l := by
  have hpieces : ([sep].intercalate (l.map String.toList)).splitOn sep = l.map String.toList := by
    refine List.splitOn_intercalate sep ?_ (by simpa using hne)
    intro cs hcs
    obtain ⟨s, hs, rfl⟩ := List.mem_map.mp hcs
    exact h s hs
  rw [split, join, String.toList_ofList, hpieces, List.map_map]
  simp

/-- The first piece ends at the first separator. -/
theorem split_append {sep : Char} {a b : String} (h : sep ∉ a.toList) :
    split sep (a ++ String.singleton sep ++ b) = a :: split sep b := by
  have hlist : (a ++ String.singleton sep ++ b).toList = a.toList ++ sep :: b.toList := by simp
  rw [split, hlist, List.splitOn_append_cons_self_of_not_mem h, List.map_cons, String.ofList_toList, split]

theorem split_eq_cons (sep : Char) (s : String) :
    ∃ rest, split sep s = String.ofList (s.toList.takeWhile (· ≠ sep)) :: rest := by
  have hsplit : ∀ l : List Char, ∃ rest, l.splitOn sep = l.takeWhile (· ≠ sep) :: rest := by
    intro l
    induction l with
    | nil => exact ⟨[], List.splitOn_nil sep⟩
    | cons c l ih =>
        obtain ⟨rest, hrest⟩ := ih
        rw [List.splitOn_cons_eq_if_modifyHead, hrest]
        by_cases hc : c = sep
        · simp [hc]
        · simp [hc]
  obtain ⟨rest, hrest⟩ := hsplit s.toList
  exact ⟨rest.map String.ofList, by rw [split, hrest, List.map_cons]⟩

/-- `TrimSpace` leaves a string without white space alone. -/
theorem trimSpace_eq_self {s : String} (h : ∀ c ∈ s.toList, isSpace c = false) :
    trimSpace s = s := by
  have hfront : s.toList.dropWhile isSpace = s.toList := by
    rw [List.dropWhile_eq_self_iff]
    intro hl
    simp [h _ (List.getElem_mem hl)]
  have hback : s.toList.rdropWhile isSpace = s.toList := by
    rw [List.rdropWhile_eq_self_iff]
    intro hl
    simp [h _ (List.getLast_mem hl)]
  rw [trimSpace, hfront, hback, String.ofList_toList]

/-- `strings.Index` and the two pieces around it: a string cut at the first separator. -/
def cut (sep : Char) (s : String) : Option (String × String) :=
  if sep ∈ s.toList then
    some (String.ofList (s.toList.takeWhile (· ≠ sep)),
      String.ofList ((s.toList.dropWhile (· ≠ sep)).drop 1))
  else none

/-- The separator of a piece that has none is the first one. -/
theorem cut_append {sep : Char} {a b : String} (h : sep ∉ a.toList) :
    cut sep (a ++ String.singleton sep ++ b) = some (a, b) := by
  have hne : ∀ c ∈ a.toList, decide (c ≠ sep) = true := by
    intro c hc
    rw [decide_eq_true_iff]
    rintro rfl
    exact h hc
  have hlist : (a ++ String.singleton sep ++ b).toList = a.toList ++ sep :: b.toList := by simp
  rw [cut, hlist, if_pos (by simp), List.takeWhile_append_of_pos hne, List.dropWhile_append_of_pos hne]
  simp

/-- The pieces and the separator are the string. -/
theorem eq_of_cut {sep : Char} {s a b : String} (h : cut sep s = some (a, b)) :
    s = a ++ String.singleton sep ++ b := by
  obtain ⟨hmem, hab⟩ := Option.ite_none_right_eq_some.mp h
  obtain ⟨rfl, rfl⟩ := Prod.mk.inj (Option.some.inj hab)
  have hhead : s.toList.dropWhile (· ≠ sep) = sep :: (s.toList.dropWhile (· ≠ sep)).drop 1 := by
    cases hdrop : s.toList.dropWhile (· ≠ sep) with
    | nil => exact absurd (List.dropWhile_eq_nil_iff.mp hdrop sep hmem) (by simp)
    | cons c rest =>
        have hc := List.head_dropWhile_not (l := s.toList) (· ≠ sep) (by simpa using hmem)
        simp only [hdrop, List.head_cons, decide_eq_false_iff_not, ne_eq, not_not] at hc
        simp [hc]
  refine String.toList_inj.mp ?_
  rw [String.toList_append, String.toList_append, String.toList_ofList, String.toList_ofList,
    String.toList_singleton, List.append_assoc, List.singleton_append, ← hhead,
    List.takeWhile_append_dropWhile]

/-- Go's `strings.HasPrefix(s, start)`. -/
def hasPrefix (s start : String) : Bool := start.toList.isPrefixOf s.toList

/-- A list of characters cut around the first place where the separator stands. -/
def cutOn (sep : List Char) : List Char → Option (List Char × List Char)
  | [] => none
  | c :: cs =>
      if sep.isPrefixOf (c :: cs) then some ([], (c :: cs).drop sep.length)
      else (cutOn sep cs).map fun pieces => (c :: pieces.1, pieces.2)

/-- Go's `strings.SplitN(s, sep, 2)` for a separator that is not empty. -/
def splitN2 (s sep : String) : List String :=
  match cutOn sep.toList s.toList with
  | some (before, after) => [String.ofList before, String.ofList after]
  | none => [s]

theorem cutOn_append {c : Char} {sep a b : List Char} (h : c ∉ a) :
    cutOn (c :: sep) (a ++ (c :: sep) ++ b) = some (a, b) := by
  induction a with
  | nil => simp [cutOn]
  | cons d a ih =>
      rw [List.mem_cons, not_or] at h
      rw [List.cons_append, List.cons_append, cutOn, if_neg (by simp [h.1]), ih h.2]
      rfl

/-- The separator stands first where its first character does, after a piece that does not have it. -/
theorem splitN2_append {a b sep : String} {c : Char} {cs : List Char} (hsep : sep.toList = c :: cs)
    (h : c ∉ a.toList) : splitN2 (a ++ sep ++ b) sep = [a, b] := by
  have hlist : (a ++ sep ++ b).toList = a.toList ++ (c :: cs) ++ b.toList := by simp [hsep]
  rw [splitN2, hlist, hsep, cutOn_append h]
  simp

/-! ## `strconv.Atoi` -/

/-- The number a non-empty list of decimal digits denotes. -/
def digitsValue (ds : List Char) : Option ℕ :=
  if ds.isEmpty || !ds.all Char.isDigit then none
  else some (ds.foldl (fun n d => 10 * n + (d.toNat - '0'.toNat)) 0)

/-- Go's `strconv.Atoi` where `int` has 64 bits; `none` is an error. -/
def atoi (s : String) : Option ℤ :=
  match s.toList with
  | '-' :: ds => (digitsValue ds).bind fun n => if n ≤ 2 ^ 63 then some (-n) else none
  | '+' :: ds => (digitsValue ds).bind fun n => if n < 2 ^ 63 then some n else none
  | ds => (digitsValue ds).bind fun n => if n < 2 ^ 63 then some n else none

@[simp] theorem atoi_empty : atoi "" = none := by decide

example : atoi "1042" = some 1042 := by decide

end OteStack.Lib.GoStrings
