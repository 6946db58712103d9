/-
# OteStack.Lib.MergePatch — documents and JSON merge patches.

A merge patch is itself a document: where it holds an object it is applied member by member, a `null`
member removes, and anything else replaces.  So a document here is `null`, a scalar of an arbitrary type
(a merge patch replaces strings, numbers and arrays alike), or an object: a finite set of names and a
value for each of them.

Encodings of structures are read at paths.  `read path d` is the scalar at a path, or that there is none
because a name on the way is missing; it fails where the document has another shape.  On documents that
can be read at a path, a merge patch is an overlay (`read_mergePatch`).
-/
import OteStack.Lib.GoMap

namespace OteStack.Lib

/-- A document with scalars in `α`. -/
inductive Doc (α : Type) where
  | null
  | scalar (a : α)
  | obj (keys : Finset String) (val : String → Doc α)

namespace Doc

variable {α β : Type}

/-- The names of the members. -/
def keys : Doc α → Finset String
  | obj keys _ => keys
  | _ => ∅

/-- A member, if it is there. -/
def member : Doc α → String → Option (Doc α)
  | obj keys val, n => if n ∈ keys then some (val n) else none
  | _, _ => none

/-- The value that removes a member. -/
def isNull : Doc α → Bool
  | null => true
  | _ => false

/-! ## Merge patches -/

/-- The merge patch `patch`, applied to `target`. -/
def mergePatch : Doc α → Doc α → Doc α
  | target, obj keys val =>
      obj ((target.keys ∪ keys).filter fun n => ¬ (n ∈ keys ∧ (val n).isNull = true)) fun n =>
        if n ∈ keys then mergePatch ((target.member n).getD null) (val n)
        else (target.member n).getD null
  | _, patch => patch

theorem mem_keys_iff {d : Doc α} {n : String} : n ∈ d.keys ↔ d.member n ≠ none := by
  cases d with
  | null => simp [keys, member]
  | scalar a => simp [keys, member]
  | obj keys' val => simp [keys, member]

theorem member_mergePatch (target : Doc α) (names : Finset String) (val : String → Doc α) (n : String) :
    (mergePatch target (obj names val)).member n =
      if n ∈ names then
        if (val n).isNull then none else some (mergePatch ((target.member n).getD null) (val n))
      else target.member n := by
  rw [mergePatch, member]
  by_cases hn : n ∈ names
  · by_cases hnull : (val n).isNull = true
    · simp [hn, hnull]
    · simp [hn, hnull]
  · by_cases ht : target.member n = none
    · simp [hn, mem_keys_iff, ht]
    · obtain ⟨d, hd⟩ := Option.ne_none_iff_exists'.mp ht
      simp [hn, mem_keys_iff, hd]

/-! ## Reading at a path -/

/-- The scalar at a path; `some none` when a name on the way is missing. -/
def read : List String → Doc α → Option (Option α)
  | [], scalar a => some (some a)
  | [], _ => none
  | n :: path, obj keys val =>
      match (obj keys val).member n with
      | none => some none
      | some d => read path d
  | _ :: _, _ => none

theorem read_ne_null {path : List String} {v : Option α} : read path null ≠ some v := by
  cases path <;> simp [read]

/-- What a document says about the rest of a path; nothing at all says nothing. -/
theorem member_of_read {n : String} {path : List String} {target : Doc α} {a : Option α}
    (h : read (n :: path) target = some a ∨ target = null ∧ a = none) :
    (target.member n = none ∧ a = none) ∨ ∃ d, target.member n = some d ∧ read path d = some a := by
  rcases h with hread | ⟨rfl, rfl⟩
  · cases target with
    | null => exact absurd hread read_ne_null
    | scalar s => simp [read] at hread
    | obj names val =>
        rw [read] at hread
        rcases hm : (obj names val).member n with _ | d
        · rw [hm] at hread
          exact Or.inl ⟨rfl, (Option.some.inj hread).symm⟩
        · rw [hm] at hread
          exact Or.inr ⟨d, rfl, hread⟩
  · exact Or.inl ⟨rfl, rfl⟩

theorem isNull_of_read {path : List String} {d : Doc α} {b : Option α} (h : read path d = some b) :
    d.isNull = false := by
  cases d with
  | null => exact absurd h read_ne_null
  | scalar s => rfl
  | obj names val => rfl

/-- A patch that can be read at a path, applied to a document that can be read there, or to nothing:
the scalar of the patch, and where it has none the one that was there. -/
theorem read_mergePatch {path : List String} :
    ∀ {target patch : Doc α} {a b : Option α},
      (read path target = some a ∨ target = null ∧ a = none) → read path patch = some b →
      read path (mergePatch target patch) = some (b.or a) := by
  induction path with
  | nil =>
      intro target patch a b _ hpatch
      cases patch with
      | scalar s =>
          obtain rfl : some s = b := Option.some.inj hpatch
          rfl
      | null => exact absurd hpatch read_ne_null
      | obj names val => simp [read] at hpatch
  | cons n path ih =>
      intro target patch a b htarget hpatch
      cases patch with
      | scalar s => simp [read] at hpatch
      | null => exact absurd hpatch read_ne_null
      | obj names val =>
          have hmember := member_of_read htarget
          have hmerge := member_mergePatch target names val n
          rw [mergePatch] at hmerge ⊢
          rw [read, hmerge]
          rw [read, member] at hpatch
          by_cases hn : n ∈ names
          · rw [if_pos hn] at hpatch ⊢
            rw [isNull_of_read hpatch]
            refine ih ?_ hpatch
            rcases hmember with ⟨hm, ha⟩ | ⟨d, hm, hd⟩
            · rw [hm]
              exact Or.inr ⟨rfl, ha⟩
            · rw [hm]
              exact Or.inl hd
          · rw [if_neg hn] at hpatch ⊢
            obtain rfl : none = b := Option.some.inj hpatch
            rcases hmember with ⟨hm, rfl⟩ | ⟨d, hm, hd⟩
            · rw [hm]
              rfl
            · rw [hm, Option.none_or]
              exact hd

/-! ## Building documents -/

/-- An object from its members in the order of a structure; `none` is a member that is left out. -/
def ofFields (fields : List (String × Option (Doc α))) : Doc α :=
  obj ((fields.map Prod.fst).toFinset.filter fun n => (fields.lookup n).join.isSome) fun n =>
    (fields.lookup n).join.getD null

/-- Reading on in a member that may have been left out. -/
def readField (path : List String) : Option (Doc α) → Option (Option α)
  | none => some none
  | some d => read path d

theorem read_ofFields (fields : List (String × Option (Doc α))) (n : String) (path : List String) :
    read (n :: path) (ofFields fields) = readField path (fields.lookup n).join := by
  rw [ofFields, read, member]
  rcases hd : (fields.lookup n).join with _ | d
  · simp [hd, readField]
  · have hmem : n ∈ fields.map Prod.fst := by
      obtain ⟨before, after, rfl, -⟩ := List.lookup_eq_some_iff.mp (Option.join_eq_some_iff.mp hd)
      simp
    simp [hd, readField, List.mem_map.mp hmem]

/-- Reading in an object within an object. -/
theorem read_ofFields_ofFields {sections fields : List (String × Option (Doc α))} {m n : String}
    {v : Option (Doc α)} (hsection : sections.lookup m = some (some (ofFields fields)))
    (hfield : fields.lookup n = some v) (path : List String) :
    read (m :: n :: path) (ofFields sections) = readField path v := by
  rw [read_ofFields, hsection]
  show read (n :: path) (ofFields fields) = _
  rw [read_ofFields, hfield]
  rfl

/-- A map with scalar values. -/
def ofMap (f : β → α) (m : GoMap String β) : Doc α :=
  obj m.keys fun n =>
    match m.get n with
    | some b => scalar (f b)
    | none => null

theorem read_ofMap (f : β → α) (m : GoMap String β) (n : String) :
    read [n] (ofMap f m) = some ((m.get n).map f) := by
  rw [ofMap, read, member]
  rcases hn : m.get n with _ | b
  · rw [if_neg (GoMap.notMem_keys.mpr hn)]
    rfl
  · rw [if_pos (GoMap.mem_keys_of_get hn)]
    rfl

/-! ## Reading maps -/

/-- The names below a path. -/
def keysAt : List String → Doc α → Finset String
  | [], d => d.keys
  | n :: path, d =>
      match d.member n with
      | none => ∅
      | some d' => keysAt path d'

/-- A name below a path is read there. -/
theorem mem_keysAt_iff {path : List String} {d : Doc α} {n : String} {v : Option α}
    (h : read (path ++ [n]) d = some v) : n ∈ keysAt path d ↔ v ≠ none := by
  induction path generalizing d with
  | nil =>
      cases d with
      | null => simp [read] at h
      | scalar s => simp [read] at h
      | obj names val =>
          rw [List.nil_append, read] at h
          rw [keysAt, mem_keys_iff]
          rcases hm : (obj names val).member n with _ | d'
          · rw [hm] at h
            obtain rfl : none = v := Option.some.inj h
            simp
          · rw [hm] at h
            cases d' with
            | null => simp [read] at h
            | scalar s =>
                obtain rfl : some s = v := Option.some.inj h
                simp
            | obj names' val' => simp [read] at h
  | cons n' path ih =>
      cases d with
      | null => simp [read] at h
      | scalar s => simp [read] at h
      | obj names val =>
          rw [List.cons_append, read] at h
          rw [keysAt]
          rcases hm : (obj names val).member n' with _ | d'
          · rw [hm] at h
            obtain rfl : none = v := Option.some.inj h
            simp
          · rw [hm] at h
            exact ih h

/-- The map below a path, whose values `f` reads; a missing map is empty. -/
def readMap (f : α → Option β) (path : List String) (d : Doc α) : Option (GoMap String β) :=
  if ∀ n ∈ keysAt path d, ((read (path ++ [n]) d).join.bind f).isSome then
    some (GoMap.ofKeys (keysAt path d) fun n => (read (path ++ [n]) d).join.bind f)
  else none

theorem readMap_eq {f : α → Option β} {g : β → α} (hfg : ∀ b, f (g b) = some b) {path : List String}
    {d : Doc α} {m : GoMap String β} (h : ∀ n, read (path ++ [n]) d = some ((m.get n).map g)) :
    readMap f path d = some m := by
  have hvalue : ∀ n, (read (path ++ [n]) d).join.bind f = m.get n := by
    intro n
    rw [h n]
    rcases hn : m.get n with _ | b
    · rfl
    · exact hfg b
  have hkeys : ∀ n, n ∈ keysAt path d ↔ m.get n ≠ none := by
    intro n
    rw [mem_keysAt_iff (h n), Ne, Option.map_eq_none_iff]
  rw [readMap, if_pos]
  · congr 1
    refine GoMap.ext fun n => ?_
    rw [GoMap.get_ofKeys, hvalue]
    by_cases hn : m.get n = none
    · simp [hn]
    · rw [if_pos ((hkeys n).mpr hn)]
  · intro n hn
    rw [hvalue, Option.isSome_iff_ne_none]
    exact (hkeys n).mp hn

end Doc

end OteStack.Lib
