/-
# OteStack.EdgeHub.MergeDelete — `MergeDelete` with lookups that can fail.

`MergeDelete` of `pkg/storage/storage.go` looks every name of the database up in the cache of its type and
deletes what it does not find, in one batch at the end.  `OteStack.EdgeHub.Storage` models it for caches that
always answer.  A `cache.Indexer` is an interface, though, and its `GetByKey` may return an error; here a
cache is whatever it answers.

One round of the loop decides about one name (`mergeCheck`).  If every round has a decision, the database is
left with the names that are kept, and a second call finds nothing to do; otherwise there is an error and
nothing changes (`mergeDeleteIn_exact`).  With caches that always answer it is `mergeDelete`
(`mergeDeleteIn_eq_mergeDelete`).
-/
import OteStack.EdgeHub.Storage

namespace OteStack.EdgeHub

open OteStack.Lib (GoMap MapOrder)
open EdgehubStorage (mem_names mergeDeleteBatch)

variable {O B : Type}

/-! ## Caches that may fail -/

/-- What `GetByKey` of an indexer answers: the object, if there is one, or an error. -/
abbrev GetByKey (O : Type) := String → Except String (Option O)

variable (cache : GoMap String (GetByKey O))

/-- One round of the loop of `MergeDelete`: whether the name is kept. -/
def mergeCheck (name : String) : Except String Bool :=
  match splitKeyName name with
  | .error _ => .error ("merge storage failed: splitKeyName " ++ name ++ " error")
  | .ok (objType, key) =>
      match cache.get objType with
      | none => .ok false
      | some getByKey =>
          match getByKey key with
          | .error err => .error ("merge storage failed: " ++ err)
          | .ok obj => .ok obj.isSome

/-- The loop: the names that go into the batch. -/
def mergeBatch : List String → Except String (List String)
  | [] => .ok []
  | name :: names =>
      match mergeCheck cache name with
      | .error err => .error err
      | .ok kept =>
          match mergeBatch names with
          | .error err => .error err
          | .ok batch => .ok (if kept then batch else name :: batch)

/-- Go's `MergeDelete`; the batch is written at the end. -/
def mergeDeleteIn (db : GoMap String B) : Except String Unit × GoMap String B :=
  match mergeBatch cache (MapOrder.sorted.order db) with
  | .error err => (.error err, db)
  | .ok batch => (.ok (), batch.foldl GoMap.delete db)

/-! ## The loop -/

variable {cache}

/-- The loop gets to its end if every name is decided, with those that are not kept. -/
theorem mergeBatch_of_decided : ∀ {names : List String},
    (∀ name ∈ names, ∃ kept, mergeCheck cache name = .ok kept) →
    ∃ batch, mergeBatch cache names = .ok batch ∧
      ∀ name, name ∈ batch ↔ name ∈ names ∧ mergeCheck cache name = .ok false
  | [], _ => ⟨[], rfl, by simp⟩
  | name :: names, h => by
      obtain ⟨batch, hbatch, hmem⟩ := mergeBatch_of_decided fun n hn => h n (List.mem_cons_of_mem name hn)
      obtain ⟨kept, hkept⟩ := h name (by simp)
      refine ⟨if kept then batch else name :: batch, by simp only [mergeBatch, hkept, hbatch], fun n => ?_⟩
      cases kept with
      | true =>
          rw [if_pos rfl, hmem, List.mem_cons]
          constructor
          · exact fun hn => ⟨Or.inr hn.1, hn.2⟩
          · rintro ⟨rfl | hn, hdrop⟩
            · rw [hkept] at hdrop
              cases hdrop
            · exact ⟨hn, hdrop⟩
      | false =>
          rw [if_neg (by simp), List.mem_cons, hmem, List.mem_cons]
          constructor
          · rintro (rfl | hn)
            · exact ⟨Or.inl rfl, hkept⟩
            · exact ⟨Or.inr hn.1, hn.2⟩
          · rintro ⟨rfl | hn, hdrop⟩
            · exact Or.inl rfl
            · exact Or.inr ⟨hn, hdrop⟩

/-- The first name that is not decided ends the loop. -/
theorem mergeBatch_of_error : ∀ {names : List String},
    (∃ name ∈ names, ∃ err, mergeCheck cache name = .error err) →
    ∃ err, mergeBatch cache names = .error err ∧ ∃ name ∈ names, mergeCheck cache name = .error err
  | [], h => by simp at h
  | name :: names, h => by
      cases hname : mergeCheck cache name with
      | error err => exact ⟨err, by simp only [mergeBatch, hname], name, by simp, hname⟩
      | ok kept =>
          obtain ⟨n, hn, err, herr⟩ := h
          have hrest : n ∈ names := by
            refine (List.mem_cons.mp hn).resolve_left ?_
            rintro rfl
            rw [hname] at herr
            cases herr
          obtain ⟨err, hbatch, n, hn, herr⟩ := mergeBatch_of_error ⟨n, hrest, err, herr⟩
          exact ⟨err, by simp only [mergeBatch, hname, hbatch], n, List.mem_cons_of_mem name hn, herr⟩

/-! ## The database afterwards -/

/-- The type of the name has a cache that holds its key. -/
def KeptBy (cache : GoMap String (GetByKey O)) (name : String) : Prop :=
  ∃ objType key getByKey obj, splitKeyName name = .ok (objType, key) ∧ cache.get objType = some getByKey ∧
    getByKey key = .ok (some obj)

/-- The lookup of the name in the cache of its type fails. -/
def LookupFails (cache : GoMap String (GetByKey O)) (name : String) : Prop :=
  ∃ objType key getByKey err, splitKeyName name = .ok (objType, key) ∧ cache.get objType = some getByKey ∧
    getByKey key = .error err

theorem mergeCheck_eq_true {name : String} : mergeCheck cache name = .ok true ↔ KeptBy cache name := by
  unfold mergeCheck KeptBy
  cases splitKeyName name with
  | error err => simp
  | ok pieces =>
      obtain ⟨objType, key⟩ := pieces
      cases hcache : cache.get objType with
      | none => simp [hcache]
      | some getByKey =>
          cases hget : getByKey key with
          | error err => simp [hcache, hget]
          | ok obj => simp [hcache, hget, Option.isSome_iff_exists]

/-- A round has no decision if the name cannot be split or its lookup fails. -/
theorem mergeCheck_eq_error {name : String} :
    (∃ err, mergeCheck cache name = .error err) ↔ '-' ∉ name.toList ∨ LookupFails cache name := by
  rw [← splitKeyName_eq_error_iff]
  unfold mergeCheck LookupFails
  cases splitKeyName name with
  | error err => simp
  | ok pieces =>
      obtain ⟨objType, key⟩ := pieces
      cases hcache : cache.get objType with
      | none => simp [hcache]
      | some getByKey =>
          cases hget : getByKey key with
          | error err => simp [hcache, hget]
          | ok obj => simp [hcache, hget]

theorem exists_mergeCheck_ok {name : String} (h : ¬('-' ∉ name.toList ∨ LookupFails cache name)) :
    ∃ kept, mergeCheck cache name = .ok kept := by
  cases hname : mergeCheck cache name with
  | error err => exact absurd (mergeCheck_eq_error.mp ⟨err, hname⟩) h
  | ok kept => exact ⟨kept, rfl⟩

/-- The names that are kept keep their entries, and the others lose them. -/
theorem mergeDeleteIn_of_decided {db : GoMap String B}
    (h : ∀ name, db.get name ≠ none → ∃ kept, mergeCheck cache name = .ok kept) :
    ∃ db', mergeDeleteIn cache db = (.ok (), db') ∧
      ∀ name data, db'.get name = some data ↔ db.get name = some data ∧ KeptBy cache name := by
  obtain ⟨batch, hbatch, hmem⟩ := mergeBatch_of_decided fun name hname => h name (mem_names.mp hname)
  refine ⟨batch.foldl GoMap.delete db, by rw [mergeDeleteIn, hbatch], fun name data => ?_⟩
  rw [GoMap.get_foldl_delete, ← mergeCheck_eq_true]
  by_cases hdrop : name ∈ batch
  · rw [if_pos hdrop, ((hmem name).mp hdrop).2]
    simp
  · rw [if_neg hdrop]
    refine ⟨fun hdata => ⟨hdata, ?_⟩, And.left⟩
    have hthere : db.get name ≠ none := by simp [hdata]
    obtain ⟨kept, hkept⟩ := h name hthere
    cases kept with
    | true => exact hkept
    | false => exact absurd ((hmem name).mpr ⟨mem_names.mpr hthere, hkept⟩) hdrop

/-- `MergeDelete` is exact, and all or nothing.  If every name in the database can be split and no lookup
fails, the entries are left whose type has a cache with their key, and a second call changes nothing.
Otherwise there is an error and the database is as before. -/
theorem mergeDeleteIn_exact (cache : GoMap String (GetByKey O)) (db : GoMap String B) :
    ((∀ name, db.get name ≠ none → '-' ∈ name.toList ∧ ¬ LookupFails cache name) →
        ∃ db', mergeDeleteIn cache db = (.ok (), db') ∧
          (∀ name data, db'.get name = some data ↔ db.get name = some data ∧ KeptBy cache name) ∧
          mergeDeleteIn cache db' = (.ok (), db')) ∧
      ((∃ name, db.get name ≠ none ∧ ('-' ∉ name.toList ∨ LookupFails cache name)) →
        ∃ err, mergeDeleteIn cache db = (.error err, db)) := by
  constructor
  · intro h
    have hdecided : ∀ name, db.get name ≠ none → ∃ kept, mergeCheck cache name = .ok kept := fun name hname =>
      exists_mergeCheck_ok (not_or.mpr ⟨not_not.mpr (h name hname).1, (h name hname).2⟩)
    obtain ⟨db', hfirst, hentries⟩ := mergeDeleteIn_of_decided hdecided
    have hkept : ∀ name, db'.get name ≠ none → KeptBy cache name := by
      intro name hname
      obtain ⟨data, hdata⟩ := Option.ne_none_iff_exists'.mp hname
      exact ((hentries name data).mp hdata).2
    -- the second call keeps what the first one has left
    obtain ⟨db'', hsecond, hentries'⟩ := mergeDeleteIn_of_decided fun name hname =>
      ⟨true, mergeCheck_eq_true.mpr (hkept name hname)⟩
    have hsame : db'' = db' := by
      refine GoMap.ext fun name => Option.ext fun data => ?_
      rw [hentries']
      exact and_iff_left_of_imp fun hdata => hkept name (by simp [hdata])
    exact ⟨db', hfirst, hentries, hsame ▸ hsecond⟩
  · rintro ⟨name, hname, hfails⟩
    obtain ⟨err, herr⟩ := mergeCheck_eq_error.mpr hfails
    obtain ⟨err, hbatch, -⟩ := mergeBatch_of_error ⟨name, mem_names.mpr hname, err, herr⟩
    exact ⟨err, by rw [mergeDeleteIn, hbatch]⟩

/-- A cache of pods that has one of two and fails for a third. -/
def podsCache : GoMap String (GetByKey ℕ) :=
  GoMap.ofList [("pods", fun key =>
    if key = "a" then .ok (some 1) else if key = "c" then .error "closed" else .ok none)]

/-- The pod that is cached is kept, with its value; the other pod and the node are deleted. -/
theorem mergeDeleteIn_exact_pods :
    let db : GoMap String ℕ := GoMap.ofList [("pods-a", 10), ("pods-b", 20), ("nodes-a", 30)]
    ∃ db', mergeDeleteIn podsCache db = (.ok (), db') ∧
      (∀ name data, db'.get name = some data ↔ db.get name = some data ∧ KeptBy podsCache name) ∧
      mergeDeleteIn podsCache db' = (.ok (), db') := by
  intro db
  refine (mergeDeleteIn_exact podsCache db).1 fun name hname => ?_
  obtain ⟨data, hdata⟩ := Option.ne_none_iff_exists'.mp hname
  have hnames : name ∈ ["pods-a", "pods-b", "nodes-a"] := by
    have hentry := GoMap.mem_of_get_ofList hdata
    simp only [List.mem_cons, Prod.mk.injEq, List.not_mem_nil, or_false] at hentry ⊢
    exact hentry.imp And.left (Or.imp And.left And.left)
  have hcheck : ∀ n ∈ ["pods-a", "pods-b", "nodes-a"], (mergeCheck podsCache n).isOk = true := by decide
  have hdecided : ¬('-' ∉ name.toList ∨ LookupFails podsCache name) := by
    intro hfails
    obtain ⟨err, herr⟩ := mergeCheck_eq_error.mpr hfails
    have hok := hcheck name hnames
    rw [herr] at hok
    cases hok
  rw [not_or, not_not] at hdecided
  exact hdecided

example : mergeCheck podsCache "pods-a" = .ok true := rfl

example : mergeCheck podsCache "pods-c" = .error "merge storage failed: closed" := rfl

/-! ## Caches that always answer -/

/-- An indexer that answers from its map. -/
def answersOf (ix : Indexer O) : GetByKey O := fun key => .ok (ix.get key)

theorem mergeBatch_eq_mergeDeleteBatch (cache : Cache O) (names : List String) :
    mergeBatch (cache.mapValues answersOf) names = mergeDeleteBatch cache names := by
  induction names with
  | nil => rfl
  | cons name names ih =>
      rw [mergeBatch, mergeDeleteBatch, ih, mergeCheck]
      cases splitKeyName name with
      | error err => rfl
      | ok pieces =>
          obtain ⟨objType, key⟩ := pieces
          simp only [GoMap.get_mapValues]
          cases cache.get objType with
          | none => cases mergeDeleteBatch cache names <;> rfl
          | some ix =>
              simp only [Option.map_some, answersOf, Option.bind_some]
              cases mergeDeleteBatch cache names with
              | error err => rfl
              | ok batch => exact apply_ite Except.ok _ _ _

/-- With the caches of the store it is `mergeDelete`. -/
theorem mergeDeleteIn_eq_mergeDelete (s : EdgehubStorage O B) :
    mergeDeleteIn (s.cache.mapValues answersOf) s.levelDB = (s.mergeDelete.1, s.mergeDelete.2.levelDB) := by
  rw [mergeDeleteIn, mergeBatch_eq_mergeDeleteBatch, EdgehubStorage.mergeDelete]
  cases mergeDeleteBatch s.cache (MapOrder.sorted.order s.levelDB) <;> rfl

end OteStack.EdgeHub
