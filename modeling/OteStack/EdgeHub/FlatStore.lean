/-
# OteStack.EdgeHub.FlatStore — the database of an edge node is one map for every type.

`pkg/storage/persistent_storage.go`.  LevelDB keeps the objects of all types under flat names `type-key`, and
`List` finds those of a type by the prefix `type-`.  Keys may hold the separator, types do not, so a name is
cut at its first separator and the prefix of a type is not that of another one.

The database after some calls is a log replayed under these names.  `levelDB_one_map_per_type` says that it is
a map of pairs of a type and a key: `Get` and `List` answer from what was last written under each pair.
-/
import OteStack.EdgeHub.Storage
import OteStack.Lib.MapLog

namespace OteStack.EdgeHub

open OteStack.Lib (GoMap MapOrder MapOp Latest replay get_replay_eq_some get_replay_rename
  of_get_replay_rename)

variable {B : Type}

/-! ## The calls -/

/-- The names that `util.BytesPrefix` selects for a type, in increasing order. -/
def namesOf (db : GoMap String B) (objType : String) : List String :=
  (MapOrder.sorted.order db).filter fun name => (objType ++ "-").toList.isPrefixOf name.toList

/-- `LevelDB.List`. -/
def levelDBList (db : GoMap String B) (objType : String) : List B := (namesOf db objType).filterMap db.get

/-- A call of `Update` or `Delete`, for a type and a key. -/
abbrev LevelDBCall (B : Type) := MapOp (String × String) B

/-- The database after a call. -/
def levelDBCall (db : GoMap String B) : LevelDBCall B → GoMap String B
  | .put (objType, key) data => levelDBUpdate db objType key data
  | .delete (objType, key) => levelDBDelete db objType key

/-- The name of a pair. -/
def pairName (pair : String × String) : String := formKeyName pair.1 pair.2

/-- The type of the pair has no separator. -/
def Separable (pair : String × String) : Prop := '-' ∉ pair.1.toList

instance (pair : String × String) : Decidable (Separable pair) := inferInstanceAs (Decidable (¬ _))

theorem pairName_inj {pair pair' : String × String} (h : Separable pair) (h' : Separable pair') :
    pairName pair = pairName pair' ↔ pair = pair' := by
  rw [pairName, pairName, formKeyName_inj h h', Prod.ext_iff]

theorem foldl_levelDBCall (calls : List (LevelDBCall B)) (db : GoMap String B) :
    calls.foldl levelDBCall db = (calls.map (MapOp.rename pairName)).foldl MapOp.apply db := by
  induction calls generalizing db with
  | nil => rfl
  | cons call calls ih =>
      rw [List.foldl_cons, List.map_cons, List.foldl_cons, ih]
      cases call <;> rfl

/-! ## Names of a type -/

/-- The names of a type are those of its keys. -/
theorem mem_namesOf {db : GoMap String B} {objType name : String} :
    name ∈ namesOf db objType ↔ db.get name ≠ none ∧ ∃ key, name = formKeyName objType key := by
  rw [namesOf, List.mem_filter, EdgehubStorage.mem_names, List.isPrefixOf_iff_prefix]
  refine and_congr_right fun _ => ?_
  constructor
  · rintro ⟨rest, hrest⟩
    refine ⟨String.ofList rest, String.toList_inj.mp ?_⟩
    rw [← hrest]
    simp [formKeyName]
  · rintro ⟨key, rfl⟩
    exact ⟨key.toList, by simp [formKeyName]⟩

/-- Names of a type are the names of some keys of it, in the same order. -/
theorem exists_keys {objType : String} : ∀ {names : List String},
    (∀ name ∈ names, ∃ key, name = formKeyName objType key) →
      ∃ keys : List String, names = keys.map (formKeyName objType)
  | [], _ => ⟨[], rfl⟩
  | name :: names, h => by
      obtain ⟨key, rfl⟩ := h name (by simp)
      obtain ⟨keys, rfl⟩ := exists_keys fun name hname => h name (List.mem_cons_of_mem _ hname)
      exact ⟨key :: keys, rfl⟩

theorem formKeyName_cancel {objType key key' : String}
    (h : formKeyName objType key = formKeyName objType key') : key = key' := by
  have hlist := congrArg String.toList h
  simp only [formKeyName, String.toList_append] at hlist
  exact String.toList_inj.mp (List.append_cancel_left hlist)

/-- Reading names that are there gives one value for each. -/
theorem forall₂_filterMap_get {db : GoMap String B} : ∀ {names : List String},
    (∀ name ∈ names, db.get name ≠ none) →
      List.Forall₂ (fun name data => db.get name = some data) names (names.filterMap db.get)
  | [], _ => .nil
  | name :: names, h => by
      obtain ⟨data, hdata⟩ := Option.ne_none_iff_exists'.mp (h name (by simp))
      rw [List.filterMap_cons_some hdata]
      exact .cons hdata (forall₂_filterMap_get fun n hn => h n (List.mem_cons_of_mem name hn))

/-- `List` has one value for every key of the type. -/
theorem levelDBList_spec (db : GoMap String B) (objType : String) :
    ∃ keys : List String, keys.Nodup ∧ (∀ key, key ∈ keys ↔ db.get (formKeyName objType key) ≠ none) ∧
      List.Forall₂ (fun key data => db.get (formKeyName objType key) = some data) keys
        (levelDBList db objType) := by
  have hmem : ∀ name, name ∈ namesOf db objType ↔
      db.get name ≠ none ∧ ∃ key, name = formKeyName objType key := fun name => mem_namesOf
  obtain ⟨keys, hkeys⟩ := exists_keys fun name hname => ((hmem name).mp hname).2
  refine ⟨keys, ?_, fun key => ?_, ?_⟩
  · have hnodup : (namesOf db objType).Nodup := (MapOrder.sorted.nodup db).filter _
    rw [hkeys] at hnodup
    exact hnodup.of_map _
  · have hname := hmem (formKeyName objType key)
    rw [hkeys, List.mem_map] at hname
    constructor
    · exact fun hkey => (hname.mp ⟨key, hkey, rfl⟩).1
    · intro hget
      obtain ⟨key', hkey', heq⟩ := hname.mpr ⟨hget, key, rfl⟩
      rw [← formKeyName_cancel heq]
      exact hkey'
  · have hvalues := forall₂_filterMap_get fun name hname => ((hmem name).mp hname).1
    rw [hkeys, List.forall₂_map_left_iff, ← hkeys] at hvalues
    exact hvalues

/-! ## One map for every type -/

section Calls

variable {calls : List (LevelDBCall B)} (hcalls : ∀ call ∈ calls, Separable call.key)
include hcalls

/-- The database holds under the name of a pair what was last written under the pair. -/
theorem get_calls_eq_some {pair : String × String} (hpair : Separable pair) {data : B} :
    (calls.foldl levelDBCall ∅).get (pairName pair) = some data ↔ Latest calls pair data := by
  have hrename : (replay (calls.map (MapOp.rename pairName))).get (pairName pair) = (replay calls).get pair :=
    get_replay_rename fun call hcall hname => (pairName_inj (hcalls call hcall) hpair).mp hname
  rw [foldl_levelDBCall, ← get_replay_eq_some, ← hrename]
  rfl

/-- Every name in the database is that of a pair. -/
theorem exists_pair_of_get {name : String} {data : B} (h : (calls.foldl levelDBCall ∅).get name = some data) :
    ∃ pair, Separable pair ∧ pairName pair = name := by
  rw [foldl_levelDBCall] at h
  obtain ⟨call, hcall, hname⟩ := of_get_replay_rename h
  exact ⟨call.key, hcalls call hcall, hname⟩

end Calls

theorem get_levelDBCall_of_ne (db : GoMap String B) {call : LevelDBCall B} {pair : String × String}
    (hcall : Separable call.key) (hpair : Separable pair) (hne : pair ≠ call.key) :
    (levelDBCall db call).get (pairName pair) = db.get (pairName pair) := by
  have hname : pairName pair ≠ pairName call.key := fun h => hne ((pairName_inj hpair hcall).mp h)
  cases call with
  | put k data => exact GoMap.get_set_of_ne db hname data
  | delete k => exact GoMap.get_delete_of_ne db hname

/-- For every sequence of calls of `Update` and `Delete` for types without the separator, from an empty
database.  `Get` returns what was last written under a type and a key and not deleted since; `List` returns
the values under a type, each once; a call for one pair does not change another one; and every name in the
database is cut into the pair it stands for. -/
theorem levelDB_one_map_per_type {calls : List (LevelDBCall B)}
    (hcalls : ∀ call ∈ calls, Separable call.key) :
    let db := calls.foldl levelDBCall ∅
    (∀ objType key data, '-' ∉ objType.toList →
        (levelDBGet db objType key = .ok data ↔ Latest calls (objType, key) data)) ∧
      (∀ objType, '-' ∉ objType.toList → ∃ keys : List String, keys.Nodup ∧
        (∀ key, key ∈ keys ↔ ∃ data, Latest calls (objType, key) data) ∧
        List.Forall₂ (fun key data => Latest calls (objType, key) data) keys (levelDBList db objType)) ∧
      (∀ call objType key, Separable call.key → '-' ∉ objType.toList → (objType, key) ≠ call.key →
        levelDBGet (levelDBCall db call) objType key = levelDBGet db objType key) ∧
      ∀ name, db.get name ≠ none → ∃ objType key data, splitKeyName name = .ok (objType, key) ∧
        name = formKeyName objType key ∧ '-' ∉ objType.toList ∧ Latest calls (objType, key) data := by
  intro db
  have hget : ∀ objType key data, '-' ∉ objType.toList →
      (db.get (formKeyName objType key) = some data ↔ Latest calls (objType, key) data) :=
    fun objType key data htype => get_calls_eq_some hcalls (show Separable (objType, key) from htype)
  refine ⟨fun objType key data htype => ?_, fun objType htype => ?_, ?_, fun name hname => ?_⟩
  · rw [levelDBGet_eq_ok, hget objType key data htype]
  · obtain ⟨keys, hnodup, hmem, hvalues⟩ := levelDBList_spec db objType
    refine ⟨keys, hnodup, fun key => ?_, ?_⟩
    · rw [hmem, Option.ne_none_iff_exists']
      exact exists_congr fun data => hget objType key data htype
    · exact hvalues.imp fun key data h => (hget objType key data htype).mp h
  · intro call objType key hcall htype hne
    have hsame := get_levelDBCall_of_ne db hcall (show Separable (objType, key) from htype) hne
    unfold levelDBGet
    rw [show (levelDBCall db call).get (formKeyName objType key) = db.get (formKeyName objType key)
      from hsame]
  · obtain ⟨data, hdata⟩ := Option.ne_none_iff_exists'.mp hname
    obtain ⟨⟨objType, key⟩, hpair, rfl⟩ := exists_pair_of_get hcalls hdata
    exact ⟨objType, key, data, splitKeyName_formKeyName hpair key, rfl, hpair,
      (hget objType key data hpair).mp hdata⟩

/-- Two keys of a type, one of which holds the separator, and a key of another type. -/
theorem levelDB_one_map_per_type_pods :
    let calls : List (LevelDBCall ℕ) := [.put ("pods", "a") 1, .put ("pods", "a-b") 2, .put ("pod", "s-a") 3,
      .put ("pods", "a") 4, .delete ("pods", "c")]
    let db := calls.foldl levelDBCall ∅
    levelDBList db "pods" = [4, 2] ∧ levelDBList db "pod" = [3] ∧
      (levelDBGet db "pods" "a" = .ok 4 ↔ Latest calls ("pods", "a") 4) := by
  intro calls db
  have h := levelDB_one_map_per_type (show ∀ call ∈ calls, Separable call.key by decide)
  exact ⟨by decide, by decide, h.1 "pods" "a" 4 (by decide)⟩

end OteStack.EdgeHub
