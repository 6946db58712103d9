/-
# OteStack.EdgeHub.Storage — the local store of an edge node.

`pkg/storage` and the parts of `pkg/util` it uses.  Objects are kept twice: in memory, one indexer for
every resource type (`cache`), and in a database whose names are `type-key` (`levelDB`).  While the
master is reachable the indexers are those of the informers and only the database is written here;
offline both are.  When the hub starts the indexers are rebuilt from the database (`rebuildCache`);
when the syncers have started, what no informer knows is removed from the database (`mergeDelete`).

Reading and writing the database does not fail.  How bytes decode to objects, how objects encode, and
the key of an object are `encoding/json` and `cache.MetaNamespaceKeyFunc` (`Codec`).
-/
import OteStack.Lib.GoMap
import OteStack.Lib.GoStrings

namespace OteStack.EdgeHub

open OteStack.Lib (GoMap MapOrder)
open OteStack.Lib.GoStrings (cut cut_append)

/-! ## Resource types -/

/-- The resource types of `pkg/util`. -/
inductive Resource where
  | pod
  | node
  | nodeLease
  | endpoint
  | service
  | configMap
  | secret
  | event
  | «namespace»
  | networkPolicy
  | csiDriver
  | csiNode
  | runtimeClass
  | tokenReview
  | subjectAccessReview
  | csr
  deriving DecidableEq, Repr

namespace Resource

/-- The name of a type in requests, caches and the database. -/
def name : Resource → String
  | pod => "pods"
  | node => "nodes"
  | nodeLease => "leases"
  | endpoint => "endpoints"
  | service => "services"
  | configMap => "configmaps"
  | secret => "secrets"
  | event => "events"
  | «namespace» => "namespaces"
  | networkPolicy => "networkpolicies"
  | csiDriver => "csidrivers"
  | csiNode => "csinodes"
  | runtimeClass => "runtimeclasses"
  | tokenReview => "tokenreviews"
  | subjectAccessReview => "subjectaccessreviews"
  | csr => "certificatesigningrequests"

/-- The word for a type in error messages. -/
def word : Resource → String
  | pod => "pod"
  | node => "node"
  | nodeLease => "lease"
  | endpoint => "endpoint"
  | service => "service"
  | configMap => "configmap"
  | secret => "secret"
  | event => "event"
  | «namespace» => "namespace"
  | networkPolicy => "networkpolicy"
  | csiDriver => "csidriver"
  | csiNode => "csinode"
  | runtimeClass => "runtimeclass"
  | tokenReview => "tokenreview"
  | subjectAccessReview => "subjectAccessReview"
  | csr => "csr"

/-- All types. -/
def all : List Resource :=
  [pod, node, nodeLease, endpoint, service, configMap, secret, event, «namespace», networkPolicy,
    csiDriver, csiNode, runtimeClass, tokenReview, subjectAccessReview, csr]

/-- The type of a name. -/
def ofName (objType : String) : Option Resource := all.find? fun r => r.name == objType

theorem ofName_name (r : Resource) : ofName r.name = some r := by
  cases r <;> decide

theorem mem_all (r : Resource) : r ∈ all := List.mem_of_find?_eq_some (ofName_name r)

theorem name_of_ofName {objType : String} {r : Resource} (h : ofName objType = some r) :
    r.name = objType := by
  simpa using List.find?_some h

theorem name_injective : Function.Injective name := by
  intro r r' h
  have hr := ofName_name r
  rw [h, ofName_name] at hr
  exact (Option.some.inj hr).symm

theorem dash_notMem_name (r : Resource) : '-' ∉ r.name.toList := by
  cases r <;> decide

end Resource

/-- `encoding/json` at the object types, and `cache.MetaNamespaceKeyFunc`. -/
structure Codec (O B : Type) where
  unmarshal : Resource → B → Except String O
  marshal : O → Except String B
  metaNamespaceKey : O → String

/-- Objects that are a key and a text, and encode as themselves. -/
def plainCodec : Codec (String × String) (String × String) := ⟨fun _ data => .ok data, .ok, Prod.fst⟩

variable {O B : Type} (c : Codec O B)

/-- Go's `util.GetObjectFromSerializeData`. -/
def getObjectFromSerializeData (objType : String) (data : B) : Except String O :=
  match Resource.ofName objType with
  | some r =>
      match c.unmarshal r data with
      | .ok obj => .ok obj
      | .error err => .error ("json unmarshal " ++ r.word ++ " failed: " ++ err)
  | none => .error ("unsupported resource type: " ++ objType)

theorem getObjectFromSerializeData_eq_ok {r : Resource} {data : B} {obj : O}
    (h : c.unmarshal r data = .ok obj) : getObjectFromSerializeData c r.name data = .ok obj := by
  rw [getObjectFromSerializeData, Resource.ofName_name]
  simp only [h]

/-! ## Names in the database -/

/-- Go's `formKeyName`. -/
def formKeyName (objType name : String) : String := objType ++ "-" ++ name

/-- Go's `splitKeyName`: the name is cut at the first separator. -/
def splitKeyName (name : String) : Except String (String × String) :=
  match cut '-' name with
  | some pieces => .ok pieces
  | none => .error ("couldn't get key name for: " ++ name)

theorem splitKeyName_formKeyName {objType : String} (h : '-' ∉ objType.toList) (key : String) :
    splitKeyName (formKeyName objType key) = .ok (objType, key) := by
  have hcut : cut '-' (formKeyName objType key) = some (objType, key) := cut_append h
  rw [splitKeyName, hcut]

/-- A name cannot be split exactly if it has no separator. -/
theorem splitKeyName_eq_error_iff {name : String} :
    (∃ err, splitKeyName name = .error err) ↔ '-' ∉ name.toList := by
  unfold splitKeyName cut
  by_cases h : '-' ∈ name.toList <;> simp [h]

/-- Types without the separator have names of their own. -/
theorem formKeyName_inj {objType objType' key key' : String} (h : '-' ∉ objType.toList)
    (h' : '-' ∉ objType'.toList) :
    formKeyName objType key = formKeyName objType' key' ↔ objType = objType' ∧ key = key' := by
  constructor
  · intro heq
    have hsplit := splitKeyName_formKeyName h key
    rw [heq, splitKeyName_formKeyName h' key'] at hsplit
    obtain ⟨ht, hk⟩ := Prod.mk.inj (Except.ok.inj hsplit)
    exact ⟨ht.symm, hk.symm⟩
  · rintro ⟨rfl, rfl⟩
    rfl

/-! ## The two structures -/

/-- A `cache.Indexer`: objects under their keys. -/
abbrev Indexer (O : Type) := GoMap String O

/-- The in-memory part, by the name of the type. -/
abbrev Cache (O : Type) := GoMap String (Indexer O)

/-- `EdgehubStorage`. -/
structure EdgehubStorage (O B : Type) where
  cache : Cache O
  levelDB : GoMap String B
  remoteEnable : Bool

/-- What `Get` answers: the object, or its encoding. -/
inductive Item (O B : Type) where
  | object (obj : O)
  | data (bytes : B)
  deriving DecidableEq

/-- Go's `Indexer.Add` and `Indexer.Update`. -/
def Indexer.add (ix : Indexer O) (obj : O) : Indexer O := ix.set (c.metaNamespaceKey obj) obj

/-- `LevelDB.Get`; the database answers "leveldb: not found". -/
def levelDBGet (db : GoMap String B) (objType key : String) : Except String B :=
  match db.get (formKeyName objType key) with
  | some data => .ok data
  | none => .error ("get " ++ objType ++ "-" ++ key ++ " obj failed: leveldb: not found")

theorem levelDBGet_eq_ok {db : GoMap String B} {objType key : String} {data : B} :
    levelDBGet db objType key = .ok data ↔ db.get (formKeyName objType key) = some data := by
  unfold levelDBGet
  cases db.get (formKeyName objType key) with
  | none => simp
  | some data' => simp

/-- `LevelDB.Update`. -/
def levelDBUpdate (db : GoMap String B) (objType key : String) (data : B) : GoMap String B :=
  db.set (formKeyName objType key) data

/-- `LevelDB.Delete`. -/
def levelDBDelete (db : GoMap String B) (objType key : String) : GoMap String B :=
  db.delete (formKeyName objType key)

/-- One round of `RebuildCache`: the indexer of the type is made when it is missing, and the object is
added if it decodes. -/
def rebuildStep (db : GoMap String B) (cache : Cache O) (name : String) : Cache O :=
  match db.get name with
  | none => cache
  | some data =>
      match splitKeyName name with
      | .error _ => cache
      | .ok (objType, _) =>
          let ix := (cache.get objType).getD ∅
          match getObjectFromSerializeData c objType data with
          | .error _ => cache.set objType ix
          | .ok obj => cache.set objType (Indexer.add c ix obj)

/-- Go's `RebuildCache`; the database iterates over its names in increasing order. -/
def rebuildCache (db : GoMap String B) : Cache O :=
  (MapOrder.sorted.order db).foldl (rebuildStep c db) ∅

/-- Go's `NewEdgehubStore`, for a database that opens. -/
def newEdgehubStore (db : GoMap String B) : EdgehubStorage O B := ⟨rebuildCache c db, db, false⟩

namespace EdgehubStorage

variable (s : EdgehubStorage O B)

/-- Go's `Get`. -/
def get (objType key : String) (isNeedSerialize : Bool) : Except String (Item O B) :=
  match s.cache.get objType with
  | none => .error ("get " ++ objType ++ "-" ++ key ++ " obj failed: couldn't find object type indexer")
  | some ix =>
      match ix.get key with
      | none => .error ("get " ++ objType ++ "-" ++ key ++ " obj failed: obj is not found")
      | some obj =>
          if isNeedSerialize then
            match c.marshal obj with
            | .ok data => .ok (.data data)
            | .error err => .error ("get " ++ objType ++ "-" ++ key ++ " obj failed: " ++ err)
          else .ok (.object obj)

/-- Go's `List`; an indexer lists its objects in the order in which it ranges over its map. -/
def list (it : MapOrder String) (objType : String) : List O :=
  match s.cache.get objType with
  | none => []
  | some ix => (it.order ix).filterMap ix.get

/-- Go's `Update`: offline the object also goes to the indexer of its type, if there is one. -/
def update (objType key : String) (data : B) : EdgehubStorage O B :=
  let cache :=
    if s.remoteEnable then s.cache
    else match s.cache.get objType with
      | none => s.cache
      | some ix =>
          match getObjectFromSerializeData c objType data with
          | .error _ => s.cache
          | .ok obj => s.cache.set objType (Indexer.add c ix obj)
  { s with cache := cache, levelDB := levelDBUpdate s.levelDB objType key data }

/-- Go's `Delete`; the indexer deletes the key of the object it has under `key`. -/
def delete (objType key : String) : EdgehubStorage O B :=
  let cache :=
    if s.remoteEnable then s.cache
    else match s.cache.get objType with
      | none => s.cache
      | some ix =>
          match ix.get key with
          | none => s.cache
          | some obj => s.cache.set objType (ix.delete (c.metaNamespaceKey obj))
  { s with cache := cache, levelDB := levelDBDelete s.levelDB objType key }

/-- The names `MergeDelete` puts into its batch, unless a name has no separator. -/
def mergeDeleteBatch (cache : Cache O) : List String → Except String (List String)
  | [] => .ok []
  | name :: names =>
      match splitKeyName name with
      | .error _ => .error ("merge storage failed: splitKeyName " ++ name ++ " error")
      | .ok (objType, key) =>
          match mergeDeleteBatch cache names with
          | .error err => .error err
          | .ok batch =>
              if ((cache.get objType).bind fun ix => ix.get key).isSome then .ok batch
              else .ok (name :: batch)

/-- Go's `MergeDelete`; the batch is written at the end. -/
def mergeDelete : Except String Unit × EdgehubStorage O B :=
  match mergeDeleteBatch s.cache (MapOrder.sorted.order s.levelDB) with
  | .error err => (.error err, s)
  | .ok batch => (.ok (), { s with levelDB := batch.foldl GoMap.delete s.levelDB })

/-! ### What `MergeDelete` does -/

/-- The name is that of an object in the indexer of its type. -/
def Known (cache : Cache O) (name : String) : Prop :=
  ∃ objType key, splitKeyName name = .ok (objType, key) ∧
    ((cache.get objType).bind fun ix => ix.get key).isSome

theorem known_iff {cache : Cache O} {name objType key : String}
    (hsplit : splitKeyName name = .ok (objType, key)) :
    Known cache name ↔ ((cache.get objType).bind fun ix => ix.get key).isSome := by
  constructor
  · rintro ⟨t, k, hs, hsome⟩
    obtain ⟨rfl, rfl⟩ := Prod.mk.inj (Except.ok.inj (hsplit.symm.trans hs))
    exact hsome
  · exact fun hsome => ⟨objType, key, hsplit, hsome⟩

/-- The batch of names that can all be split holds those that are not known. -/
theorem mergeDeleteBatch_eq_ok (cache : Cache O) :
    ∀ {names : List String}, (∀ name ∈ names, '-' ∈ name.toList) →
      ∃ batch, mergeDeleteBatch cache names = .ok batch ∧
        ∀ name, name ∈ batch ↔ name ∈ names ∧ ¬ Known cache name
  | [], _ => ⟨[], rfl, by simp⟩
  | name :: names, h => by
      obtain ⟨batch, hbatch, hmem⟩ := mergeDeleteBatch_eq_ok cache fun n hn =>
        h n (List.mem_cons_of_mem _ hn)
      obtain ⟨⟨objType, key⟩, hcut⟩ : ∃ pieces, cut '-' name = some pieces := by
        rw [cut, if_pos (h name (by simp))]
        exact ⟨_, rfl⟩
      have hsplit : splitKeyName name = .ok (objType, key) := by rw [splitKeyName, hcut]
      by_cases hsome : ((cache.get objType).bind fun ix => ix.get key).isSome = true
      · refine ⟨batch, by simp [mergeDeleteBatch, hsplit, hbatch, hsome], ?_⟩
        intro n
        rw [hmem, List.mem_cons]
        constructor
        · rintro ⟨hn, hk⟩
          exact ⟨Or.inr hn, hk⟩
        · rintro ⟨rfl | hn, hk⟩
          · exact absurd ((known_iff hsplit).mpr hsome) hk
          · exact ⟨hn, hk⟩
      · refine ⟨name :: batch, by simp [mergeDeleteBatch, hsplit, hbatch, hsome], ?_⟩
        intro n
        rw [List.mem_cons, hmem, List.mem_cons]
        constructor
        · rintro (rfl | ⟨hn, hk⟩)
          · exact ⟨Or.inl rfl, fun hk => hsome ((known_iff hsplit).mp hk)⟩
          · exact ⟨Or.inr hn, hk⟩
        · rintro ⟨rfl | hn, hk⟩
          · exact Or.inl rfl
          · exact Or.inr ⟨hn, hk⟩

/-- A name that cannot be split stops `MergeDelete`. -/
theorem mergeDeleteBatch_eq_error (cache : Cache O) :
    ∀ {names : List String}, (∃ name ∈ names, '-' ∉ name.toList) →
      ∃ err, mergeDeleteBatch cache names = .error err
  | [], h => by simp at h
  | name :: names, h => by
      by_cases hname : '-' ∈ name.toList
      · obtain ⟨n, hn, hdash⟩ := h
        have hrest : ∃ n ∈ names, '-' ∉ n.toList := by
          rcases List.mem_cons.mp hn with rfl | hn
          · exact absurd hname hdash
          · exact ⟨n, hn, hdash⟩
        obtain ⟨err, herr⟩ := mergeDeleteBatch_eq_error cache hrest
        simp only [mergeDeleteBatch, splitKeyName, cut, if_pos hname, herr]
        exact ⟨err, rfl⟩
      · simp only [mergeDeleteBatch, splitKeyName, cut, if_neg hname]
        exact ⟨_, rfl⟩

/-- Some name in the database has no separator. -/
def HasBareName (db : GoMap String B) : Prop := ∃ name, db.get name ≠ none ∧ '-' ∉ name.toList

theorem mem_names {db : GoMap String B} {name : String} :
    name ∈ MapOrder.sorted.order db ↔ db.get name ≠ none := by
  rw [MapOrder.mem_order, ← not_iff_not, not_not, GoMap.notMem_keys]

/-- With a bare name in the database `MergeDelete` changes nothing. -/
theorem mergeDelete_of_bare {s : EdgehubStorage O B} (h : HasBareName s.levelDB) :
    s.mergeDelete.2 = s := by
  obtain ⟨n, hn, hdash⟩ := h
  obtain ⟨err, herr⟩ := mergeDeleteBatch_eq_error s.cache ⟨n, mem_names.mpr hn, hdash⟩
  rw [mergeDelete, herr]

/-- Otherwise it removes the names that are not known, and only them. -/
theorem get_mergeDelete {s : EdgehubStorage O B} (h : ¬ HasBareName s.levelDB) (name : String) :
    (Known s.cache name → s.mergeDelete.2.levelDB.get name = s.levelDB.get name) ∧
      (¬ Known s.cache name → s.mergeDelete.2.levelDB.get name = none) := by
  have hdash : ∀ n ∈ MapOrder.sorted.order s.levelDB, '-' ∈ n.toList := by
    intro n hn
    by_contra hdash
    exact h ⟨n, mem_names.mp hn, hdash⟩
  obtain ⟨batch, hbatch, hin⟩ := mergeDeleteBatch_eq_ok s.cache hdash
  rw [mergeDelete, hbatch]
  dsimp only
  rw [GoMap.get_foldl_delete]
  refine ⟨fun hknown => ?_, fun hknown => ?_⟩
  · rw [if_neg fun hmem => ((hin name).mp hmem).2 hknown]
  · by_cases hnone : s.levelDB.get name = none
    · rw [hnone, ite_self]
    · rw [if_pos ((hin name).mpr ⟨mem_names.mpr hnone, hknown⟩)]

end EdgehubStorage

end OteStack.EdgeHub
