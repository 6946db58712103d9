/-
# OteStack.EdgeHub.Restart — what a restart without the master changes.

After a restart the indexers are rebuilt from the database, so a node that is offline should not notice
one: `Get` and `List` should answer from the old indexers what they answer from the new ones.

`Mirrors` is the invariant that relates the two structures through every offline operation: an indexer
holds exactly the decoded database entries of its type.  What it does not say is which types have an
indexer.  An update never makes one, while a rebuild makes one for every type with an entry; so the first
object of a type is found after a restart only (`restart_reveals_first_object`), and the last object of a
type leaves an indexer behind, which changes an error message.  `restart_invisible_iff` is the exact
condition for both.
-/
import OteStack.EdgeHub.Storage

namespace OteStack.EdgeHub

open OteStack.Lib (GoMap MapOrder)

variable {O B : Type} (c : Codec O B)

/-! ## The database, decoded -/

/-- The database holds decodable objects under their own names. -/
def WellStored (db : GoMap String B) : Prop :=
  ∀ name data, db.get name = some data →
    ∃ r obj, name = formKeyName r.name (c.metaNamespaceKey obj) ∧ c.unmarshal r data = .ok obj

/-- The object that the database holds for a type and a key. -/
def decoded (db : GoMap String B) (r : Resource) (key : String) : Option O :=
  (db.get (formKeyName r.name key)).bind fun data => (c.unmarshal r data).toOption

/-- The type has an entry in the database. -/
def HasEntry (db : GoMap String B) (r : Resource) : Prop :=
  ∃ key, (db.get (formKeyName r.name key)).isSome

variable {c}

theorem resourceName_inj {r r' : Resource} {key key' : String} :
    formKeyName r.name key = formKeyName r'.name key' ↔ r = r' ∧ key = key' := by
  rw [formKeyName_inj r.dash_notMem_name r'.dash_notMem_name, Resource.name_injective.eq_iff]

theorem WellStored.entry {db : GoMap String B} (h : WellStored c db) {r : Resource} {key : String}
    {data : B} (hdata : db.get (formKeyName r.name key) = some data) :
    ∃ obj, c.unmarshal r data = .ok obj ∧ c.metaNamespaceKey obj = key := by
  obtain ⟨r', obj, hname, hobj⟩ := h _ data hdata
  obtain ⟨rfl, rfl⟩ := resourceName_inj.mp hname
  exact ⟨obj, hobj, rfl⟩

/-- Entries of a well-stored database decode. -/
theorem WellStored.isSome_decoded {db : GoMap String B} (h : WellStored c db) (r : Resource)
    (key : String) : (decoded c db r key).isSome = (db.get (formKeyName r.name key)).isSome := by
  rcases hdata : db.get (formKeyName r.name key) with _ | data
  · simp [decoded, hdata]
  · obtain ⟨obj, hobj, -⟩ := h.entry hdata
    simp [decoded, hdata, hobj, Except.toOption]

theorem WellStored.metaNamespaceKey_decoded {db : GoMap String B} (h : WellStored c db) {r : Resource}
    {key : String} {obj : O} (hobj : decoded c db r key = some obj) : c.metaNamespaceKey obj = key := by
  rcases hdata : db.get (formKeyName r.name key) with _ | data
  · simp [decoded, hdata] at hobj
  · obtain ⟨obj', hobj', hkey⟩ := h.entry hdata
    simp only [decoded, hdata, hobj', Except.toOption, Option.bind_some, Option.some.injEq] at hobj
    rw [← hobj]
    exact hkey

theorem decoded_update {db : GoMap String B} {r : Resource} {key : String} {data : B} {obj : O}
    (hobj : c.unmarshal r data = .ok obj) (r' : Resource) (key' : String) :
    decoded c (levelDBUpdate db r.name key data) r' key' =
      if r' = r ∧ key' = key then some obj else decoded c db r' key' := by
  rw [decoded, levelDBUpdate, GoMap.get_set]
  by_cases h : r' = r ∧ key' = key
  · obtain ⟨rfl, rfl⟩ := h
    simp [hobj, Except.toOption]
  · rw [if_neg (by rw [resourceName_inj]; exact h), if_neg h]
    rfl

theorem decoded_delete {db : GoMap String B} (r : Resource) (key : String) (r' : Resource)
    (key' : String) :
    decoded c (levelDBDelete db r.name key) r' key' =
      if r' = r ∧ key' = key then none else decoded c db r' key' := by
  rw [decoded, levelDBDelete, GoMap.get_delete]
  by_cases h : r' = r ∧ key' = key
  · obtain ⟨rfl, rfl⟩ := h
    simp
  · rw [if_neg (by rw [resourceName_inj]; exact h), if_neg h]
    rfl

theorem WellStored.update {db : GoMap String B} (h : WellStored c db) {r : Resource} {key : String}
    {data : B} {obj : O} (hobj : c.unmarshal r data = .ok obj) (hkey : c.metaNamespaceKey obj = key) :
    WellStored c (levelDBUpdate db r.name key data) := by
  subst hkey
  intro name data' hdata
  rcases GoMap.get_set_eq_some.mp hdata with ⟨hname, rfl⟩ | ⟨-, hdata⟩
  · exact ⟨r, obj, hname, hobj⟩
  · exact h name data' hdata

theorem WellStored.delete {db : GoMap String B} (h : WellStored c db) (r : Resource) (key : String) :
    WellStored c (levelDBDelete db r.name key) := by
  intro name data hdata
  rw [levelDBDelete, GoMap.get_delete] at hdata
  split at hdata
  · exact absurd hdata (by simp)
  · exact h name data hdata

/-! ## Indexers that show the database -/

variable (c) in
/-- Offline, the types `T` have an indexer, and it holds the decoded entries of the type. -/
structure Mirrors (T : Resource → Prop) (s : EdgehubStorage O B) : Prop where
  offline : s.remoteEnable = false
  wellStored : WellStored c s.levelDB
  named : ∀ objType, s.cache.get objType ≠ none → ∃ r, objType = Resource.name r
  types : ∀ r : Resource, s.cache.get r.name ≠ none ↔ T r
  objects : ∀ (r : Resource) ix, s.cache.get r.name = some ix → ∀ key, ix.get key = decoded c s.levelDB r key

/-- The cache of `RebuildCache` after some names. -/
structure Rebuilt (c : Codec O B) (db : GoMap String B) (names : List String) (cache : Cache O) :
    Prop where
  named : ∀ objType, cache.get objType ≠ none → ∃ r, objType = Resource.name r
  types : ∀ r : Resource, cache.get r.name ≠ none ↔ ∃ key, formKeyName r.name key ∈ names
  objects : ∀ (r : Resource) ix, cache.get r.name = some ix → ∀ key,
    ix.get key = if formKeyName r.name key ∈ names then decoded c db r key else none

/-- A round of `RebuildCache` on a well-stored entry. -/
theorem rebuildStep_eq {db : GoMap String B} {r : Resource} {key : String} {data : B} {obj : O}
    (hdata : db.get (formKeyName r.name key) = some data) (hobj : c.unmarshal r data = .ok obj)
    (cache : Cache O) :
    rebuildStep c db cache (formKeyName r.name key) =
      cache.set r.name (Indexer.add c ((cache.get r.name).getD ∅) obj) := by
  rw [rebuildStep, hdata]
  simp only [splitKeyName_formKeyName r.dash_notMem_name, getObjectFromSerializeData_eq_ok c hobj]

/-- What a rebuilt cache holds for a type and a key, whether the type has an indexer yet or not. -/
theorem Rebuilt.get_getD {db : GoMap String B} {names : List String} {cache : Cache O}
    (h : Rebuilt c db names cache) (r : Resource) (key : String) :
    ((cache.get r.name).getD ∅).get key =
      if formKeyName r.name key ∈ names then decoded c db r key else none := by
  rcases hcache : cache.get r.name with _ | ix
  · have hnone : ¬ ∃ key, formKeyName r.name key ∈ names := by
      rw [← h.types r, hcache]
      simp
    rw [if_neg fun hmem => hnone ⟨key, hmem⟩]
    exact GoMap.get_empty key
  · exact h.objects r ix hcache key

theorem mem_append_resourceName {names : List String} {r r' : Resource} {key key' : String} :
    formKeyName r'.name key' ∈ names ++ [formKeyName r.name key] ↔
      formKeyName r'.name key' ∈ names ∨ r' = r ∧ key' = key := by
  rw [List.mem_append, List.mem_singleton, resourceName_inj]

theorem Rebuilt.step {db : GoMap String B} (hdb : WellStored c db) {names : List String}
    {cache : Cache O} (h : Rebuilt c db names cache) {name : String} (hname : db.get name ≠ none) :
    Rebuilt c db (names ++ [name]) (rebuildStep c db cache name) := by
  obtain ⟨data, hdata⟩ := Option.ne_none_iff_exists'.mp hname
  obtain ⟨r, obj, rfl, hobj⟩ := hdb name data hdata
  rw [rebuildStep_eq hdata hobj]
  refine ⟨?_, ?_, ?_⟩
  · intro objType hget
    rcases GoMap.get_set_ne_none.mp hget with rfl | hold
    · exact ⟨r, rfl⟩
    · exact h.named objType hold
  · -- the type of the entry has an indexer from now on
    intro r'
    rw [GoMap.get_set_ne_none, h.types, Resource.name_injective.eq_iff, or_comm]
    simp only [mem_append_resourceName, exists_or]
    simp
  · intro r' ix hix key
    simp only [mem_append_resourceName]
    by_cases hr : r' = r
    · subst hr
      rw [GoMap.get_set_self] at hix
      obtain rfl := Option.some.inj hix
      rw [Indexer.add, GoMap.get_set, h.get_getD]
      by_cases hkey : key = c.metaNamespaceKey obj
      · subst hkey
        simp [decoded, hdata, hobj, Except.toOption]
      · simp [hkey]
    · rw [GoMap.get_set_of_ne _ fun heq => hr (Resource.name_injective heq)] at hix
      rw [h.objects r' ix hix key]
      simp [hr]

theorem Rebuilt.foldl {db : GoMap String B} (hdb : WellStored c db) :
    ∀ (rest : List String) {names : List String} {cache : Cache O}, Rebuilt c db names cache →
      (∀ name ∈ rest, db.get name ≠ none) →
      Rebuilt c db (names ++ rest) (rest.foldl (rebuildStep c db) cache)
  | [], _, _, h, _ => by simpa using h
  | name :: rest, names, cache, h, hrest => by
      have hstep := h.step hdb (hrest name (by simp))
      have hall := Rebuilt.foldl hdb rest hstep fun name' h' => hrest name' (by simp [h'])
      rw [List.append_assoc] at hall
      exact hall

/-- A fresh store shows its database, with an indexer for every type that has an entry. -/
theorem mirrors_newEdgehubStore {db : GoMap String B} (hdb : WellStored c db) :
    Mirrors c (HasEntry db) (newEdgehubStore c db) := by
  have hempty : Rebuilt c db [] (∅ : Cache O) :=
    ⟨fun _ h => absurd (GoMap.get_empty _) h, fun r => by simp, fun r ix h => by simp at h⟩
  have h := Rebuilt.foldl hdb (MapOrder.sorted.order db) hempty fun _ => EdgehubStorage.mem_names.mp
  rw [List.nil_append] at h
  refine ⟨rfl, hdb, h.named, ?_, ?_⟩
  · intro r
    rw [HasEntry]
    refine (h.types r).trans (exists_congr fun key => ?_)
    rw [EdgehubStorage.mem_names, Option.isSome_iff_ne_none]
  · intro r ix hix key
    rw [h.objects r ix hix key]
    split
    · rfl
    · rename_i hnot
      rw [EdgehubStorage.mem_names, not_not] at hnot
      simp [newEdgehubStore, decoded, hnot]

/-! ## Offline operations -/

/-- A call of `Update` or `Delete` with a supported type. -/
inductive Op (B : Type) where
  | update (r : Resource) (key : String) (data : B)
  | delete (r : Resource) (key : String)

namespace Op

variable (c) in
/-- The effect of a call. -/
def apply (s : EdgehubStorage O B) : Op B → EdgehubStorage O B
  | update r key data => s.update c r.name key data
  | delete r key => s.delete c r.name key

variable (c) in
/-- The body of an update decodes to an object of the type and the key. -/
def Valid : Op B → Prop
  | update r key data => ∃ obj, c.unmarshal r data = .ok obj ∧ c.metaNamespaceKey obj = key
  | delete _ _ => True

/-- Which entries exist after a call, from those that existed before. -/
def mark (present : Resource → String → Bool) : Op B → Resource → String → Bool
  | update r key _ => fun r' key' => decide (r' = r ∧ key' = key) || present r' key'
  | delete r key => fun r' key' => !decide (r' = r ∧ key' = key) && present r' key'

end Op

/-- Which entries exist after some calls. -/
def presentAfter (db : GoMap String B) (ops : List (Op B)) : Resource → String → Bool :=
  ops.foldl Op.mark fun r key => (db.get (formKeyName r.name key)).isSome

/-- Replacing the indexer of a type, together with the entries of the type in the database. -/
theorem Mirrors.set_indexer {T : Resource → Prop} {s : EdgehubStorage O B} (h : Mirrors c T s)
    {r : Resource} {ix ix' : Indexer O} {db : GoMap String B} (hix : s.cache.get r.name = some ix)
    (hdb : WellStored c db) (hself : ∀ key, ix'.get key = decoded c db r key)
    (hother : ∀ r' key, r' ≠ r → decoded c db r' key = decoded c s.levelDB r' key) :
    Mirrors c T { s with cache := s.cache.set r.name ix', levelDB := db } := by
  refine ⟨h.offline, hdb, ?_, ?_, ?_⟩
  · intro objType hget
    rcases GoMap.get_set_ne_none.mp hget with rfl | hold
    · exact ⟨r, rfl⟩
    · exact h.named objType hold
  · intro r'
    rw [GoMap.get_set_ne_none, ← h.types r', or_iff_right_iff_imp]
    intro hr
    simp [hr, hix]
  · intro r' ix'' hix'' key
    by_cases hr : r' = r
    · subst hr
      rw [GoMap.get_set_self] at hix''
      obtain rfl := Option.some.inj hix''
      exact hself key
    · rw [GoMap.get_set_of_ne _ fun heq => hr (Resource.name_injective heq)] at hix''
      rw [hother r' key hr]
      exact h.objects r' ix'' hix'' key

theorem mirrors_update {T : Resource → Prop} {s : EdgehubStorage O B} (h : Mirrors c T s) {r : Resource}
    {data : B} {obj : O} (hobj : c.unmarshal r data = .ok obj) :
    Mirrors c T (s.update c r.name (c.metaNamespaceKey obj) data) := by
  have hdb := h.wellStored.update hobj rfl
  rcases hix : s.cache.get r.name with _ | ix
  · -- no indexer for the type: only the database is written
    have heq : s.update c r.name (c.metaNamespaceKey obj) data =
        { s with levelDB := levelDBUpdate s.levelDB r.name (c.metaNamespaceKey obj) data } := by
      simp [EdgehubStorage.update, h.offline, hix]
    rw [heq]
    refine ⟨h.offline, hdb, h.named, h.types, ?_⟩
    intro r' ix' hix' key
    have hr : r' ≠ r := by
      rintro rfl
      exact absurd (hix.symm.trans hix') (by simp)
    rw [decoded_update hobj, if_neg fun hand => hr hand.1]
    exact h.objects r' ix' hix' key
  · have heq : s.update c r.name (c.metaNamespaceKey obj) data =
        { s with
          cache := s.cache.set r.name (Indexer.add c ix obj)
          levelDB := levelDBUpdate s.levelDB r.name (c.metaNamespaceKey obj) data } := by
      simp [EdgehubStorage.update, h.offline, hix, getObjectFromSerializeData_eq_ok c hobj]
    rw [heq]
    refine h.set_indexer hix hdb ?_ ?_
    · intro key
      rw [decoded_update hobj, Indexer.add, GoMap.get_set, h.objects r ix hix key]
      by_cases hkey : key = c.metaNamespaceKey obj
      · rw [if_pos hkey, if_pos ⟨rfl, hkey⟩]
      · rw [if_neg hkey, if_neg fun hand => hkey hand.2]
    · intro r' key hr
      rw [decoded_update hobj, if_neg fun hand => hr hand.1]

theorem mirrors_delete {T : Resource → Prop} {s : EdgehubStorage O B} (h : Mirrors c T s) (r : Resource)
    (key : String) : Mirrors c T (s.delete c r.name key) := by
  have hdb := h.wellStored.delete r key
  by_cases hobj : ((s.cache.get r.name).bind fun ix => ix.get key) = none
  · -- nothing to delete in the indexer, so nothing in the database that decodes
    have heq : s.delete c r.name key =
        { s with levelDB := levelDBDelete s.levelDB r.name key } := by
      rcases hix : s.cache.get r.name with _ | ix
      · simp [EdgehubStorage.delete, h.offline, hix]
      · rw [hix, Option.bind_some] at hobj
        simp [EdgehubStorage.delete, h.offline, hix, hobj]
    rw [heq]
    refine ⟨h.offline, hdb, h.named, h.types, ?_⟩
    intro r' ix' hix' key'
    rw [decoded_delete]
    by_cases hand : r' = r ∧ key' = key
    · obtain ⟨rfl, rfl⟩ := hand
      rw [if_pos ⟨rfl, rfl⟩]
      rw [hix', Option.bind_some] at hobj
      exact hobj
    · rw [if_neg hand]
      exact h.objects r' ix' hix' key'
  · obtain ⟨obj, hobj⟩ := Option.ne_none_iff_exists'.mp hobj
    obtain ⟨ix, hix, hget⟩ := Option.bind_eq_some_iff.mp hobj
    have hkey : c.metaNamespaceKey obj = key :=
      h.wellStored.metaNamespaceKey_decoded ((h.objects r ix hix key).symm.trans hget)
    have heq : s.delete c r.name key =
        { s with
          cache := s.cache.set r.name (ix.delete key)
          levelDB := levelDBDelete s.levelDB r.name key } := by
      simp [EdgehubStorage.delete, h.offline, hix, hget, hkey]
    rw [heq]
    refine h.set_indexer hix hdb ?_ ?_
    · intro key'
      rw [decoded_delete, GoMap.get_delete, h.objects r ix hix key']
      by_cases hk : key' = key
      · rw [if_pos hk, if_pos ⟨rfl, hk⟩]
      · rw [if_neg hk, if_neg fun hand => hk hand.2]
    · intro r' key' hr
      rw [decoded_delete, if_neg fun hand => hr hand.1]

/-- What a call does to the entries of the database. -/
theorem isSome_levelDB_apply (s : EdgehubStorage O B) (op : Op B) (r : Resource) (key : String) :
    ((op.apply c s).levelDB.get (formKeyName r.name key)).isSome =
      op.mark (fun r key => (s.levelDB.get (formKeyName r.name key)).isSome) r key := by
  rcases op with ⟨r', key', data⟩ | ⟨r', key'⟩
  · simp only [Op.apply, EdgehubStorage.update, levelDBUpdate, GoMap.get_set, Op.mark, resourceName_inj]
    by_cases hand : r = r' ∧ key = key'
    · simp [hand]
    · rw [if_neg hand, decide_eq_false hand, Bool.false_or]
  · simp only [Op.apply, EdgehubStorage.delete, levelDBDelete, GoMap.get_delete, Op.mark,
      resourceName_inj]
    by_cases hand : r = r' ∧ key = key'
    · simp [hand]
    · rw [if_neg hand, decide_eq_false hand, Bool.not_false, Bool.true_and]

/-- Offline calls keep the indexers in step with the database, for the types that have one. -/
theorem mirrors_foldl {T : Resource → Prop} :
    ∀ (ops : List (Op B)) {s : EdgehubStorage O B}, Mirrors c T s → (∀ op ∈ ops, op.Valid c) →
      Mirrors c T (ops.foldl (Op.apply c) s) ∧
        ∀ r key, ((ops.foldl (Op.apply c) s).levelDB.get (formKeyName r.name key)).isSome =
          presentAfter s.levelDB ops r key
  | [], _, h, _ => ⟨h, fun _ _ => rfl⟩
  | op :: ops, s, h, hops => by
      have hstep : Mirrors c T (op.apply c s) := by
        have hvalid := hops op (by simp)
        rcases op with ⟨r, key, data⟩ | ⟨r, key⟩
        · obtain ⟨obj, hobj, rfl⟩ := hvalid
          exact mirrors_update h hobj
        · exact mirrors_delete h r key
      obtain ⟨hmirrors, hpresent⟩ := mirrors_foldl ops hstep fun op' h' => hops op' (by simp [h'])
      refine ⟨hmirrors, ?_⟩
      intro r key
      have hmark : (fun r key => ((op.apply c s).levelDB.get (formKeyName (Resource.name r) key)).isSome) =
          op.mark fun r key => (s.levelDB.get (formKeyName r.name key)).isSome :=
        funext fun r => funext fun key => isSome_levelDB_apply s op r key
      rw [List.foldl_cons, hpresent, presentAfter, presentAfter, List.foldl_cons, hmark]

/-! ## Answers -/

variable (c) in
/-- `Get` and `List` answer the same; a list has no order of its own. -/
def SameAnswers (s s' : EdgehubStorage O B) : Prop :=
  ∀ objType, (∀ key ser, s.get c objType key ser = s'.get c objType key ser) ∧
    ∀ it it', (s.list it objType).Perm (s'.list it' objType)

variable (c) in
/-- `Get` and `List` answer the same but for the texts of errors. -/
def SameUpToText (s s' : EdgehubStorage O B) : Prop :=
  ∀ objType, (∀ key ser, (s.get c objType key ser).toOption = (s'.get c objType key ser).toOption) ∧
    ∀ it it', (s.list it objType).Perm (s'.list it' objType)

theorem SameAnswers.upToText {s s' : EdgehubStorage O B} (h : SameAnswers c s s') :
    SameUpToText c s s' :=
  fun objType => ⟨fun key ser => congrArg Except.toOption ((h objType).1 key ser), (h objType).2⟩

theorem list_perm_of_cache_eq {s s' : EdgehubStorage O B} {objType : String}
    (h : s.cache.get objType = s'.cache.get objType) (it it' : MapOrder String) :
    (s.list it objType).Perm (s'.list it' objType) := by
  rw [EdgehubStorage.list, EdgehubStorage.list, h]
  split
  · exact List.Perm.nil
  · rename_i ix _
    refine List.Perm.filterMap _ ?_
    rw [List.perm_ext_iff_of_nodup (it.nodup ix) (it'.nodup ix)]
    intro key
    rw [it.mem_order, it'.mem_order]

theorem get_of_cache_eq {s s' : EdgehubStorage O B} {objType : String}
    (h : s.cache.get objType = s'.cache.get objType) (key : String) (ser : Bool) :
    s.get c objType key ser = s'.get c objType key ser := by
  rw [EdgehubStorage.get, EdgehubStorage.get, h]

section Compare

variable {T T' : Resource → Prop} {s s' : EdgehubStorage O B} (h : Mirrors c T s) (h' : Mirrors c T' s')
  (hdb : s.levelDB = s'.levelDB)

include h h' hdb

/-- A type with an indexer on both sides has the same one. -/
theorem cache_eq_of_mirrors {objType : String} (hs : s.cache.get objType ≠ none)
    (hs' : s'.cache.get objType ≠ none) : s.cache.get objType = s'.cache.get objType := by
  obtain ⟨r, rfl⟩ := h.named objType hs
  obtain ⟨ix, hix⟩ := Option.ne_none_iff_exists'.mp hs
  obtain ⟨ix', hix'⟩ := Option.ne_none_iff_exists'.mp hs'
  have heq : ix = ix' := GoMap.ext fun key => by
    rw [h.objects r ix hix key, h'.objects r ix' hix' key, hdb]
  rw [hix, hix', heq]

/-- With an indexer for every type that has an entry on the right, the answers agree up to text
exactly when these types have one on the left. -/
theorem sameUpToText_iff (hT : ∀ r, T' r ↔ HasEntry s'.levelDB r) :
    SameUpToText c s s' ↔ ∀ r, T' r → T r := by
  constructor
  · intro hsame r hr
    obtain ⟨key, hkey⟩ := (hT r).mp hr
    obtain ⟨ix', hix'⟩ := Option.ne_none_iff_exists'.mp ((h'.types r).mpr hr)
    rw [← h'.wellStored.isSome_decoded, ← h'.objects r ix' hix' key] at hkey
    obtain ⟨obj, hobj⟩ := Option.isSome_iff_exists.mp hkey
    have hget := (hsame r.name).1 key false
    rw [← h.types r]
    intro hnone
    simp [EdgehubStorage.get, hnone, hix', hobj, Except.toOption] at hget
  · intro hsub objType
    rcases hcache : s.cache.get objType with _ | ix
    · -- no indexer on the left, hence none on the right
      have hcache' : s'.cache.get objType = none := by
        by_contra hne
        obtain ⟨r, rfl⟩ := h'.named objType hne
        exact (h.types r).mpr (hsub r ((h'.types r).mp hne)) hcache
      have heq := hcache.trans hcache'.symm
      exact ⟨fun key ser => by rw [get_of_cache_eq heq], list_perm_of_cache_eq heq⟩
    · by_cases hcache' : s'.cache.get objType = none
      · -- an indexer without objects
        obtain ⟨r, rfl⟩ := h.named objType (by simp [hcache])
        have hempty : ∀ key, ix.get key = none := by
          intro key
          rw [h.objects r ix hcache key, ← Option.not_isSome_iff_eq_none, h.wellStored.isSome_decoded,
            hdb]
          intro hkey
          exact (h'.types r).mpr ((hT r).mpr ⟨key, hkey⟩) hcache'
        refine ⟨?_, ?_⟩
        · intro key ser
          simp [EdgehubStorage.get, hcache, hcache', hempty, Except.toOption]
        · intro it it'
          simp [EdgehubStorage.list, hcache, hcache', hempty]
      · have heq := cache_eq_of_mirrors h h' hdb (by simp [hcache]) hcache'
        exact ⟨fun key ser => by rw [get_of_cache_eq heq], list_perm_of_cache_eq heq⟩

theorem sameAnswers_iff (hT : ∀ r, T' r ↔ HasEntry s'.levelDB r) :
    SameAnswers c s s' ↔ ∀ r, T' r ↔ T r := by
  constructor
  · intro hsame r
    refine ⟨(sameUpToText_iff h h' hdb hT).mp hsame.upToText r, ?_⟩
    rw [← h.types, ← h'.types]
    intro hs hnone
    -- a type with an indexer on one side only shows in the answer for any key, here the empty one
    obtain ⟨ix, hix⟩ := Option.ne_none_iff_exists'.mp hs
    have hget := (hsame r.name).1 "" false
    rcases hobj : ix.get "" with _ | obj
    · simp [EdgehubStorage.get, hnone, hix, hobj] at hget
    · simp [EdgehubStorage.get, hnone, hix, hobj] at hget
  · intro hiff objType
    have heq : s.cache.get objType = s'.cache.get objType := by
      by_cases hs : s.cache.get objType = none
      · by_cases hs' : s'.cache.get objType = none
        · rw [hs, hs']
        · obtain ⟨r, rfl⟩ := h'.named objType hs'
          exact absurd hs ((h.types r).mpr ((hiff r).mp ((h'.types r).mp hs')))
      · obtain ⟨r, rfl⟩ := h.named objType hs
        exact cache_eq_of_mirrors h h' hdb hs ((h'.types r).mpr ((hiff r).mpr ((h.types r).mp hs)))
    exact ⟨get_of_cache_eq heq, list_perm_of_cache_eq heq⟩

end Compare

/-- Offline calls after a start, from any well-stored database: a restart changes no answer but for
error texts exactly when every type that has an entry in the end had one at the start, and it changes
no answer at all exactly when the types with an entry are the same. -/
theorem restart_invisible_iff {db : GoMap String B} (hdb : WellStored c db) {ops : List (Op B)}
    (hops : ∀ op ∈ ops, op.Valid c) :
    (SameUpToText c (ops.foldl (Op.apply c) (newEdgehubStore c db))
        (newEdgehubStore c (ops.foldl (Op.apply c) (newEdgehubStore c db)).levelDB) ↔
      ∀ r, (∃ key, presentAfter db ops r key = true) → HasEntry db r) ∧
    (SameAnswers c (ops.foldl (Op.apply c) (newEdgehubStore c db))
        (newEdgehubStore c (ops.foldl (Op.apply c) (newEdgehubStore c db)).levelDB) ↔
      ∀ r, (∃ key, presentAfter db ops r key = true) ↔ HasEntry db r) := by
  obtain ⟨hmirrors, hpresent⟩ := mirrors_foldl ops (mirrors_newEdgehubStore hdb) hops
  set s := ops.foldl (Op.apply c) (newEdgehubStore c db)
  have hfresh := mirrors_newEdgehubStore hmirrors.wellStored
  have hentry : ∀ r, HasEntry s.levelDB r ↔ ∃ key, presentAfter db ops r key = true := by
    intro r
    exact exists_congr fun key => by rw [hpresent]; rfl
  refine ⟨?_, ?_⟩
  · rw [sameUpToText_iff hmirrors hfresh rfl fun _ => Iff.rfl]
    exact forall_congr' fun r => by rw [hentry]
  · rw [sameAnswers_iff hmirrors hfresh rfl fun _ => Iff.rfl]
    exact forall_congr' fun r => by rw [hentry]

theorem wellStored_plainCodec_empty : WellStored plainCodec (∅ : GoMap String (String × String)) := by
  intro name data hdata
  exact absurd hdata (by simp)

/-- The first pod of a node that has none, stored offline, is not found before a restart and is found
after it. -/
theorem restart_reveals_first_object :
    let ops : List (Op (String × String)) := [.update .pod "ns/web" ("ns/web", "v1")]
    let s := ops.foldl (Op.apply plainCodec) (newEdgehubStore plainCodec ∅)
    WellStored plainCodec (∅ : GoMap String (String × String)) ∧ (∀ op ∈ ops, op.Valid plainCodec) ∧
      s.get plainCodec "pods" "ns/web" false =
        .error "get pods-ns/web obj failed: couldn't find object type indexer" ∧
      (newEdgehubStore plainCodec s.levelDB).get plainCodec "pods" "ns/web" false =
        .ok (.object ("ns/web", "v1")) := by
  refine ⟨wellStored_plainCodec_empty, ?_, by decide, by decide⟩
  intro op hop
  obtain rfl := List.mem_singleton.mp hop
  exact ⟨_, rfl, rfl⟩

/-- A database with one pod. -/
def webDB : GoMap String (String × String) :=
  levelDBUpdate ∅ (Resource.name .pod) "ns/web" ("ns/web", "v1")

/-- Another pod, stored offline. -/
def dbUpdate : List (Op (String × String)) := [.update .pod "ns/db" ("ns/db", "v1")]

theorem isSome_webDB (r : Resource) (key : String) :
    (webDB.get (formKeyName r.name key)).isSome = decide (r = .pod ∧ key = "ns/web") := by
  rw [webDB, levelDBUpdate, GoMap.get_set]
  simp only [resourceName_inj]
  by_cases h : r = .pod ∧ key = "ns/web"
  · rw [if_pos h, decide_eq_true h]
    rfl
  · rw [if_neg h, decide_eq_false h, GoMap.get_empty]
    rfl

/-- A second pod next to a stored one makes no difference. -/
theorem restart_invisible_second_pod :
    SameAnswers plainCodec (dbUpdate.foldl (Op.apply plainCodec) (newEdgehubStore plainCodec webDB))
      (newEdgehubStore plainCodec
        (dbUpdate.foldl (Op.apply plainCodec) (newEdgehubStore plainCodec webDB)).levelDB) := by
  have hobj : plainCodec.unmarshal .pod ("ns/web", "v1") = .ok ("ns/web", "v1") := rfl
  have hdb : WellStored plainCodec webDB := wellStored_plainCodec_empty.update hobj rfl
  refine (restart_invisible_iff hdb ?_).2.mpr ?_
  · intro op hop
    obtain rfl := List.mem_singleton.mp hop
    exact ⟨_, rfl, rfl⟩
  · intro r
    simp only [HasEntry, presentAfter, dbUpdate, List.foldl_cons, List.foldl_nil, Op.mark, isSome_webDB]
    constructor
    · rintro ⟨key, hkey⟩
      have hr : r = .pod := by
        rcases Bool.or_eq_true_iff.mp hkey with h | h
        · exact (of_decide_eq_true h).1
        · exact (of_decide_eq_true h).1
      exact ⟨"ns/web", decide_eq_true ⟨hr, rfl⟩⟩
    · rintro ⟨key, hkey⟩
      exact ⟨key, by rw [hkey, Bool.or_true]⟩

end OteStack.EdgeHub
