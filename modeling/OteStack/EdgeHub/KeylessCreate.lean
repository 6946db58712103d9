/-
# OteStack.EdgeHub.KeylessCreate — ConfigMaps and Secrets that are created offline.

The handlers of these two types (`pkg/server/apiv1/resource/configmap.go` and `secret.go`) do not decode the
body of a creation and call `DoCreate` with an empty key.  So nothing ever exists already; the indexer
keeps each object under its own key, but in the database all of them go to the one name `configmaps-` or
`secrets-`.

What a restart makes of a database is, for each key of a type, the last entry in the order of names that decodes
to an object with this key (`shown_rebuildStep`).  The name with the empty key comes first.  So of all objects
created offline at most the last one is left after a restart, and not even that one if there was an object with
its key before (`keyless_creates_after_restart`).
-/
import OteStack.EdgeHub.MergeRace
import OteStack.EdgeHub.RestApi

namespace OteStack.EdgeHub

open OteStack.Lib (GoMap MapOrder)

variable {O B : Type}

/-! ## What a rebuild keeps -/

/-- The object that a cache has for a type and a key. -/
def shown (cache : Cache O) (r : Resource) (key : String) : Option O :=
  (cache.get r.name).bind fun ix => ix.get key

/-- What an entry of the database contributes to a type and a key. -/
def contribution (c : Codec O B) (db : GoMap String B) (r : Resource) (key name : String) : Option O :=
  match splitKeyName name with
  | .error _ => none
  | .ok (objType, _) =>
      if objType = r.name then
        ((db.get name).bind fun data => (c.unmarshal r data).toOption).filter fun obj =>
          c.metaNamespaceKey obj == key
      else none

theorem shown_set (cache : Cache O) (objType : String) (ix : Indexer O) (r : Resource) (key : String) :
    shown (cache.set objType ix) r key = if r.name = objType then ix.get key else shown cache r key := by
  rw [shown, GoMap.get_set]
  split
  · rfl
  · rfl

theorem getD_get (cache : Cache O) (r : Resource) (key : String) :
    ((cache.get r.name).getD ∅).get key = shown cache r key := by
  unfold shown
  cases cache.get r.name with
  | none => exact GoMap.get_empty key
  | some ix => rfl

variable {c : Codec O B} {db : GoMap String B}

/-- One round of `RebuildCache`. -/
theorem shown_rebuildStep (cache : Cache O) (name : String) (r : Resource) (key : String) :
    shown (rebuildStep c db cache name) r key =
      (contribution c db r key name).or (shown cache r key) := by
  unfold rebuildStep contribution
  cases hdata : db.get name with
  | none =>
      cases splitKeyName name with
      | error err => rfl
      | ok pieces => simp
  | some data =>
      cases splitKeyName name with
      | error err => rfl
      | ok pieces =>
          obtain ⟨objType, rest⟩ := pieces
          dsimp only
          by_cases htype : objType = r.name
          · subst htype
            rw [if_pos rfl]
            cases hobj : c.unmarshal r data with
            | error err =>
                have hget : ∃ text, getObjectFromSerializeData c r.name data = .error text := by
                  rw [getObjectFromSerializeData, Resource.ofName_name]
                  simp [hobj]
                obtain ⟨text, htext⟩ := hget
                simp [htext, shown_set, getD_get, hobj, Except.toOption]
            | ok obj =>
                rw [getObjectFromSerializeData_eq_ok c hobj]
                simp only [shown_set, if_true, Indexer.add, GoMap.get_set, getD_get, Option.bind_some, hobj,
                  Except.toOption, Option.filter_some, beq_iff_eq]
                by_cases hkey : key = c.metaNamespaceKey obj
                · simp [hkey]
                · simp [hkey, Ne.symm hkey]
          · rw [if_neg htype]
            cases getObjectFromSerializeData c objType data with
            | error err => simp [shown_set, Ne.symm htype]
            | ok obj => simp [shown_set, Ne.symm htype]

/-- Entries that contribute nothing change nothing. -/
theorem shown_foldl_of_none {names : List String} {r : Resource} {key : String}
    (h : ∀ name ∈ names, contribution c db r key name = none) (cache : Cache O) :
    shown (names.foldl (rebuildStep c db) cache) r key = shown cache r key := by
  induction names generalizing cache with
  | nil => rfl
  | cons name names ih =>
      rw [List.foldl_cons, ih fun n hn => h n (List.mem_cons_of_mem name hn), shown_rebuildStep,
        h name List.mem_cons_self, Option.none_or]

/-- The names of a database in increasing order. -/
theorem pairwise_names (db : GoMap String B) : (MapOrder.sorted.order db).Pairwise (· ≤ ·) :=
  MapOrder.pairwise_sorted db

/-- The last entry that contributes decides what a rebuilt cache has. -/
theorem shown_rebuildCache_of_last {r : Resource} {key name : String} {obj : O}
    (hname : db.get name ≠ none) (hobj : contribution c db r key name = some obj)
    (hlast : ∀ n, name < n → contribution c db r key n = none) :
    shown (rebuildCache c db) r key = some obj := by
  obtain ⟨before, after, hsplit⟩ := List.append_of_mem (EdgehubStorage.mem_names.mpr hname)
  have hsorted := pairwise_names db
  have hnodup := MapOrder.sorted.nodup db
  rw [hsplit] at hsorted hnodup
  have hafter : ∀ n ∈ after, contribution c db r key n = none := by
    intro n hn
    have hle : name ≤ n := (List.pairwise_cons.mp (List.pairwise_append.mp hsorted).2.1).1 n hn
    have hne : name ≠ n := fun heq =>
      (List.nodup_cons.mp (List.nodup_append.mp hnodup).2.1).1 (heq ▸ hn)
    exact hlast n (lt_of_le_of_ne hle hne)
  rw [rebuildCache, hsplit, List.foldl_append, List.foldl_cons, shown_foldl_of_none hafter, shown_rebuildStep,
    hobj, Option.some_or]

/-- If no entry contributes, it has nothing. -/
theorem shown_rebuildCache_of_none {r : Resource} {key : String}
    (h : ∀ name, contribution c db r key name = none) : shown (rebuildCache c db) r key = none := by
  rw [rebuildCache, shown_foldl_of_none fun name _ => h name]
  rfl

/-- What contributes is an entry of the type with an object of the key. -/
theorem contribution_eq_some {r : Resource} {key name : String} {obj : O} :
    contribution c db r key name = some obj ↔
      ∃ rest data, name = formKeyName r.name rest ∧ db.get name = some data ∧
        c.unmarshal r data = .ok obj ∧ c.metaNamespaceKey obj = key := by
  constructor
  · intro h
    unfold contribution at h
    cases hsplit : splitKeyName name with
    | error err => rw [hsplit] at h; cases h
    | ok pieces =>
        obtain ⟨objType, rest⟩ := pieces
        rw [hsplit] at h
        obtain ⟨rfl, hfilter⟩ := Option.ite_none_right_eq_some.mp h
        obtain ⟨hobj, hkey⟩ := Option.filter_eq_some_iff.mp hfilter
        obtain ⟨data, hdata, hdec⟩ := Option.bind_eq_some_iff.mp hobj
        refine ⟨rest, data, MergeRace.eq_formKeyName hsplit, hdata, ?_, beq_iff_eq.mp hkey⟩
        cases hu : c.unmarshal r data with
        | error err => rw [hu] at hdec; cases hdec
        | ok obj' => rw [hu] at hdec; rw [Option.some.inj hdec]
  · rintro ⟨rest, data, rfl, hdata, hobj, rfl⟩
    simp [contribution, splitKeyName_formKeyName r.dash_notMem_name, hdata, hobj, Except.toOption]

theorem not_append_lt (l l' : List Char) : ¬ l ++ l' < l := by
  induction l with
  | nil => exact List.not_lt_nil _
  | cons x l ih =>
      intro hlt
      cases hlt with
      | rel h => exact lt_irrefl x h
      | cons h => exact ih h

/-- The name with the empty key is the least of its type. -/
theorem formKeyName_empty_le (objType key : String) : formKeyName objType "" ≤ formKeyName objType key := by
  have hlist : (formKeyName objType key).toList = (formKeyName objType "").toList ++ key.toList := by
    simp [formKeyName]
  rw [String.le_iff_toList_le, hlist]
  exact not_lt.mp (not_append_lt _ _)

/-! ## Creations without a key -/

/-- The two types. -/
def Resource.Keyless (r : Resource) : Prop := r = .configMap ∨ r = .secret

/-- The requests that create objects, one after the other. -/
def creations (it : MapOrder String) (answer : MasterAnswer B) (r : Resource) (bodies : List B) :
    List (HubAction B) :=
  bodies.map fun body => .request .apiv1 r.name (.create (.ok body)) it answer

/-- The last of the created objects that has the key. -/
def latest (c : Codec O B) (posts : List (B × O)) (key : String) : Option O :=
  ((posts.filter fun post => c.metaNamespaceKey post.2 == key).getLast?).map Prod.snd

theorem latest_concat (c : Codec O B) (posts : List (B × O)) (post : B × O) (key : String) :
    latest c (posts ++ [post]) key =
      if c.metaNamespaceKey post.2 = key then some post.2 else latest c posts key := by
  by_cases hkey : c.metaNamespaceKey post.2 = key
  · simp [latest, hkey]
  · simp [latest, hkey]

/-- The hub after some objects of the type were created, from a database `db` and objects `objects` of the
type; `indexed` says whether the type has an indexer. -/
structure Posted (c : ApiCodec O B) (r : Resource) (db : GoMap String B) (objects : String → Option O)
    (indexed : Prop) (posts : List (B × O)) (ctx : HandlerContext O B) : Prop where
  cache : ctx.store.cache.get r.name ≠ none ↔ indexed
  offline : ctx.isRemoteEnable = false
  storeOffline : ctx.store.remoteEnable = false
  nameless : shown ctx.store.cache r "" = none
  shows : indexed → ∀ key,
    shown ctx.store.cache r key = (latest c.toCodec posts key).or (objects key)
  stored : ∀ name, ctx.store.levelDB.get name =
    if name = formKeyName r.name "" then (posts.getLast?.map Prod.fst).or (db.get name) else db.get name

section Posts

variable {c : ApiCodec O B} {a : ObjectStore O} {ctx : HandlerContext O B} {r : Resource}
  {db : GoMap String B} {objects : String → Option O} {indexed : Prop} {posts : List (B × O)}

theorem Refines.shown (h : Refines c a ctx) (hcache : ctx.store.cache.get r.name ≠ none) (key : String) :
    shown ctx.store.cache r key = a.objects r key := by
  obtain ⟨ix, hix⟩ := Option.ne_none_iff_exists'.mp hcache
  rw [EdgeHub.shown, hix, Option.bind_some, h.objects, h.mirrors.objects r ix hix key]

theorem Refines.posted (h : Refines c a ctx) (hname : a.objects r "" = none) :
    Posted c r ctx.store.levelDB (a.objects r) (a.listed r) [] ctx := by
  refine ⟨h.mirrors.types r, h.offline, h.mirrors.offline, ?_, ?_, ?_⟩
  · by_cases hcache : ctx.store.cache.get r.name = none
    · rw [EdgeHub.shown, hcache, Option.bind_none]
    · rw [h.shown hcache, hname]
  · intro hlisted key
    rw [h.shown ((h.mirrors.types r).mpr hlisted)]
    rfl
  · intro name
    simp

/-- Nothing is found under the empty key. -/
theorem get_eq_error_of_shown {s : EdgehubStorage O B} {key : String} (h : shown s.cache r key = none) :
    ∃ err, s.get c.toCodec r.name key false = .error err := by
  unfold shown at h
  unfold EdgehubStorage.get
  cases hix : s.cache.get r.name with
  | none => exact ⟨_, rfl⟩
  | some ix =>
      rw [hix, Option.bind_some] at h
      simp only [h]
      exact ⟨_, rfl⟩

/-- A creation is never refused, and goes to the one name. -/
theorem createKeyless_eq {answer : MasterAnswer B} (h : Posted c r db objects indexed posts ctx) (body : B) :
    createKeyless c answer ctx r body =
      (⟨0, none, some body⟩, { ctx with store := ctx.store.update c.toCodec r.name "" body }) := by
  obtain ⟨err, herr⟩ := get_eq_error_of_shown (c := c) h.nameless
  unfold createKeyless doCreate
  rw [if_neg (by rw [h.offline]; decide), herr]

/-- What an update leaves of the objects of the type. -/
theorem shown_update {s : EdgehubStorage O B} (hoff : s.remoteEnable = false) {body : B} {obj : O}
    (hobj : c.unmarshal r body = .ok obj) (key key' : String) :
    shown (s.update c.toCodec r.name key' body).cache r key =
      if s.cache.get r.name ≠ none ∧ key = c.metaNamespaceKey obj then some obj
      else shown s.cache r key := by
  unfold EdgehubStorage.update
  rw [if_neg (by rw [hoff]; decide)]
  cases hix : s.cache.get r.name with
  | none => simp
  | some ix =>
      simp only [getObjectFromSerializeData_eq_ok c.toCodec hobj, shown_set, if_true, Indexer.add,
        GoMap.get_set]
      simp [shown, hix]

/-- An update makes no indexer. -/
theorem cache_update_ne_none {s : EdgehubStorage O B} {body : B} {key : String} :
    (s.update c.toCodec r.name key body).cache.get r.name ≠ none ↔ s.cache.get r.name ≠ none := by
  unfold EdgehubStorage.update
  cases hix : s.cache.get r.name with
  | none => simp [hix]
  | some ix =>
      cases s.remoteEnable with
      | true => simp [hix]
      | false =>
          cases getObjectFromSerializeData c.toCodec r.name body with
          | error err => simp [hix]
          | ok obj => simp

theorem Posted.concat (h : Posted c r db objects indexed posts ctx) {body : B} {obj : O}
    (hobj : c.unmarshal r body = .ok obj) (hkey : c.metaNamespaceKey obj ≠ "") :
    Posted c r db objects indexed (posts ++ [(body, obj)])
      { ctx with store := ctx.store.update c.toCodec r.name "" body } := by
  refine ⟨cache_update_ne_none.trans h.cache, h.offline, h.storeOffline, ?_, ?_, ?_⟩
  · rw [shown_update h.storeOffline hobj, if_neg fun hand => hkey hand.2.symm]
    exact h.nameless
  · intro hindexed key
    rw [shown_update h.storeOffline hobj, latest_concat, h.shows hindexed key]
    by_cases hk : c.metaNamespaceKey obj = key
    · rw [if_pos ⟨h.cache.mpr hindexed, hk.symm⟩, if_pos hk, Option.some_or]
    · rw [if_neg fun hand => hk hand.2.symm, if_neg hk]
  · intro name
    show (levelDBUpdate ctx.store.levelDB r.name "" body).get name = _
    rw [levelDBUpdate, GoMap.get_set, h.stored name]
    by_cases hname : name = formKeyName r.name ""
    · simp [hname]
    · simp [hname]

theorem serverHandler_of_keyless (hr : r.Keyless) : ApiGroup.serverHandler .apiv1 r.name = some r := by
  rcases hr with rfl | rfl
  · decide
  · decide

theorem create_of_keyless (hr : r.Keyless) (answer : MasterAnswer B) (ctx : HandlerContext O B) (body : B) :
    create c answer ctx r body = createKeyless c answer ctx r body := by
  rcases hr with rfl | rfl
  · rfl
  · rfl

/-- A run of creations: each is answered with its body. -/
theorem Posted.run (hr : r.Keyless) (it : MapOrder String) (answer : MasterAnswer B) (more : List (B × O))
    (hmore : ∀ post ∈ more, c.unmarshal r post.1 = .ok post.2 ∧ c.metaNamespaceKey post.2 ≠ "")
    (h : Posted c r db objects indexed posts ctx) :
    (runApi c ctx (creations it answer r (more.map Prod.fst))).1 = more.map (fun post => .body (some post.1)) ∧
      Posted c r db objects indexed (posts ++ more)
        (runApi c ctx (creations it answer r (more.map Prod.fst))).2 := by
  induction more generalizing posts ctx with
  | nil =>
      rw [List.append_nil]
      exact ⟨rfl, h⟩
  | cons post more ih =>
      obtain ⟨hobj, hkey⟩ := hmore post List.mem_cons_self
      have hserve : serve (hubHandlers c it answer) c.handleK3sGetEndpoint .apiv1 ctx r.name
          (.create (.ok post.1)) = (.body (some post.1),
            { ctx with store := ctx.store.update c.toCodec r.name "" post.1 }) := by
        simp only [serve, ApiGroup.routes, if_true, handle, withBody, withHandler,
          serverHandler_of_keyless hr, hubHandlers, create_of_keyless hr, createKeyless_eq h]
        rfl
      obtain ⟨hanswers, hend⟩ := ih (fun p hp => hmore p (List.mem_cons_of_mem post hp)) (h.concat hobj hkey)
      rw [List.map_cons, creations, List.map_cons, runApi, hserve, List.append_cons]
      exact ⟨congrArg _ hanswers, hend⟩

/-- What a restart makes of the database: objects that were there before come first, and of the created ones
only the last is there. -/
theorem Posted.shown_restart (hdb : WellStored c.toCodec db) {last : B × O}
    (h : Posted c r db (decoded c.toCodec db r) indexed (posts ++ [last]) ctx)
    (hlast : c.unmarshal r last.1 = .ok last.2) {key : String} (hkey : key ≠ "") :
    shown (ctx.restart c).store.cache r key =
      (decoded c.toCodec db r key).or (if c.metaNamespaceKey last.2 = key then some last.2 else none) := by
  have hfirst : ctx.store.levelDB.get (formKeyName r.name "") = some last.1 := by
    rw [h.stored]
    simp
  have hnamed : ∀ rest, rest ≠ "" → ctx.store.levelDB.get (formKeyName r.name rest) =
      db.get (formKeyName r.name rest) := by
    intro rest hrest
    rw [h.stored, if_neg fun heq => hrest (resourceName_inj.mp heq).2]
  -- only the name of the key and the name without a key can contribute
  have honly : ∀ name obj, contribution c.toCodec ctx.store.levelDB r key name = some obj →
      name = formKeyName r.name "" ∧ obj = last.2 ∨
        name = formKeyName r.name key ∧ decoded c.toCodec db r key = some obj := by
    intro name obj hobj
    obtain ⟨rest, data, rfl, hdata, hdec, hk⟩ := contribution_eq_some.mp hobj
    by_cases hrest : rest = ""
    · subst hrest
      rw [hfirst] at hdata
      obtain rfl := Option.some.inj hdata
      exact Or.inl ⟨rfl, Except.ok.inj (hdec.symm.trans hlast)⟩
    · rw [hnamed rest hrest] at hdata
      obtain ⟨obj', hobj', hrestKey⟩ := hdb.entry hdata
      obtain rfl := Except.ok.inj (hdec.symm.trans hobj')
      obtain rfl : rest = key := hrestKey.symm.trans hk
      exact Or.inr ⟨rfl, by simp [decoded, hdata, hdec, Except.toOption]⟩
  show shown (rebuildCache c.toCodec ctx.store.levelDB) r key = _
  cases hold : decoded c.toCodec db r key with
  | some obj =>
      rw [Option.some_or]
      obtain ⟨data, hdata, hdec⟩ := Option.bind_eq_some_iff.mp hold
      obtain ⟨obj', hobj', hkey'⟩ := hdb.entry hdata
      obtain rfl : obj' = obj := by
        rw [hobj'] at hdec
        exact Option.some.inj hdec
      have hget := (hnamed key hkey).trans hdata
      refine shown_rebuildCache_of_last (by rw [hget]; simp)
        (contribution_eq_some.mpr ⟨key, data, rfl, hget, hobj', hkey'⟩) ?_
      intro name hlt
      refine Option.eq_none_iff_forall_ne_some.mpr fun other hother => ?_
      rcases honly name other hother with ⟨rfl, -⟩ | ⟨rfl, -⟩
      · exact absurd hlt (not_lt.mpr (formKeyName_empty_le r.name key))
      · exact lt_irrefl _ hlt
  | none =>
      rw [Option.none_or]
      by_cases hk : c.metaNamespaceKey last.2 = key
      · rw [if_pos hk]
        refine shown_rebuildCache_of_last (by rw [hfirst]; simp)
          (contribution_eq_some.mpr ⟨"", last.1, rfl, hfirst, hlast, hk⟩) ?_
        intro name hlt
        refine Option.eq_none_iff_forall_ne_some.mpr fun other hother => ?_
        rcases honly name other hother with ⟨rfl, -⟩ | ⟨-, hsome⟩
        · exact lt_irrefl _ hlt
        · exact absurd (hold.symm.trans hsome) (by simp)
      · rw [if_neg hk]
        refine shown_rebuildCache_of_none fun name => Option.eq_none_iff_forall_ne_some.mpr ?_
        intro other hother
        obtain ⟨-, -, -, -, -, hotherKey⟩ := contribution_eq_some.mp hother
        rcases honly name other hother with ⟨-, rfl⟩ | ⟨-, hsome⟩
        · exact hk hotherKey
        · exact absurd (hold.symm.trans hsome) (by simp)

end Posts

/-- ConfigMaps or Secrets are created on an offline hub, one after the other.  Every creation is answered
with its body, and where the type has an indexer the last object with a key is found under it, as is any older
object with another key.  After a restart what was there before the creations is found again, also under keys
that were created, and of the created objects at most the last one is found. -/
theorem keyless_creates_after_restart (c : ApiCodec O B) {a : ObjectStore O} {ctx : HandlerContext O B}
    (h : Refines c a ctx) {r : Resource} (hr : r.Keyless) (hname : a.objects r "" = none)
    (it : MapOrder String) (answer : MasterAnswer B) (posts : List (B × O)) (last : B × O)
    (hposts : ∀ post ∈ posts ++ [last],
      c.unmarshal r post.1 = .ok post.2 ∧ c.metaNamespaceKey post.2 ≠ "") :
    let done := runApi c ctx (creations it answer r ((posts ++ [last]).map Prod.fst))
    done.1 = (posts ++ [last]).map (fun post => .body (some post.1)) ∧
      (a.listed r → ∀ key, shown done.2.store.cache r key =
        (latest c.toCodec (posts ++ [last]) key).or (a.objects r key)) ∧
      ∀ key, key ≠ "" → shown (done.2.restart c).store.cache r key =
        (a.objects r key).or (if c.metaNamespaceKey last.2 = key then some last.2 else none) := by
  intro done
  obtain ⟨hanswers, hend⟩ := (h.posted hname).run hr it answer _ hposts
  rw [List.nil_append] at hend
  refine ⟨hanswers, ?_, ?_⟩
  · intro hlisted
    exact hend.shows hlisted
  · intro key hkey
    have hobjects : a.objects r = decoded c.toCodec ctx.store.levelDB r := funext (h.objects r)
    rw [hobjects] at hend ⊢
    exact hend.shown_restart h.mirrors.wellStored (hposts last (by simp)).1 hkey

/-- Two ConfigMaps are created on a node that has none, and the hub restarts: both creations are answered
with the body, and the first ConfigMap is not there. -/
theorem keyless_creates_after_restart_two :
    let bodies := [("ns/a", "v1"), ("ns/b", "v1")]
    let done := runApi plainApi webContext (creations MapOrder.sorted (.ok ("", "")) .configMap bodies)
    done.1 = bodies.map (fun body => .body (some body)) ∧
      shown (done.2.restart plainApi).store.cache .configMap "ns/a" = none ∧
      shown (done.2.restart plainApi).store.cache .configMap "ns/b" = some ("ns/b", "v1") := by
  intro bodies done
  obtain ⟨hanswers, -, hafter⟩ := keyless_creates_after_restart plainApi refines_webContext
    (Or.inl rfl : Resource.Keyless .configMap) (by decide) MapOrder.sorted (.ok ("", ""))
    [(("ns/a", "v1"), ("ns/a", "v1"))] (("ns/b", "v1"), ("ns/b", "v1")) (by
      intro post hpost
      rcases List.mem_pair.mp hpost with rfl | rfl
      · exact ⟨rfl, by decide⟩
      · exact ⟨rfl, by decide⟩)
  refine ⟨hanswers, (hafter "ns/a" (by decide)).trans ?_, (hafter "ns/b" (by decide)).trans ?_⟩
  · decide
  · decide

end OteStack.EdgeHub
