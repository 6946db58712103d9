/-
# OteStack.EdgeHub.MergeRace — `MergeDelete` while the informers go on.

When the syncers have restarted, `RefreshStorage` of `pkg/syncer` lets `MergeDelete` remove from LevelDB what
is not in the caches of the informers.  Meanwhile every event of an informer changes its cache first, and
its handler brings the change to LevelDB later (`syncToStorage`); the handlers of one type run one after the
other.  `MergeDelete` looks the names of a snapshot up one by one and deletes what it has not found in one
batch at the end.

So a name can be looked up, found missing, cached again and written, and then be deleted by the batch
(`readded_object_wiped`).  LevelDB is a copy of the caches, up to what the handlers still have to do, exactly
if the batch holds no name that is cached and has nothing to do, and no name of the snapshot is without a
separator (`merge_mirrors_iff`).  Without events in between the steps are those of `mergeDelete`
(`run_eq_mergeDelete`).
-/
import OteStack.EdgeHub.WatchFilter
import OteStack.Lib.ChangeQueue
import OteStack.Lib.StepSystem

namespace OteStack.EdgeHub

open OteStack.Lib
open EdgehubStorage (Known known_iff mergeDeleteBatch mem_names)

variable {O B : Type} (c : Codec O B)

/-! ## The steps -/

/-- Go's `syncToStorage`. -/
def syncToStorage (s : EdgehubStorage O B) (action : EventType) (objType : Resource) (obj : O) :
    EdgehubStorage O B :=
  match c.marshal obj with
  | .error _ => s
  | .ok data =>
      match action with
      | .deleted => s.delete c objType.name (c.metaNamespaceKey obj)
      | _ => s.update c objType.name (c.metaNamespaceKey obj) data

/-- What an event of the informer makes of its indexer. -/
def Indexer.apply (ix : Indexer O) (e : WatchEvent O) : Indexer O :=
  match e.type with
  | .deleted => ix.delete (c.metaNamespaceKey e.object)
  | _ => Indexer.add c ix e.object

/-- Where `MergeDelete` is: the names of the snapshot that it has still to look up, and its batch. -/
inductive MergePhase where
  | idle
  | scanning (rest batch : List String)
  | finished
  deriving DecidableEq, Repr

/-- The storage, the events of each informer that have not been handled, and `MergeDelete`. -/
structure MergeRace (O B : Type) where
  store : EdgehubStorage O B
  pending : Resource → List (WatchEvent O)
  phase : MergePhase

/-- What happens: an informer changes its cache, a handler handles the next event of its type, or
`MergeDelete` goes on. -/
inductive MergeAction (O : Type) where
  | notify (r : Resource) (e : WatchEvent O)
  | handle (r : Resource)
  | startMerge
  | check
  | writeBatch

namespace MergeRace

/-- One step.  Objects come from the API server and can be encoded again. -/
def step (s : MergeRace O B) : MergeAction O → Option (MergeRace O B)
  | .notify r e =>
      match s.store.cache.get r.name, c.marshal e.object with
      | some ix, .ok _ =>
          some { s with
            store := { s.store with cache := s.store.cache.set r.name (ix.apply c e) }
            pending := Function.update s.pending r (s.pending r ++ [e]) }
      | _, _ => none
  | .handle r =>
      match s.pending r with
      | [] => none
      | e :: rest =>
          some { s with
            store := syncToStorage c s.store e.type r e.object
            pending := Function.update s.pending r rest }
  | .startMerge =>
      match s.phase with
      | .idle => some { s with phase := .scanning (MapOrder.sorted.order s.store.levelDB) [] }
      | _ => none
  | .check =>
      match s.phase with
      | .scanning (name :: rest) batch =>
          match splitKeyName name with
          | .error _ => some { s with phase := .finished }
          | .ok (objType, key) =>
              if ((s.store.cache.get objType).bind fun ix => ix.get key).isSome then
                some { s with phase := .scanning rest batch }
              else some { s with phase := .scanning rest (batch ++ [name]) }
      | _ => none
  | .writeBatch =>
      match s.phase with
      | .scanning [] batch =>
          some { s with
            store := { s.store with levelDB := batch.foldl GoMap.delete s.store.levelDB }
            phase := .finished }
      | _ => none

/-- The steps of a `MergeDelete` over some names. -/
def mergeActions : List String → List (MergeAction O)
  | [] => [.writeBatch]
  | name :: rest => .check :: match splitKeyName name with
    | .error _ => []
    | .ok _ => mergeActions rest

theorem run_mergeActions (s : MergeRace O B) : ∀ (rest batch : List String),
    runSteps (step c) { s with phase := .scanning rest batch } (mergeActions rest) =
      some (match mergeDeleteBatch s.store.cache rest with
        | .error _ => { s with phase := .finished }
        | .ok more =>
            { s with
              store := { s.store with levelDB := (batch ++ more).foldl GoMap.delete s.store.levelDB }
              phase := .finished })
  | [], batch => by simp [mergeActions, runSteps, step, mergeDeleteBatch]
  | name :: rest, batch => by
      cases hsplit : splitKeyName name with
      | error err => simp [mergeActions, hsplit, runSteps, step, mergeDeleteBatch]
      | ok pieces =>
          obtain ⟨objType, key⟩ := pieces
          have ih := run_mergeActions s rest
          by_cases hsome : ((s.store.cache.get objType).bind fun ix => ix.get key).isSome
          · simp only [mergeActions, hsplit, runSteps, step, if_pos hsome, Option.bind_some, ih,
              mergeDeleteBatch]
            cases mergeDeleteBatch s.store.cache rest <;> rfl
          · simp only [mergeActions, hsplit, runSteps, step, if_neg hsome, Option.bind_some, ih,
              mergeDeleteBatch]
            cases mergeDeleteBatch s.store.cache rest <;> simp

/-- When no event comes in between, the steps are those of `MergeDelete`. -/
theorem run_eq_mergeDelete (s : MergeRace O B) (hidle : s.phase = .idle) :
    runSteps (step c) s (.startMerge :: mergeActions (MapOrder.sorted.order s.store.levelDB)) =
      some { s with store := s.store.mergeDelete.2, phase := .finished } := by
  rw [runSteps, step, hidle]
  simp only [Option.bind_some]
  rw [run_mergeActions c s, EdgehubStorage.mergeDelete]
  cases mergeDeleteBatch s.store.cache (MapOrder.sorted.order s.store.levelDB) <;> rfl

/-! ## What is cached, and what is on its way -/

/-- A name that splits is made of its pieces. -/
theorem eq_formKeyName {name objType key : String} (h : splitKeyName name = .ok (objType, key)) :
    name = formKeyName objType key := by
  unfold splitKeyName at h
  split at h
  · rename_i pieces hcut
    obtain rfl := Except.ok.inj h
    have hname := GoStrings.eq_of_cut hcut
    exact hname
  · cases h

instance (cache : Cache O) (name : String) : Decidable (Known cache name) :=
  match hsplit : splitKeyName name with
  | .ok (objType, key) =>
      decidable_of_iff (((cache.get objType).bind fun ix => ix.get key).isSome = true) (known_iff hsplit).symm
  | .error _ => .isFalse fun ⟨_, _, h, _⟩ => by simp [hsplit] at h

/-- The key of the object of an event. -/
def keyOf (e : WatchEvent O) : String := c.metaNamespaceKey e.object

/-- An event for the name has not been handled. -/
def Awaits (s : MergeRace O B) (name : String) : Prop :=
  match splitKeyName name with
  | .error _ => False
  | .ok (objType, key) =>
      match Resource.ofName objType with
      | none => False
      | some r => Awaited (keyOf c) (s.pending r) key

instance (s : MergeRace O B) (name : String) : Decidable (s.Awaits c name) :=
  match hsplit : splitKeyName name with
  | .error _ => .isFalse (by simp [Awaits, hsplit])
  | .ok (objType, key) =>
      match htype : Resource.ofName objType with
      | none => .isFalse (by simp [Awaits, hsplit, htype])
      | some r => decidable_of_iff (Awaited (keyOf c) (s.pending r) key) (by simp [Awaits, hsplit, htype])

variable {c} {s s' : MergeRace O B} {a : MergeAction O} {name : String}

theorem awaits_formKeyName {r : Resource} {key : String} :
    s.Awaits c (formKeyName r.name key) ↔ Awaited (keyOf c) (s.pending r) key := by
  rw [Awaits, splitKeyName_formKeyName r.dash_notMem_name]
  simp only [Resource.ofName_name]

theorem known_formKeyName {cache : Cache O} {r : Resource} {key : String} :
    Known cache (formKeyName r.name key) ↔ ((cache.get r.name).bind fun ix => ix.get key).isSome :=
  known_iff (splitKeyName_formKeyName r.dash_notMem_name key)

/-- What is on its way for a name depends on the events for it. -/
theorem awaits_congr (h : ∀ r key, name = formKeyName r.name key →
      (Awaited (keyOf c) (s'.pending r) key ↔ Awaited (keyOf c) (s.pending r) key)) :
    s'.Awaits c name ↔ s.Awaits c name := by
  unfold Awaits
  split
  · exact Iff.rfl
  · rename_i objType key hsplit
    split
    · exact Iff.rfl
    · rename_i r hr
      refine h r key ?_
      rw [eq_formKeyName hsplit, Resource.name_of_ofName hr]

/-- Whether a name is cached depends on its entry. -/
theorem known_congr {cache cache' : Cache O} (h : ∀ objType key, name = formKeyName objType key →
      ((cache'.get objType).bind fun ix => ix.get key).isSome =
        ((cache.get objType).bind fun ix => ix.get key).isSome) :
    Known cache' name ↔ Known cache name := by
  cases hsplit : splitKeyName name with
  | error err => simp [Known, hsplit]
  | ok pieces => rw [known_iff hsplit, known_iff hsplit, h _ _ (eq_formKeyName hsplit)]

/-! ## What the steps do -/

/-- The event leaves an object, rather than none. -/
def stored (e : WatchEvent O) : Bool := decide (e.type ≠ .deleted)

/-- The object is in the indexer of its type. -/
def cached (s : MergeRace O B) (r : Resource) (key : String) : Bool :=
  ((s.store.cache.get r.name).bind fun ix => ix.get key).isSome

/-- What each step needs, and what it makes of the storage. -/
inductive Transition (c : Codec O B) (s : MergeRace O B) : MergeAction O → MergeRace O B → Prop where
  | notify {r : Resource} {e : WatchEvent O} {ix : Indexer O} {data : B}
      (hix : s.store.cache.get r.name = some ix) (hdata : c.marshal e.object = .ok data) :
      Transition c s (.notify r e) { s with
        store := { s.store with cache := s.store.cache.set r.name (ix.apply c e) }
        pending := Function.update s.pending r (s.pending r ++ [e]) }
  | handle {r : Resource} {e : WatchEvent O} {rest : List (WatchEvent O)}
      (hpending : s.pending r = e :: rest) :
      Transition c s (.handle r) { s with
        store := syncToStorage c s.store e.type r e.object
        pending := Function.update s.pending r rest }
  | startMerge (hphase : s.phase = .idle) :
      Transition c s .startMerge { s with phase := .scanning (MapOrder.sorted.order s.store.levelDB) [] }
  | found {name : String} {rest batch : List String} (hphase : s.phase = .scanning (name :: rest) batch)
      (hknown : Known s.store.cache name) (hdash : '-' ∈ name.toList) :
      Transition c s .check { s with phase := .scanning rest batch }
  | missing {name : String} {rest batch : List String} (hphase : s.phase = .scanning (name :: rest) batch)
      (hknown : ¬ Known s.store.cache name) (hdash : '-' ∈ name.toList) :
      Transition c s .check { s with phase := .scanning rest (batch ++ [name]) }
  | bare {name : String} {rest batch : List String} (hphase : s.phase = .scanning (name :: rest) batch)
      (hdash : '-' ∉ name.toList) : Transition c s .check { s with phase := .finished }
  | writeBatch {batch : List String} (hphase : s.phase = .scanning [] batch) :
      Transition c s .writeBatch { s with
        store := { s.store with levelDB := batch.foldl GoMap.delete s.store.levelDB }
        phase := .finished }

theorem transition_of_step (hstep : s.step c a = some s') : Transition c s a s' := by
  unfold step at hstep
  split at hstep
  · split at hstep
    · cases hstep
      exact .notify ‹_› ‹_›
    · cases hstep
  · split at hstep
    · cases hstep
    · cases hstep
      exact .handle ‹_›
  · split at hstep
    · cases hstep
      exact .startMerge ‹_›
    · cases hstep
  · split at hstep
    · rename_i name rest batch hphase
      split at hstep
      · rename_i err hsplit
        cases hstep
        exact .bare hphase (splitKeyName_eq_error_iff.mp ⟨err, hsplit⟩)
      · rename_i objType key hsplit
        have hdash : '-' ∈ name.toList := by
          by_contra hdash
          obtain ⟨err, herr⟩ := splitKeyName_eq_error_iff.mpr hdash
          simp [hsplit] at herr
        split at hstep
        · rename_i hsome
          cases hstep
          exact .found hphase ((known_iff hsplit).mpr hsome) hdash
        · rename_i hsome
          cases hstep
          exact .missing hphase (fun hknown => hsome ((known_iff hsplit).mp hknown)) hdash
    · cases hstep
  · split at hstep
    · cases hstep
      exact .writeBatch ‹_›
    · cases hstep

/-- What `syncToStorage` does while the master is reached. -/
theorem syncToStorage_online {st : EdgehubStorage O B} (honline : st.remoteEnable = true)
    {e : WatchEvent O} {data : B} (hdata : c.marshal e.object = .ok data) (r : Resource) :
    (syncToStorage c st e.type r e.object).cache = st.cache ∧
    (syncToStorage c st e.type r e.object).remoteEnable = true ∧
    ∀ name, (syncToStorage c st e.type r e.object).levelDB.get name =
      if name = formKeyName r.name (keyOf c e) then if stored e then some data else none
      else st.levelDB.get name := by
  unfold syncToStorage stored keyOf
  rw [hdata]
  cases htype : e.type with
  | deleted => simp [EdgehubStorage.delete, honline, levelDBDelete, GoMap.get_delete]
  | added => simp [EdgehubStorage.update, honline, levelDBUpdate, GoMap.get_set]
  | modified => simp [EdgehubStorage.update, honline, levelDBUpdate, GoMap.get_set]

/-- What an event makes of the cached objects. -/
theorem isSome_apply {cache : Cache O} {r : Resource} {ix : Indexer O} (hix : cache.get r.name = some ix)
    (e : WatchEvent O) (objType key : String) :
    (((cache.set r.name (ix.apply c e)).get objType).bind fun ix => ix.get key).isSome =
      if objType = r.name ∧ key = keyOf c e then stored e
      else ((cache.get objType).bind fun ix => ix.get key).isSome := by
  have happly : ((ix.apply c e).get key).isSome =
      if key = keyOf c e then stored e else (ix.get key).isSome := by
    unfold Indexer.apply Indexer.add stored keyOf
    cases e.type <;> by_cases hkey : key = c.metaNamespaceKey e.object <;>
      simp [hkey, GoMap.get_set, GoMap.get_delete]
  by_cases htype : objType = r.name
  · subst htype
    rw [GoMap.get_set_self, Option.bind_some, happly, hix, Option.bind_some]
    simp
  · rw [GoMap.get_set_of_ne _ htype, if_neg fun h => htype h.1]

/-- The state between the steps: a change that has not been handled is in the cache, and what LevelDB has
too much is still to be looked up or in the batch. -/
structure Consistent (c : Codec O B) (s : MergeRace O B) : Prop where
  online : s.store.remoteEnable = true
  leads : ∀ r, Leads (keyOf c) stored (s.pending r) (s.cached r)
  encodes : ∀ r, ∀ e ∈ s.pending r, ∃ data, c.marshal e.object = .ok data
  stale : ∀ rest batch, s.phase = .scanning rest batch → ∀ name, s.store.levelDB.get name ≠ none →
    ¬ Known s.store.cache name → ¬ s.Awaits c name → name ∈ rest ∨ name ∈ batch
  bare : ∀ rest batch, s.phase = .scanning rest batch → ∀ name ∈ rest, '-' ∉ name.toList →
    s.store.levelDB.get name ≠ none

/-- LevelDB has what is cached, up to what the handlers have still to do; and after `MergeDelete` it has
nothing else. -/
structure Copies (c : Codec O B) (s : MergeRace O B) : Prop where
  written : ∀ name, Known s.store.cache name → ¬ s.Awaits c name → s.store.levelDB.get name ≠ none
  exact : s.phase = .finished → ∀ name, s.store.levelDB.get name ≠ none → ¬ s.Awaits c name →
    Known s.store.cache name

/-- The conditions for a step: the name that is looked up has a separator, and no name of the batch is that
of a cached object with nothing on its way. -/
def NoWipe (c : Codec O B) (s : MergeRace O B) : MergeAction O → Prop
  | .check => match s.phase with
    | .scanning (name :: _) _ => '-' ∈ name.toList
    | _ => True
  | .writeBatch => match s.phase with
    | .scanning _ batch => ∀ name ∈ batch, Known s.store.cache name → s.Awaits c name
    | _ => True
  | _ => True

instance (s : MergeRace O B) : ∀ a, Decidable (s.NoWipe c a)
  | .check =>
      match hphase : s.phase with
      | .scanning (name :: _) _ => decidable_of_iff ('-' ∈ name.toList) (by simp [NoWipe, hphase])
      | .scanning [] _ => .isTrue (by simp [NoWipe, hphase])
      | .idle => .isTrue (by simp [NoWipe, hphase])
      | .finished => .isTrue (by simp [NoWipe, hphase])
  | .writeBatch =>
      match hphase : s.phase with
      | .scanning _ batch =>
          decidable_of_iff (∀ name ∈ batch, Known s.store.cache name → s.Awaits c name)
            (by simp [NoWipe, hphase])
      | .idle => .isTrue (by simp [NoWipe, hphase])
      | .finished => .isTrue (by simp [NoWipe, hphase])
  | .notify _ _ => .isTrue trivial
  | .handle _ => .isTrue trivial
  | .startMerge => .isTrue trivial

/-- An event is cached: a name that nothing waits for afterwards is as it was. -/
theorem notify_settled {r : Resource} {e : WatchEvent O} {ix : Indexer O}
    (hix : s.store.cache.get r.name = some ix)
    (hcache : s'.store.cache = s.store.cache.set r.name (ix.apply c e))
    (hpending : s'.pending = Function.update s.pending r (s.pending r ++ [e])) (hwait : ¬ s'.Awaits c name) :
    (Known s'.store.cache name ↔ Known s.store.cache name) ∧ ¬ s.Awaits c name := by
  -- the event itself waits now
  have hne : name ≠ formKeyName r.name (keyOf c e) := by
    rintro rfl
    rw [awaits_formKeyName, hpending, Function.update_self, awaited_push_iff] at hwait
    exact hwait (Or.inr rfl)
  constructor
  · refine known_congr fun objType key hname => ?_
    rw [hcache, isSome_apply hix, if_neg]
    rintro ⟨rfl, rfl⟩
    exact hne hname
  · refine fun hbefore => hwait ((awaits_congr fun r' key hname => ?_).mpr hbefore)
    rw [hpending]
    by_cases hr : r' = r
    · subst hr
      rw [Function.update_self, awaited_push_iff]
      refine or_iff_left ?_
      rintro rfl
      exact hne hname
    · rw [Function.update_of_ne hr]

/-- After the last event of a name has been handled, LevelDB has the name exactly if it is cached. -/
theorem written_iff_of_handled (h : s.Consistent c) {r : Resource} {e : WatchEvent O}
    {rest : List (WatchEvent O)} (hold : s.pending r = e :: rest)
    (hlast : ¬ Awaited (keyOf c) rest (keyOf c e)) :
    (syncToStorage c s.store e.type r e.object).levelDB.get (formKeyName r.name (keyOf c e)) ≠ none ↔
      Known s.store.cache (formKeyName r.name (keyOf c e)) := by
  obtain ⟨data, hdata⟩ := h.encodes r e (by simp [hold])
  have hcached : s.cached r (keyOf c e) = stored e := (hold ▸ h.leads r).head hlast
  rw [(syncToStorage_online h.online hdata r).2.2, if_pos rfl, known_formKeyName]
  change _ ↔ s.cached r (keyOf c e) = true
  rw [hcached]
  cases stored e <;> simp

/-- An event is handled: a name that nothing waits for afterwards is written as it is cached, or is as it
was. -/
theorem handle_settled (h : s.Consistent c) {r : Resource} {e : WatchEvent O} {rest : List (WatchEvent O)}
    (hold : s.pending r = e :: rest)
    (hstore : s'.store = syncToStorage c s.store e.type r e.object)
    (hpending : s'.pending = Function.update s.pending r rest) (hwait : ¬ s'.Awaits c name) :
    (s'.store.levelDB.get name ≠ none ↔ Known s.store.cache name) ∨
      s'.store.levelDB.get name = s.store.levelDB.get name ∧ ¬ s.Awaits c name := by
  obtain ⟨data, hdata⟩ := h.encodes r e (by simp [hold])
  obtain ⟨-, -, hdb⟩ := syncToStorage_online h.online hdata r
  rw [hstore]
  by_cases hname : name = formKeyName r.name (keyOf c e)
  · subst hname
    rw [awaits_formKeyName, hpending, Function.update_self] at hwait
    exact Or.inl (written_iff_of_handled h hold hwait)
  · refine Or.inr ⟨by rw [hdb, if_neg hname], fun hbefore => hwait ?_⟩
    refine (awaits_congr fun r' key hkey => ?_).mpr hbefore
    rw [hpending]
    by_cases hr : r' = r
    · subst hr
      rw [Function.update_self, hold, awaited_cons_iff]
      refine (or_iff_right ?_).symm
      rintro rfl
      exact hname hkey
    · rw [Function.update_of_ne hr]

theorem consistent_notify (h : s.Consistent c) {r : Resource} {e : WatchEvent O} {ix : Indexer O} {data : B}
    (hix : s.store.cache.get r.name = some ix) (hdata : c.marshal e.object = .ok data)
    (hstore : s'.store = { s.store with cache := s.store.cache.set r.name (ix.apply c e) })
    (hpending : s'.pending = Function.update s.pending r (s.pending r ++ [e])) (hphase : s'.phase = s.phase) :
    s'.Consistent c := by
  have hcache : s'.store.cache = s.store.cache.set r.name (ix.apply c e) := by rw [hstore]
  have hdb : s'.store.levelDB = s.store.levelDB := by rw [hstore]
  have hcached : ∀ r' key, s'.cached r' key =
      if r'.name = r.name ∧ key = keyOf c e then stored e else s.cached r' key := by
    intro r' key
    rw [cached, hcache, isSome_apply hix, cached]
  refine ⟨by rw [hstore, h.online], fun r' => ?_, fun r' => ?_,
    fun rest batch hscan name hget hknown hwait => ?_, ?_⟩
  · rw [hpending]
    by_cases hr : r' = r
    · subst hr
      rw [Function.update_self]
      refine (h.leads r').push ?_ fun key hkey => ?_
      · rw [hcached, if_pos ⟨rfl, rfl⟩]
      · rw [hcached, if_neg fun hc => hkey hc.2]
    · have hname : r'.name ≠ r.name := fun hn => hr (Resource.name_injective hn)
      have hsame : s'.cached r' = s.cached r' := by
        funext key
        rw [hcached, if_neg fun hc => hname hc.1]
      rw [Function.update_of_ne hr, hsame]
      exact h.leads r'
  · rw [hpending]
    by_cases hr : r' = r
    · subst hr
      simp only [Function.update_self, List.mem_append, List.mem_singleton]
      rintro e' (he' | rfl)
      · exact h.encodes r' e' he'
      · exact ⟨data, hdata⟩
    · rw [Function.update_of_ne hr]
      exact h.encodes r'
  · obtain ⟨hk, hw⟩ := notify_settled hix hcache hpending hwait
    exact h.stale rest batch (hphase ▸ hscan) name (hdb ▸ hget) (hk.not.mp hknown) hw
  · rw [hphase, hdb]
    exact h.bare

theorem consistent_handle (h : s.Consistent c) {r : Resource} {e : WatchEvent O} {rest : List (WatchEvent O)}
    (hold : s.pending r = e :: rest) (hstore : s'.store = syncToStorage c s.store e.type r e.object)
    (hpending : s'.pending = Function.update s.pending r rest) (hphase : s'.phase = s.phase) :
    s'.Consistent c := by
  obtain ⟨data, hdata⟩ := h.encodes r e (by simp [hold])
  obtain ⟨hcache, honline, hdb⟩ := syncToStorage_online h.online hdata r
  rw [← hstore] at hcache honline hdb
  refine ⟨honline, fun r' => ?_, fun r' => ?_, fun rest' batch hscan name hget hknown hwait => ?_,
    fun rest' batch hscan name hmem hdash => ?_⟩
  · have hsame : s'.cached r' = s.cached r' := by
      funext key
      rw [cached, cached, hcache]
    rw [hpending, hsame]
    by_cases hr : r' = r
    · subst hr
      rw [Function.update_self]
      exact (hold ▸ h.leads r').pop
    · rw [Function.update_of_ne hr]
      exact h.leads r'
  · rw [hpending]
    by_cases hr : r' = r
    · subst hr
      rw [Function.update_self]
      exact fun e' he' => h.encodes r' e' (by simp [hold, he'])
    · rw [Function.update_of_ne hr]
      exact h.encodes r'
  · rw [hcache] at hknown
    rcases handle_settled h hold hstore hpending hwait with hdone | ⟨hsame, hw⟩
    · exact absurd (hdone.mp hget) hknown
    · exact h.stale rest' batch (hphase ▸ hscan) name (hsame ▸ hget) hknown hw
  · -- a handler writes no name without a separator
    have hname : name ≠ formKeyName r.name (keyOf c e) := by
      rintro rfl
      simp [formKeyName] at hdash
    rw [hdb, if_neg hname]
    exact h.bare rest' batch (hphase ▸ hscan) name hmem hdash

theorem Consistent.of_finished (h : s.Consistent c) (db : GoMap String B) :
    Consistent c { s with store := { s.store with levelDB := db }, phase := .finished } := by
  refine ⟨h.online, h.leads, h.encodes, fun rest batch hphase => ?_, fun rest batch hphase => ?_⟩
  · cases hphase
  · cases hphase

theorem consistent_step (h : s.Consistent c) (hstep : s.step c a = some s') : s'.Consistent c := by
  cases transition_of_step hstep with
  | notify hix hdata => exact consistent_notify h hix hdata rfl rfl rfl
  | handle hold => exact consistent_handle h hold rfl rfl rfl
  | startMerge _ =>
      refine ⟨h.online, h.leads, h.encodes, fun rest batch hphase name hdb _ _ => ?_,
        fun rest batch hphase name hmem _ => ?_⟩
      · obtain ⟨rfl, rfl⟩ := MergePhase.scanning.inj hphase
        exact Or.inl (mem_names.mpr hdb)
      · obtain ⟨rfl, rfl⟩ := MergePhase.scanning.inj hphase
        exact mem_names.mp hmem
  | @found name₀ rest₀ batch₀ hphase₀ hknown₀ _ =>
      refine ⟨h.online, h.leads, h.encodes, fun rest batch hphase name hdb hknown hwait => ?_,
        fun rest batch hphase name hmem hdash => ?_⟩
      · obtain ⟨rfl, rfl⟩ := MergePhase.scanning.inj hphase
        rcases h.stale _ _ hphase₀ name hdb hknown hwait with hmem | hmem
        · rcases List.mem_cons.mp hmem with rfl | hmem
          · -- what is cached when it is looked up is not stale
            exact absurd hknown₀ hknown
          · exact Or.inl hmem
        · exact Or.inr hmem
      · obtain ⟨rfl, rfl⟩ := MergePhase.scanning.inj hphase
        exact h.bare _ _ hphase₀ name (List.mem_cons_of_mem _ hmem) hdash
  | @missing name₀ rest₀ batch₀ hphase₀ _ _ =>
      refine ⟨h.online, h.leads, h.encodes, fun rest batch hphase name hdb hknown hwait => ?_,
        fun rest batch hphase name hmem hdash => ?_⟩
      · obtain ⟨rfl, rfl⟩ := MergePhase.scanning.inj hphase
        rw [List.mem_append, List.mem_singleton]
        rcases h.stale _ _ hphase₀ name hdb hknown hwait with hmem | hmem
        · rcases List.mem_cons.mp hmem with rfl | hmem
          · -- what is not goes into the batch
            exact Or.inr (Or.inr rfl)
          · exact Or.inl hmem
        · exact Or.inr (Or.inl hmem)
      · obtain ⟨rfl, rfl⟩ := MergePhase.scanning.inj hphase
        exact h.bare _ _ hphase₀ name (List.mem_cons_of_mem _ hmem) hdash
  | bare _ _ => exact h.of_finished s.store.levelDB
  | @writeBatch batch _ => exact h.of_finished (batch.foldl GoMap.delete s.store.levelDB)

/-- A bare name is neither cached nor on its way. -/
theorem not_known_of_bare (cache : Cache O) (hdash : '-' ∉ name.toList) : ¬ Known cache name := by
  obtain ⟨err, herr⟩ := splitKeyName_eq_error_iff.mpr hdash
  rintro ⟨objType, key, hsplit, -⟩
  simp [herr] at hsplit

theorem not_awaits_of_bare (hdash : '-' ∉ name.toList) : ¬ s.Awaits c name := by
  obtain ⟨err, herr⟩ := splitKeyName_eq_error_iff.mpr hdash
  simp [Awaits, herr]

/-- The batch leaves what is cached, if no name of it is that of a cached object with nothing on its way. -/
theorem copies_writeBatch_iff (h : s.Consistent c) (hF : s.Copies c) {batch : List String}
    (hscan : s.phase = .scanning [] batch) (hcache : s'.store.cache = s.store.cache)
    (hdb : s'.store.levelDB = batch.foldl GoMap.delete s.store.levelDB) (hpending : s'.pending = s.pending) :
    s'.Copies c ↔ ∀ name ∈ batch, Known s.store.cache name → s.Awaits c name := by
  have hget : ∀ name, s'.store.levelDB.get name =
      if name ∈ batch then none else s.store.levelDB.get name := by
    intro name
    rw [hdb, GoMap.get_foldl_delete]
  have hwaits : ∀ name, s'.Awaits c name ↔ s.Awaits c name := by
    intro name
    rw [Awaits, hpending, Awaits]
  constructor
  · intro hend name hmem hknown
    by_contra hwait
    refine hend.written name (hcache ▸ hknown) ((hwaits name).not.mpr hwait) ?_
    rw [hget, if_pos hmem]
  · intro hall
    refine ⟨fun name hknown hwait => ?_, fun _ name hname hwait => ?_⟩
    · rw [hcache] at hknown
      rw [hwaits] at hwait
      rw [hget, if_neg fun hmem => hwait (hall name hmem hknown)]
      exact hF.written name hknown hwait
    · -- what is neither cached nor in the batch was not there
      rw [hcache]
      by_contra hknown
      rw [hget] at hname
      have hmem : name ∉ batch := fun hmem => hname (if_pos hmem)
      rw [if_neg hmem] at hname
      rcases h.stale _ _ hscan name hname hknown ((hwaits name).not.mp hwait) with hrest | hbatch
      · simp at hrest
      · exact hmem hbatch

theorem copies_step_iff (h : s.Consistent c) (hF : s.Copies c) (hstep : s.step c a = some s') :
    s'.Copies c ↔ s.NoWipe c a := by
  cases transition_of_step hstep with
  | notify hix _ =>
      refine iff_of_true ⟨fun name hknown hwait => ?_, fun hphase name hdb hwait => ?_⟩ trivial
      · obtain ⟨hk, hw⟩ := notify_settled hix rfl rfl hwait
        exact hF.written name (hk.mp hknown) hw
      · obtain ⟨hk, hw⟩ := notify_settled hix rfl rfl hwait
        exact hk.mpr (hF.exact hphase name hdb hw)
  | @handle r e rest hold =>
      obtain ⟨data, hdata⟩ := h.encodes r e (by simp [hold])
      have hcache := (syncToStorage_online h.online hdata r).1
      refine iff_of_true ⟨fun name hknown hwait => ?_, fun hphase name hget hwait => ?_⟩ trivial
      · rw [hcache] at hknown
        rcases handle_settled h hold rfl rfl hwait with hdone | ⟨hsame, hw⟩
        · exact hdone.mpr hknown
        · exact hsame ▸ hF.written name hknown hw
      · rw [hcache]
        rcases handle_settled h hold rfl rfl hwait with hdone | ⟨hsame, hw⟩
        · exact hdone.mp hget
        · exact hF.exact hphase name (hsame ▸ hget) hw
  | startMerge _ => exact iff_of_true ⟨hF.written, fun hphase => by cases hphase⟩ trivial
  | found hphase _ hdash | missing hphase _ hdash =>
      refine iff_of_true ⟨hF.written, fun hphase => by cases hphase⟩ ?_
      rw [NoWipe, hphase]
      exact hdash
  | @bare name rest batch hphase hdash =>
      -- the name that stopped `MergeDelete` stays
      refine iff_of_false (fun hend => ?_) ?_
      · refine not_known_of_bare s.store.cache hdash (hend.exact rfl name ?_ (not_awaits_of_bare hdash))
        exact h.bare _ _ hphase name (by simp) hdash
      · rw [NoWipe, hphase]
        exact hdash
  | writeBatch hphase =>
      rw [NoWipe, hphase]
      exact copies_writeBatch_iff h hF hphase rfl rfl rfl

/-- Before `MergeDelete`: what is cached has been written, or the event that will write it is waiting. -/
structure Primed (c : Codec O B) (s : MergeRace O B) : Prop where
  idle : s.phase = .idle
  online : s.store.remoteEnable = true
  leads : ∀ r, Leads (keyOf c) stored (s.pending r) (s.cached r)
  encodes : ∀ r, ∀ e ∈ s.pending r, ∃ data, c.marshal e.object = .ok data
  written : ∀ name, Known s.store.cache name → ¬ s.Awaits c name → s.store.levelDB.get name ≠ none

theorem Primed.consistent (h : s.Primed c) : s.Consistent c := by
  refine ⟨h.online, h.leads, h.encodes, fun rest batch hphase => ?_, fun rest batch hphase => ?_⟩
  · simp [h.idle] at hphase
  · simp [h.idle] at hphase

theorem not_awaits_of_handled (hdone : ∀ r, s.pending r = []) : ¬ s.Awaits c name := by
  unfold Awaits
  split
  · exact id
  · split
    · exact id
    · rw [hdone]
      exact not_awaited_nil

/-- For every interleaving of a `MergeDelete` with events of the informers and their handlers, from any
state in which every cached object has been written or will be: LevelDB keeps what is cached, and has
nothing else once `MergeDelete` is through, up to the events that are not handled, exactly if every step
meets its condition.  In particular, when everything is done, the names in LevelDB are those of the cached
objects. -/
theorem merge_mirrors_iff (c : Codec O B) {s s' : MergeRace O B} {as : List (MergeAction O)}
    (hprimed : s.Primed c) (hrun : runSteps (step c) s as = some s') :
    ((∀ past t, past <+: as → runSteps (step c) s past = some t → t.Copies c) ↔
      StepsMeet (step c) (NoWipe c) s as) ∧
    (StepsMeet (step c) (NoWipe c) s as → s'.phase = .finished → (∀ r, s'.pending r = []) →
      ∀ name, s'.store.levelDB.get name ≠ none ↔ Known s'.store.cache name) := by
  have hstart : s.Copies c := ⟨hprimed.written, fun hphase => by simp [hprimed.idle] at hphase⟩
  have hiff := forall_prefix_iff_stepsMeet (I := Consistent c) (F := Copies c)
    (fun hI _ hstep => consistent_step hI hstep) (fun hI hF hstep => copies_step_iff hI hF hstep)
    hprimed.consistent hstart hrun
  refine ⟨hiff, fun hmeet hphase hdone name => ?_⟩
  have hend := hiff.mpr hmeet as s' (List.prefix_refl _) hrun
  have hwait : ¬ s'.Awaits c name := not_awaits_of_handled hdone
  exact ⟨fun hdb => hend.exact hphase name hdb hwait, fun hknown => hend.written name hknown hwait⟩

/-- LevelDB still has a pod that is gone. -/
def stalePod : MergeRace (String × String) (String × String) :=
  ⟨⟨GoMap.ofList [("pods", ∅)], GoMap.ofList [("pods-default/web", ("default/web", "old"))], true⟩,
    fun _ => [], .idle⟩

theorem primed_stalePod : Primed plainCodec stalePod := by
  refine ⟨rfl, rfl, fun _ => leads_nil, fun _ _ he => absurd he List.not_mem_nil, fun name hknown _ => ?_⟩
  obtain ⟨objType, key, -, hsome⟩ := hknown
  -- the only indexer is empty
  simp only [stalePod, GoMap.ofList, List.foldl_cons, List.foldl_nil, GoMap.get_set, GoMap.get_empty] at hsome
  split at hsome
  · simp at hsome
  · simp at hsome

/-- The pod comes back after it has been looked up and before the batch is written. -/
def podComesBack : List (MergeAction (String × String)) :=
  [.startMerge, .check, .notify .pod ⟨.added, ("default/web", "new")⟩, .handle .pod, .writeBatch]

/-- The pod is cached and its event has been handled, and it is not in LevelDB. -/
theorem readded_object_wiped :
    stalePod.Primed plainCodec ∧ ∃ s, runSteps (step plainCodec) stalePod podComesBack = some s ∧
      s.phase = .finished ∧ (∀ r, s.pending r = []) ∧
      Known s.store.cache "pods-default/web" ∧ s.store.levelDB.get "pods-default/web" = none := by
  refine ⟨primed_stalePod, ?_⟩
  obtain ⟨s, hs, hphase, hdone, hrest⟩ : ∃ s, runSteps (step plainCodec) stalePod podComesBack = some s ∧
      s.phase = .finished ∧ (∀ r ∈ Resource.all, s.pending r = []) ∧
      Known s.store.cache "pods-default/web" ∧ s.store.levelDB.get "pods-default/web" = none :=
    exists_run (by decide)
  exact ⟨s, hs, hphase, fun r => hdone r r.mem_all, hrest⟩

/-- The pod comes back before it is looked up. -/
theorem merge_mirrors_podStays :
    ∃ s, runSteps (step plainCodec) stalePod [.startMerge, .notify .pod ⟨.added, ("default/web", "new")⟩,
        .check, .writeBatch, .handle .pod] = some s ∧
      ∀ name, s.store.levelDB.get name ≠ none ↔ Known s.store.cache name := by
  obtain ⟨s, hs, hphase, hdone⟩ : ∃ s, runSteps (step plainCodec) stalePod [.startMerge,
      .notify .pod ⟨.added, ("default/web", "new")⟩, .check, .writeBatch, .handle .pod] = some s ∧
      s.phase = .finished ∧ ∀ r ∈ Resource.all, s.pending r = [] := exists_run (by decide)
  exact ⟨s, hs, (merge_mirrors_iff plainCodec primed_stalePod hs).2 (by decide) hphase
    fun r => hdone r r.mem_all⟩

end MergeRace

end OteStack.EdgeHub
