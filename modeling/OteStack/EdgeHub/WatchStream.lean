/-
# OteStack.EdgeHub.WatchStream — what the client of a chunked watch makes of its events.

`doChunkWatch` of `pkg/server/handler`: it sends an event for each stored object that the watch is about,
then registers its channel, and from then on forwards the events that pass the filter.  A change of the
store is in the cache first and is delivered later, in order, to the watches that are registered by then.

The client replays what it receives.  For an object with no change on its way it has what the store has, if
that passes the filter, exactly under three conditions (`stream_gapless_iff`): the listing and the live
events use the same filter for the stored objects, no change is delivered between the listing and the
registration unless the listing has shown its outcome, and no event that the filter drops is about an object
that the client has.  A watch of all objects of a type has one condition left: nothing is delivered between
the listing and the registration (`unfiltered_watch_follows`).
-/
import OteStack.EdgeHub.Subscriber
import OteStack.EdgeHub.WatchFilter
import OteStack.Lib.ChangeQueue

namespace OteStack.EdgeHub

open OteStack.Lib

variable {O : Type}

/-- `cache.MetaNamespaceKeyFunc`. -/
def Fields.metaNamespaceKey (f : Fields O) (obj : O) : String :=
  if f.namespace obj = "" then f.name obj else f.namespace obj ++ "/" ++ f.name obj

/-- What a change makes of its object. -/
def WatchEvent.result (e : WatchEvent O) : Option O :=
  match e.type with
  | .deleted => none
  | _ => some e.object

/-- The key of the object of an event. -/
def WatchEvent.key (f : Fields O) (e : WatchEvent O) : String := f.metaNamespaceKey e.object

/-- What a client makes of an event. -/
def replayStep (f : Fields O) (m : GoMap String O) (e : WatchEvent O) : GoMap String O :=
  match e.type with
  | .deleted => m.delete (e.key f)
  | _ => m.set (e.key f) e.object

/-- What a client makes of the events it has received. -/
def replay (f : Fields O) (events : List (WatchEvent O)) : GoMap String O := events.foldl (replayStep f) ∅

/-- Where a chunked watch is. -/
inductive StreamPhase where
  | connected
  | listed
  | registered
  deriving DecidableEq, Repr

/-- The cache of one type, its changes that have not been delivered, and a chunked watch on it. -/
structure WatchStream (O : Type) where
  cache : Indexer O
  pending : List (WatchEvent O)
  phase : StreamPhase
  received : List (WatchEvent O)

/-- What happens: the informer stores or removes an object, the next change is delivered, or the watch goes
on. -/
inductive StreamAction (O : Type) where
  | set (obj : O)
  | delete (obj : O)
  | deliver
  | list (it : MapOrder String)
  | register

namespace WatchStream

/-- The store, as far as the watch reads it. -/
def store (objType : Resource) (s : WatchStream O) : EdgehubStorage O Unit :=
  ⟨GoMap.ofList [(objType.name, s.cache)], ∅, true⟩

variable (f : Fields O) (objType : Resource) (p : WatchParams)

/-- A store with the given objects, before the watch begins. -/
def start (objs : List O) : WatchStream O :=
  ⟨GoMap.ofList (objs.map fun obj => (f.metaNamespaceKey obj, obj)), [], .connected, []⟩

/-- One step.  The object of a deletion is the last one that the informer knows, not always the last one
there was. -/
def step (s : WatchStream O) : StreamAction O → Option (WatchStream O)
  | .set obj =>
      let type := if (s.cache.get (f.metaNamespaceKey obj)).isSome then EventType.modified else .added
      some { s with
        cache := s.cache.set (f.metaNamespaceKey obj) obj
        pending := s.pending ++ [⟨type, obj⟩] }
  | .delete obj =>
      if (s.cache.get (f.metaNamespaceKey obj)).isSome then
        some { s with
          cache := s.cache.delete (f.metaNamespaceKey obj)
          pending := s.pending ++ [⟨.deleted, obj⟩] }
      else none
  | .deliver =>
      match s.pending with
      | [] => none
      | e :: rest =>
          let forwarded := if s.phase = .registered ∧ checkIsNeedToWatch f objType p e.object then [e] else []
          some { s with pending := rest, received := s.received ++ forwarded }
  | .list it =>
      match s.phase with
      | .connected =>
          some { s with phase := .listed, received := getInitWatchEvent f it (s.store objType) objType p }
      | _ => none
  | .register =>
      if s.phase = .listed ∧ subscribable.contains objType then some { s with phase := .registered }
      else none

/-- What the client has of a key is what the store has, if that passes the filter. -/
def Shows (s : WatchStream O) (k : String) : Prop :=
  (replay f s.received).get k = (s.cache.get k).filter (checkIsNeedToWatch f objType p)

/-- After the listing, the client is right about every object whose changes have been delivered. -/
def Gapless (s : WatchStream O) : Prop :=
  s.phase ≠ .connected → ∀ k, ¬ Awaited (WatchEvent.key f) s.pending k → s.Shows f objType p k

/-- The conditions under which a step leaves no gap. -/
def NoLoss (s : WatchStream O) : StreamAction O → Prop
  | .list it => ∀ k ∈ s.cache.keys, ¬ Awaited (WatchEvent.key f) s.pending k → ∀ obj ∈ s.cache.get k,
      (⟨.added, obj⟩ ∈ getInitWatchEvent f it (s.store objType) objType p ↔
        checkIsNeedToWatch f objType p obj = true)
  | .deliver => ∀ e ∈ s.pending.head?, ¬ Awaited (WatchEvent.key f) s.pending.tail (e.key f) →
      (s.phase = .listed → s.Shows f objType p (e.key f)) ∧
      (s.phase = .registered → checkIsNeedToWatch f objType p e.object = true ∨
        (replay f s.received).get (e.key f) = none)
  | _ => True

instance (s : WatchStream O) (k : String) [DecidableEq O] : Decidable (s.Shows f objType p k) :=
  inferInstanceAs (Decidable (_ = _))

instance [DecidableEq O] (s : WatchStream O) : ∀ a, Decidable (s.NoLoss f objType p a)
  | .list it => inferInstanceAs (Decidable (∀ k ∈ s.cache.keys, ¬ Awaited (WatchEvent.key f) s.pending k →
      ∀ obj ∈ s.cache.get k,
        (⟨.added, obj⟩ ∈ getInitWatchEvent f it (s.store objType) objType p ↔
          checkIsNeedToWatch f objType p obj = true)))
  | .deliver => inferInstanceAs (Decidable (∀ e ∈ s.pending.head?,
      ¬ Awaited (WatchEvent.key f) s.pending.tail (e.key f) → (_ → _) ∧ (_ → _ ∨ _)))
  | .set _ => .isTrue trivial
  | .delete _ => .isTrue trivial
  | .register => .isTrue trivial

section Steps

variable {f objType p} {s s' : WatchStream O} {a : StreamAction O} {k : String}

theorem replay_concat (events : List (WatchEvent O)) (e : WatchEvent O) :
    replay f (events ++ [e]) = replayStep f (replay f events) e := by
  rw [replay, List.foldl_append, List.foldl_cons, List.foldl_nil, replay]

theorem get_replayStep (m : GoMap String O) (e : WatchEvent O) (k : String) :
    (replayStep f m e).get k = if k = e.key f then e.result else m.get k := by
  unfold replayStep WatchEvent.result
  split
  · exact GoMap.get_delete _ _ _
  · exact GoMap.get_set _ _ _ _

/-- An event that passes leaves what the store is to show, and one that does not has nothing to show. -/
theorem filter_result (e : WatchEvent O) (pass : O → Bool) :
    e.result.filter pass = if pass e.object then e.result else none := by
  unfold WatchEvent.result
  split
  · simp
  · rw [Option.filter_some]

/-- Every listing is a filter of the stored objects. -/
theorem exists_keep (f : Fields O) (objType : Resource) (p : WatchParams) (it : MapOrder String)
    (st : EdgehubStorage O Unit) :
    ∃ keep, getInitWatchEvent f it st objType p = initWatchEvents it st objType keep := by
  have hnone : ∀ objType, initWatchEvents it st objType (fun _ => false) = [] := by
    simp [initWatchEvents]
  cases objType with
  | endpoint =>
      rw [getInitWatchEvent, endpointInitWatchEvent]
      split
      · exact ⟨_, (hnone _).symm⟩
      · exact ⟨_, rfl⟩
  | event => exact ⟨_, (hnone _).symm⟩
  | tokenReview => exact ⟨_, (hnone _).symm⟩
  | subjectAccessReview => exact ⟨_, (hnone _).symm⟩
  | _ => exact ⟨_, rfl⟩

/-- The objects are stored under their keys, and a change that has not been delivered is in the cache. -/
structure Applied (f : Fields O) (s : WatchStream O) : Prop where
  keyed : ∀ k obj, s.cache.get k = some obj → f.metaNamespaceKey obj = k
  leads : Leads (WatchEvent.key f) WatchEvent.result s.pending s.cache.get

theorem applied_start (objs : List O) : Applied f (start f objs) := by
  refine ⟨fun k obj hk => ?_, leads_nil⟩
  have hmem := GoMap.mem_of_get_ofList hk
  obtain ⟨obj', -, heq⟩ := List.mem_map.mp hmem
  obtain ⟨rfl, rfl⟩ := Prod.mk.inj heq
  rfl

/-- What each step needs, and what it makes of the stream; storing and removing an object are alike. -/
inductive Transition (f : Fields O) (objType : Resource) (p : WatchParams) (s : WatchStream O) :
    StreamAction O → WatchStream O → Prop where
  | change {a : StreamAction O} {cache : Indexer O} {e : WatchEvent O}
      (ha : a = .set e.object ∨ a = .delete e.object)
      (hcache : ∀ k, cache.get k = if k = e.key f then e.result else s.cache.get k) :
      Transition f objType p s a { s with cache := cache, pending := s.pending ++ [e] }
  | deliver {e : WatchEvent O} {rest : List (WatchEvent O)} (hpending : s.pending = e :: rest) :
      Transition f objType p s .deliver { s with
        pending := rest
        received := s.received ++
          if s.phase = .registered ∧ checkIsNeedToWatch f objType p e.object then [e] else [] }
  | list {it : MapOrder String} (hphase : s.phase = .connected) :
      Transition f objType p s (.list it)
        { s with phase := .listed, received := getInitWatchEvent f it (s.store objType) objType p }
  | register (hphase : s.phase = .listed) :
      Transition f objType p s .register { s with phase := .registered }

theorem transition_of_step (hstep : s.step f objType p a = some s') : Transition f objType p s a s' := by
  unfold step at hstep
  split at hstep
  · rename_i obj
    obtain rfl := Option.some.inj hstep
    refine .change (Or.inl rfl) fun k => ?_
    rw [GoMap.get_set, WatchEvent.key]
    congr 1
    unfold WatchEvent.result
    split
    · rename_i hdel
      split at hdel <;> cases hdel
    · rfl
  · rename_i obj
    obtain ⟨-, hs'⟩ := Option.ite_none_right_eq_some.mp hstep
    obtain rfl := Option.some.inj hs'
    exact .change (Or.inr rfl) fun k => GoMap.get_delete _ _ _
  · split at hstep
    · cases hstep
    · rename_i e rest hpending
      obtain rfl := Option.some.inj hstep
      exact .deliver hpending
  · split at hstep
    · rename_i hphase
      obtain rfl := Option.some.inj hstep
      exact .list hphase
    · cases hstep
  · obtain ⟨⟨hphase, -⟩, hs'⟩ := Option.ite_none_right_eq_some.mp hstep
    obtain rfl := Option.some.inj hs'
    exact .register hphase

theorem applied_step (h : Applied f s) (hstep : s.step f objType p a = some s') : Applied f s' := by
  cases transition_of_step hstep with
  | @change _ cache e _ hcache =>
      refine ⟨fun k obj hk => ?_, h.leads.push ?_ fun k hk => ?_⟩
      · change cache.get k = some obj at hk
        rw [hcache] at hk
        split at hk
        · rename_i hkey
          unfold WatchEvent.result at hk
          split at hk
          · cases hk
          · obtain rfl := Option.some.inj hk
            exact hkey.symm
        · exact h.keyed k obj hk
      · rw [hcache, if_pos rfl]
      · rw [hcache, if_neg hk]
  | deliver hpending => exact ⟨h.keyed, (hpending ▸ h.leads).pop⟩
  | list _ => exact ⟨h.keyed, h.leads⟩
  | register _ => exact ⟨h.keyed, h.leads⟩

/-- What the client has after a listing. -/
theorem get_replay_initWatchEvents (h : Applied f s) (it : MapOrder String) (keep : O → Bool) (k : String) :
    (replay f (initWatchEvents it (s.store objType) objType keep)).get k = (s.cache.get k).filter keep := by
  have hstore : (s.store objType).cache.get objType.name = some s.cache := by
    simp [store, GoMap.ofList]
  rw [initWatchEvents, EdgehubStorage.list, hstore, replay, List.foldl_map, List.foldl_filter,
    List.foldl_filterMap]
  -- one round for each key of the cache
  have hround : ∀ (m : GoMap String O) k obj, s.cache.get k = some obj → ∀ k',
      (if keep obj then replayStep f m ⟨.added, obj⟩ else m).get k' =
        if k' = k ∧ keep obj then some obj else m.get k' := by
    intro m k obj hobj k'
    by_cases hk : keep obj
    · simp [hk, get_replayStep, WatchEvent.key, h.keyed k obj hobj, WatchEvent.result]
    · simp [hk]
  refine (it.obs_range s.cache GoMap.get _ (fun k v => ((s.cache.get k).filter keep).or v) ?_ ?_ ∅ k).trans ?_
  · intro k hk m
    obtain ⟨obj, hobj⟩ := Option.ne_none_iff_exists'.mp hk
    simp only [hobj, hround m k obj hobj]
    by_cases hkeep : keep obj <;> simp [hkeep, Option.filter]
  · intro k hk m k' hne
    obtain ⟨obj, hobj⟩ := Option.ne_none_iff_exists'.mp hk
    simp only [hobj, hround m k obj hobj, hne, false_and, if_false]
  · split
    · rename_i hnone
      simp [hnone]
    · simp

/-- The listing shows what it should exactly if the two filters agree on what is stored. -/
theorem shows_list_iff (h : Applied f s) (it : MapOrder String) (k : String) :
    (replay f (getInitWatchEvent f it (s.store objType) objType p)).get k =
        (s.cache.get k).filter (checkIsNeedToWatch f objType p) ↔
      ∀ obj ∈ s.cache.get k, (⟨.added, obj⟩ ∈ getInitWatchEvent f it (s.store objType) objType p ↔
        checkIsNeedToWatch f objType p obj = true) := by
  obtain ⟨keep, hkeep⟩ := exists_keep f objType p it (s.store objType)
  rw [hkeep, get_replay_initWatchEvents h]
  cases hk : s.cache.get k with
  | none => simp
  | some obj =>
      have hobj : obj ∈ (s.store objType).list it objType.name := by
        simp only [EdgehubStorage.list, store, GoMap.ofList, List.foldl_cons, List.foldl_nil,
          GoMap.get_set_self, List.mem_filterMap, it.mem_order]
        exact ⟨k, GoMap.mem_keys_of_get hk, hk⟩
      simp only [Option.mem_some_iff, forall_eq', mem_initWatchEvents hobj, Option.filter_some]
      cases keep obj <;> cases checkIsNeedToWatch f objType p obj <;> simp

/-- What the client has after a delivery. -/
theorem get_replay_deliver (e : WatchEvent O) (forward : Prop) [Decidable forward] (k : String) :
    (replay f (s.received ++ if forward then [e] else [])).get k =
      if forward ∧ k = e.key f then e.result else (replay f s.received).get k := by
  by_cases hforward : forward
  · rw [if_pos hforward, replay_concat, get_replayStep]
    simp [hforward]
  · simp [hforward]

/-- The client is right about an object after its last change has been delivered exactly if the change is
forwarded or need not be. -/
theorem shows_deliver_iff {e : WatchEvent O} (hcache : s.cache.get (e.key f) = e.result)
    (hphase : s.phase ≠ .connected) :
    (replay f (s.received ++ if s.phase = .registered ∧ checkIsNeedToWatch f objType p e.object then [e]
        else [])).get (e.key f) = (s.cache.get (e.key f)).filter (checkIsNeedToWatch f objType p) ↔
      (s.phase = .listed → s.Shows f objType p (e.key f)) ∧
      (s.phase = .registered → checkIsNeedToWatch f objType p e.object = true ∨
        (replay f s.received).get (e.key f) = none) := by
  rw [get_replay_deliver, Shows, hcache, filter_result]
  cases hs : s.phase with
  | connected => exact absurd hs hphase
  | listed => simp
  | registered => by_cases hpass : checkIsNeedToWatch f objType p e.object <;> simp [hpass]

theorem gapless_step_iff (h : Applied f s) (hF : s.Gapless f objType p)
    (hstep : s.step f objType p a = some s') : s'.Gapless f objType p ↔ s.NoLoss f objType p a := by
  cases transition_of_step hstep with
  | @change _ cache e ha hcache =>
      -- the object that has changed waits for its delivery
      refine iff_of_true (fun hphase k hk => ?_) (by rcases ha with rfl | rfl <;> trivial)
      rw [awaited_push_iff, not_or] at hk
      have hsame : cache.get k = s.cache.get k := by rw [hcache, if_neg (Ne.symm hk.2)]
      have hshows := hF hphase k hk.1
      rw [Shows, ← hsame] at hshows
      exact hshows
  | @deliver e rest hpending =>
      have hhead : s.NoLoss f objType p .deliver ↔ (¬ Awaited (WatchEvent.key f) rest (e.key f) →
          (s.phase = .listed → s.Shows f objType p (e.key f)) ∧
          (s.phase = .registered → checkIsNeedToWatch f objType p e.object = true ∨
            (replay f s.received).get (e.key f) = none)) := by
        simp [NoLoss, hpending]
      rw [hhead]
      -- only the object of the event can go wrong, and only with its last change
      constructor
      · intro hall hlast
        by_cases hphase : s.phase = .connected
        · simp [hphase]
        · refine (shows_deliver_iff ((hpending ▸ h.leads).head hlast) hphase).mp ?_
          exact hall hphase (e.key f) hlast
      · intro hone hphase k hk
        by_cases hkey : k = e.key f
        · subst hkey
          exact (shows_deliver_iff (s := s) ((hpending ▸ h.leads).head hk) hphase).mpr (hone hk)
        · have hbefore := hF hphase k (by
            rw [hpending, awaited_cons_iff, not_or]
            exact ⟨Ne.symm hkey, hk⟩)
          rw [Shows, get_replay_deliver, if_neg fun hc => hkey hc.2]
          exact hbefore
  | @list it hphase =>
      simp only [Gapless, Shows, NoLoss, ne_eq, reduceCtorEq, not_false_eq_true, true_imp_iff,
        shows_list_iff h]
      constructor
      · exact fun hall k _ hk => hall k hk
      · exact fun hall k hk obj hobj => hall k (GoMap.mem_keys_of_get hobj) hk obj hobj
  | register hphase =>
      refine iff_of_true (fun _ k hk => hF ?_ k hk) trivial
      rw [hphase]
      simp

end Steps

/-- For every type, filter and initial store, and for every interleaving of the changes with the steps of
the watch: once it has listed, the client is right about every object whose changes have been delivered,
throughout, exactly if no step loses anything.  In particular, when all changes have been delivered, what
the client makes of its events is what passes the filter. -/
theorem stream_gapless_iff (f : Fields O) (objType : Resource) (p : WatchParams) (objs : List O)
    {as : List (StreamAction O)} {s : WatchStream O}
    (hrun : runSteps (step f objType p) (start f objs) as = some s) :
    ((∀ past t, past <+: as → runSteps (step f objType p) (start f objs) past = some t →
        t.Gapless f objType p) ↔
      StepsMeet (step f objType p) (NoLoss f objType p) (start f objs) as) ∧
    (StepsMeet (step f objType p) (NoLoss f objType p) (start f objs) as → s.phase = .registered →
      s.pending = [] → ∀ k, (replay f s.received).get k =
        (s.cache.get k).filter (checkIsNeedToWatch f objType p)) := by
  have hiff := forall_prefix_iff_stepsMeet (I := Applied f) (F := Gapless f objType p)
    (fun hI _ hstep => applied_step hI hstep) (fun hI hF hstep => gapless_step_iff hI hF hstep)
    (applied_start objs) (fun hphase => absurd rfl hphase) hrun
  refine ⟨hiff, fun hmeet hphase hpending k => ?_⟩
  refine hiff.mpr hmeet as s (List.prefix_refl _) hrun (by simp [hphase]) k ?_
  rw [hpending]
  exact not_awaited_nil

/-- A pod of the node `edge-1`. -/
def webPod : String × String × String := ("default", "web", "edge-1")

/-- A pod that is created and delivered between the listing and the registration is lost. -/
theorem created_before_registration_lost :
    ∃ s, runSteps (step plainFields .pod ⟨"", "", ""⟩) (start plainFields [])
        [.list .sorted, .set webPod, .deliver, .register] = some s ∧
      s.phase = .registered ∧ s.pending = [] ∧ s.received = [] ∧
      s.cache.get "default/web" = some webPod ∧
      checkIsNeedToWatch plainFields .pod ⟨"", "", ""⟩ webPod = true :=
  exists_run (by decide)

/-- The pod is created before the listing and deleted after the registration. -/
theorem stream_gapless_around :
    ∃ s, runSteps (step plainFields .pod ⟨"", "", ""⟩) (start plainFields [])
        [.set webPod, .list .sorted, .deliver, .register, .delete webPod, .deliver] = some s ∧
      ∀ k, (replay plainFields s.received).get k =
        (s.cache.get k).filter (checkIsNeedToWatch plainFields .pod ⟨"", "", ""⟩) := by
  obtain ⟨s, hs, hphase, hpending⟩ : ∃ s, runSteps (step plainFields .pod ⟨"", "", ""⟩)
      (start plainFields []) [.set webPod, .list .sorted, .deliver, .register, .delete webPod, .deliver] =
        some s ∧ s.phase = .registered ∧ s.pending = [] := exists_run (by decide)
  exact ⟨s, hs, (stream_gapless_iff plainFields .pod ⟨"", "", ""⟩ [] hs).2 (by decide) hphase hpending⟩

/-! ## A watch of everything -/

/-- No namespace, name or selector is given. -/
def everything : WatchParams := ⟨"", "", ""⟩

/-- No change is delivered between the listing and the registration. -/
def NothingBetween (s : WatchStream O) : StreamAction O → Prop
  | .deliver => s.phase ≠ .listed
  | _ => True

instance (s : WatchStream O) : ∀ a, Decidable (s.NothingBetween a)
  | .deliver => inferInstanceAs (Decidable (s.phase ≠ .listed))
  | .set _ => .isTrue trivial
  | .delete _ => .isTrue trivial
  | .list _ => .isTrue trivial
  | .register => .isTrue trivial

section Everything

variable {f objType} {s : WatchStream O}

theorem checkIsNeedToWatch_everything : checkIsNeedToWatch f objType everything = fun _ => true := by
  funext obj
  simp [checkIsNeedToWatch, everything, kubernetesSelector, isFilterFromQueryParams, meets]

theorem getInitWatchEvent_everything (htype : objType ∈ subscribable) (it : MapOrder String)
    (st : EdgehubStorage O Unit) :
    getInitWatchEvent f it st objType everything = initWatchEvents it st objType fun _ => true := by
  cases objType with
  | event => simp [subscribable] at htype
  | tokenReview => simp [subscribable] at htype
  | subjectAccessReview => simp [subscribable] at htype
  | _ => simp [getInitWatchEvent, namespacedInitWatchEvent, unscopedInitWatchEvent, endpointInitWatchEvent,
      everything, meets, isFilterFromQueryParams]

/-- The two filters let everything through, so only the moment of a delivery matters. -/
theorem noLoss_of_nothingBetween (htype : objType ∈ subscribable) (h : Applied f s) {a : StreamAction O}
    (ha : s.NothingBetween a) : s.NoLoss f objType everything a := by
  cases a with
  | list it =>
      intro k _ _
      refine (shows_list_iff h it k).mp ?_
      rw [getInitWatchEvent_everything htype, get_replay_initWatchEvents h, checkIsNeedToWatch_everything]
  | deliver =>
      rintro e - -
      refine ⟨fun hlisted => absurd hlisted ha, fun _ => Or.inl ?_⟩
      rw [checkIsNeedToWatch_everything]
  | _ => trivial

end Everything

end WatchStream

end OteStack.EdgeHub
