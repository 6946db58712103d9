/-
# OteStack.EdgeHub.DeliveryOrder — in which order a watch receives the changes of an object.

Every notification starts a delivery of its own (`go syncToNode(...)`), the deliveries share the read lock,
and a channel has no order between those who wait for it.  So a watch receives the events of an object in
the order of the notifications exactly when every hand-over to it is that of the earliest notification of
the object that has not reached it yet (`events_in_order_iff`).  It does if an object is notified again only
when the delivery of its last change has ended (`events_in_order_one_at_a_time`).

`Linked` and `Tracked` are what holds in every state of the hub: a watch is in the map of its type under its
own key from `Add` to `Delete`, and a delivery is on its way to registered watches only.  `Follows` adds
what holds of a watch that stays: every notification of its type from some moment on has reached it or is on
its way to it, not both.
-/
import OteStack.EdgeHub.Delivery

namespace OteStack.EdgeHub

open OteStack.Lib

variable {O : Type}

/-- One more element of a strictly increasing list: it continues a prefix if everything before it is in the
prefix. -/
theorem prefix_concat_iff {l l' : List ℕ} {d : ℕ} (hl : l'.Pairwise (· < ·)) (hstart : l <+: l')
    (hd : d ∈ l') (hnew : d ∉ l) : l ++ [d] <+: l' ↔ ∀ i ∈ l', i < d → i ∈ l := by
  obtain ⟨rest, rfl⟩ := hstart
  rw [List.prefix_append_right_inj]
  have hdrest : d ∈ rest := (List.mem_append.mp hd).resolve_left hnew
  rcases rest with _ | ⟨a, rest⟩
  · simp at hdrest
  obtain ⟨-, hrest, hacross⟩ := List.pairwise_append.mp hl
  have hlt := (List.pairwise_cons.mp hrest).1
  rw [List.cons_prefix_cons, and_iff_left (List.nil_prefix)]
  constructor
  · rintro rfl i hi hid
    rcases List.mem_append.mp hi with hi | hi
    · exact hi
    · rcases List.mem_cons.mp hi with rfl | hi
      · exact absurd hid (lt_irrefl _)
      · exact absurd (hlt i hi) (not_lt_of_gt hid)
  · intro h
    rcases List.mem_cons.mp hdrest with rfl | hmem
    · rfl
    · have hal := h a (by simp) (hlt d hmem)
      exact absurd (hacross a hal a (by simp)) (lt_irrefl _)

namespace WatchSystem

/-! ## Registered watches -/

variable {s s' : WatchSystem O} {a : SystemAction O}

/-- The watch has registered for the type and not unregistered. -/
def Registered (watchers : GoMap Chan (Watcher O)) (ch : Chan) (objType : Resource) : Prop :=
  ∃ w, watchers.get ch = some w ∧ w.objType = objType ∧ w.phase ≠ .registering

theorem registered_set_iff {m : GoMap Chan (Watcher O)} {ch c : Chan} {w : Watcher O} {objType : Resource} :
    Registered (m.set ch w) c objType ↔
      if c = ch then w.objType = objType ∧ w.phase ≠ .registering else Registered m c objType := by
  unfold Registered
  by_cases hc : c = ch
  · simp [hc]
  · simp [hc, GoMap.get_set_of_ne _ hc]

theorem registered_delete_iff {m : GoMap Chan (Watcher O)} {ch c : Chan} {objType : Resource} :
    Registered (m.delete ch) c objType ↔ c ≠ ch ∧ Registered m c objType := by
  unfold Registered
  by_cases hc : c = ch
  · simp [hc]
  · simp [hc, GoMap.get_delete_of_ne _ hc]

/-- A change of a watch that keeps its type and whether it is registered. -/
theorem registered_set_of_same {m : GoMap Chan (Watcher O)} {ch c : Chan} {w : Watcher O}
    (w' : Watcher O) {objType : Resource} (hget : m.get ch = some w) (htype : w'.objType = w.objType)
    (hphase : w'.phase = .registering ↔ w.phase = .registering) :
    Registered m c objType ↔ Registered (m.set ch w') c objType := by
  rw [registered_set_iff]
  split
  · rename_i hc
    simp [Registered, hc, hget, htype, hphase]
  · rfl

/-- The maps hold the channels of the registered watches, and a watch that asks for the write lock is not
in its loop. -/
structure Linked (s : WatchSystem O) : Prop where
  fresh : s.Fresh
  entry : ∀ objType key ch, s.subscriber.entry objType key = some ch ↔
    key = .uniqueId ch ∧ Registered s.watchers ch objType
  writer : ∀ ch, s.writer = some ch → ∃ w, s.watchers.get ch = some w ∧ w.phase ≠ .receiving

theorem linked_init : (init : WatchSystem O).Linked := by
  refine ⟨fresh_init, fun objType key ch => ?_, by simp [init]⟩
  refine iff_of_false (fun hentry => ?_) (by simp [init, Registered])
  rw [init, Subscriber.entry_initSubscriber] at hentry
  cases hentry

/-- A watch that is in its loop is not the one that has asked for the lock. -/
theorem Linked.writer_ne (h : s.Linked) {ch : Chan} {w : Watcher O} (hget : s.watchers.get ch = some w)
    (hphase : w.phase = .receiving) : s.writer ≠ some ch := by
  intro hw
  obtain ⟨w', hget', hne⟩ := h.writer ch hw
  rw [hget] at hget'
  obtain rfl := Option.some.inj hget'
  exact hne hphase

/-- A watch that has not registered is in no map. -/
theorem Linked.not_registered (h : s.Linked) {ch : Chan} {w : Watcher O}
    (hget : s.watchers.get ch = some w) (hphase : w.phase = .registering) :
    (∀ r, ¬ Registered s.watchers ch r) ∧ ∀ r, s.subscriber.entry r (.uniqueId ch) = none := by
  have hout : ∀ r, ¬ Registered s.watchers ch r := by
    rintro r ⟨w', hget', -, hne⟩
    obtain rfl := Option.some.inj (hget.symm.trans hget')
    exact hne hphase
  refine ⟨hout, fun r => ?_⟩
  by_contra hne
  obtain ⟨c, hc⟩ := Option.ne_none_iff_exists'.mp hne
  obtain ⟨hkey, hc⟩ := (h.entry _ _ _).mp hc
  obtain rfl := SubscriberKey.uniqueId.inj hkey
  exact hout _ hc

/-- After `Add`. -/
theorem Linked.entry_add_iff (h : s.Linked) {ch : Chan} {w : Watcher O} {sub : Subscriber}
    (hget : s.watchers.get ch = some w) (hphase : w.phase = .registering)
    (hadd : s.subscriber.add w.objType (.uniqueId ch) ch = some sub) (objType : Resource)
    (key : SubscriberKey) (c : Chan) :
    sub.entry objType key = some c ↔
      key = .uniqueId c ∧ Registered (s.watchers.set ch { w with phase := .receiving }) c objType := by
  obtain ⟨hout, hnone⟩ := h.not_registered hget hphase
  simp only [Subscriber.entry_add hadd, hnone, and_true, registered_set_iff]
  by_cases hc : c = ch
  · subst hc
    by_cases hnew : objType = w.objType ∧ key = .uniqueId c
    · simp [hnew.1, hnew.2]
    · rw [if_neg hnew, h.entry]
      simp only [if_true, ne_eq, reduceCtorEq, not_false_eq_true, and_true]
      refine iff_of_false (fun h' => hout _ h'.2) ?_
      rintro ⟨rfl, rfl⟩
      exact hnew ⟨rfl, rfl⟩
  · rw [if_neg hc, ← h.entry]
    split
    · rename_i hnew
      obtain ⟨rfl, rfl⟩ := hnew
      simp [hnone, Ne.symm hc]
    · rfl

/-- After `Delete`. -/
theorem Linked.entry_delete_iff (h : s.Linked) {ch : Chan} {w : Watcher O}
    (hget : s.watchers.get ch = some w) (objType : Resource) (key : SubscriberKey) (c : Chan) :
    (s.subscriber.delete w.objType (.uniqueId ch)).entry objType key = some c ↔
      key = .uniqueId c ∧ Registered (s.watchers.delete ch) c objType := by
  rw [Subscriber.entry_delete, registered_delete_iff]
  by_cases hold : objType = w.objType ∧ key = .uniqueId ch
  · rw [if_pos hold]
    refine iff_of_false (by simp) ?_
    rintro ⟨hkey, hne, -⟩
    exact hne (SubscriberKey.uniqueId.inj (hkey.symm.trans hold.2))
  · rw [if_neg hold, h.entry]
    refine and_congr_right fun hkey => (and_iff_right_of_imp ?_).symm
    rintro ⟨w', hget', htype, -⟩ rfl
    obtain rfl := Option.some.inj (hget.symm.trans hget')
    exact hold ⟨htype.symm, hkey⟩

theorem linked_runCritical (h : s.Linked) {ch : Chan} {w : Watcher O} (hget : s.watchers.get ch = some w)
    (hfresh : (s.runCritical ch w).Fresh) : (s.runCritical ch w).Linked := by
  unfold runCritical at hfresh ⊢
  split at hfresh
  · rename_i hphase
    split at hfresh
    · -- `Add` has panicked: the maps are as they were
      refine ⟨hfresh, fun objType key c => ?_, fun c hc => by cases hc⟩
      rw [h.entry, registered_delete_iff]
      refine and_congr_right fun _ => (and_iff_right_of_imp ?_).symm
      rintro hc rfl
      exact (h.not_registered hget hphase).1 _ hc
    · rename_i sub hadd
      exact ⟨hfresh, h.entry_add_iff hget hphase hadd, fun c hc => by cases hc⟩
  · exact ⟨hfresh, h.entry_delete_iff hget, fun c hc => by cases hc⟩

theorem linked_step (h : s.Linked) (hstep : s.step a = some s') : s'.Linked := by
  have hfresh := fresh_step h.fresh hstep
  cases transition_of_step hstep with
  | notify => exact ⟨hfresh, h.entry, h.writer⟩
  | rLock _ _ => exact ⟨hfresh, h.entry, h.writer⟩
  | @handOver _ _ _ _ ch _ _ _ hw =>
      refine ⟨hfresh, fun objType key c => ?_, fun c hc => ?_⟩
      · exact (h.entry objType key c).trans
          (and_congr_right' (registered_set_of_same _ hw rfl Iff.rfl))
      · have hne : c ≠ ch := by
          rintro rfl
          exact h.writer_ne hw rfl hc
        rw [GoMap.get_set_of_ne _ hne]
        exact h.writer c hc
  | rUnlock _ => exact ⟨hfresh, h.entry, h.writer⟩
  | @connect objType' =>
      have hnew : s.watchers.get s.nextChan = none := by
        by_contra hne
        exact absurd (h.fresh.watchers _ hne) (lt_irrefl _)
      refine ⟨hfresh, fun objType key c => ?_, fun c hc => ?_⟩
      · rw [h.entry, registered_set_iff]
        split
        · rename_i hc
          simp [Registered, hc, hnew]
        · rfl
      · obtain ⟨w, hget, hphase⟩ := h.writer c hc
        have hne : c ≠ s.nextChan := by
          rintro rfl
          simp [hnew] at hget
        rw [GoMap.get_set_of_ne _ hne]
        exact ⟨w, hget, hphase⟩
  | @lock ch w hget hphase _ =>
      refine ⟨hfresh, h.entry, fun c hc => ?_⟩
      obtain rfl := Option.some.inj hc
      exact ⟨w, hget, hphase⟩
  | critical hget _ _ => exact linked_runCritical h hget hfresh
  | @leave ch objType' received hw =>
      refine ⟨hfresh, fun objType key c => ?_, fun c hc => ?_⟩
      · exact (h.entry objType key c).trans
          (and_congr_right' (registered_set_of_same _ hw rfl (by simp)))
      · by_cases hch : c = ch
        · subst hch
          exact ⟨_, GoMap.get_set_self _ _ _, by simp⟩
        · rw [GoMap.get_set_of_ne _ hch]
          exact h.writer c hc

/-- The channels that a delivery visits are those of the registered watches of the type, once each. -/
theorem mem_channels_iff (h : s.Linked) {it : MapOrder SubscriberKey} {objType : Resource} {ch : Chan} :
    ch ∈ s.subscriber.channels it objType ↔ Registered s.watchers ch objType := by
  have hentry : ch ∈ s.subscriber.channels it objType ↔
      ∃ key, s.subscriber.entry objType key = some ch := by
    unfold Subscriber.channels Subscriber.entry
    split
    · rename_i hnone
      simp [hnone]
    · rename_i w hw
      simp only [List.mem_filterMap, it.mem_order, hw, Option.bind_some]
      exact ⟨fun ⟨key, _, hkey⟩ => ⟨key, hkey⟩, fun ⟨key, hkey⟩ => ⟨key, GoMap.mem_keys_of_get hkey, hkey⟩⟩
  rw [hentry]
  simp only [h.entry, exists_eq_left]

theorem nodup_channels (h : s.Linked) (it : MapOrder SubscriberKey) (objType : Resource) :
    (s.subscriber.channels it objType).Nodup := by
  unfold Subscriber.channels
  split
  · exact List.nodup_nil
  · rename_i w hw
    refine List.Nodup.filterMap ?_ (it.nodup w)
    intro key key' ch hkey hkey'
    have hentry : ∀ k, w.get k = some ch → k = .uniqueId ch := fun k hk =>
      ((h.entry objType k ch).mp (by rw [Subscriber.entry, hw, Option.bind_some, hk])).1
    exact (hentry key hkey).trans (hentry key' hkey').symm

/-! ## Deliveries under way -/

/-- What the watch on a channel has received. -/
def received (s : WatchSystem O) (ch : Chan) : List (ℕ × WatchEvent O) :=
  ((s.watchers.get ch).map Watcher.received).getD []

/-- A delivery carries what its notification says, and is on its way to registered watches, to each of them
once.  What has been received has been notified. -/
structure Tracked (s : WatchSystem O) : Prop where
  linked : s.Linked
  numbered : ∀ d D, s.deliveries.get d = some D → s.notified[d]? = some (D.objType, D.event)
  rest : ∀ d D rest, s.deliveries.get d = some D → D.phase = .holding rest →
    rest.Nodup ∧ ∀ ch ∈ rest, Registered s.watchers ch D.objType
  past : ∀ ch, ∀ x ∈ s.received ch, x.1 < s.notified.length

theorem tracked_init : (init : WatchSystem O).Tracked :=
  ⟨linked_init, by simp [init], by simp [init], by simp [init, received]⟩

theorem received_of_get {ch : Chan} {w : Watcher O} (h : s.watchers.get ch = some w) :
    s.received ch = w.received := by
  rw [received, h, Option.map_some, Option.getD_some]

theorem received_congr {ch : Chan} (h : s'.watchers.get ch = s.watchers.get ch) :
    s'.received ch = s.received ch := by
  rw [received, h, received]

theorem getElem?_append_of_some {l : List (Resource × WatchEvent O)} {x y : Resource × WatchEvent O} {d : ℕ}
    (h : l[d]? = some x) : (l ++ [y])[d]? = some x := by
  rw [List.getElem?_append_left (List.getElem?_eq_some_iff.mp h).1]
  exact h

/-- The deliveries after one of them has moved on. -/
theorem Tracked.moved (h : s.Tracked) {d : ℕ} {D : Delivery O} (D' : Delivery O)
    (hD : s.deliveries.get d = some D) (htype : D'.objType = D.objType) (hevent : D'.event = D.event)
    (hrest : ∀ rest, D'.phase = .holding rest →
      rest.Nodup ∧ ∀ ch ∈ rest, Registered s.watchers ch D'.objType) :
    (∀ k K, (s.deliveries.set d D').get k = some K → s.notified[k]? = some (K.objType, K.event)) ∧
    (∀ k K rest, (s.deliveries.set d D').get k = some K → K.phase = .holding rest →
      rest.Nodup ∧ ∀ ch ∈ rest, Registered s.watchers ch K.objType) := by
  constructor
  · intro k K hK
    rcases GoMap.get_set_eq_some.mp hK with ⟨rfl, rfl⟩ | ⟨-, hK⟩
    · rw [htype, hevent]
      exact h.numbered k D hD
    · exact h.numbered k K hK
  · intro k K rest hK
    rcases GoMap.get_set_eq_some.mp hK with ⟨-, rfl⟩ | ⟨-, hK⟩
    · exact hrest rest
    · exact h.rest k K rest hK

/-- Who is on the way of a delivery stays so if nobody who is registered loses that. -/
theorem Tracked.rest_mono (h : s.Tracked) {m : GoMap Chan (Watcher O)}
    (hreg : ∀ ch objType, Registered s.watchers ch objType → Registered m ch objType) (d : ℕ)
    (D : Delivery O) (rest : List Chan) (hD : s.deliveries.get d = some D)
    (hphase : D.phase = .holding rest) :
    rest.Nodup ∧ ∀ ch ∈ rest, Registered m ch D.objType := by
  obtain ⟨hnodup, hall⟩ := h.rest d D rest hD hphase
  exact ⟨hnodup, fun ch hch => hreg _ _ (hall ch hch)⟩

/-- The other watches, after one has had the write lock. -/
theorem watchers_runCritical {ch c : Chan} (w : Watcher O) (hne : ch ≠ c) :
    (s.runCritical c w).watchers.get ch = s.watchers.get ch := by
  unfold runCritical
  split
  · split
    · exact GoMap.get_delete_of_ne _ hne
    · exact GoMap.get_set_of_ne _ hne _
  · exact GoMap.get_delete_of_ne _ hne

/-- A watch with the write lock receives nothing. -/
theorem mem_received_runCritical {ch c : Chan} {w : Watcher O} (hget : s.watchers.get ch = some w)
    {x : ℕ × WatchEvent O} (hx : x ∈ (s.runCritical ch w).received c) : x ∈ s.received c := by
  by_cases hc : c = ch
  · subst hc
    unfold runCritical at hx
    split at hx
    · split at hx
      · simp [received] at hx
      · simpa [received, hget] using hx
    · simp [received] at hx
  · rwa [received_congr (watchers_runCritical w hc)] at hx

/-- What is received stays among the notified, if that holds of the watch that has changed. -/
theorem Tracked.past_set (h : s.Tracked) {c : Chan} {w : Watcher O}
    (hset : s'.watchers = s.watchers.set c w) (hw : ∀ x ∈ w.received, x.1 < s.notified.length) (ch : Chan) :
    ∀ x ∈ s'.received ch, x.1 < s.notified.length := by
  intro x hx
  by_cases hc : ch = c
  · refine hw x ?_
    simpa [received, hset, hc] using hx
  · have hsame : s'.received ch = s.received ch := received_congr (by rw [hset, GoMap.get_set_of_ne _ hc])
    exact h.past ch x (hsame ▸ hx)

/-- A new notification has the next number, and its delivery has not begun. -/
theorem tracked_notify (h : s.Tracked) {objType : Resource} {event : WatchEvent O} (hlinked : s'.Linked)
    (hset : s'.deliveries = s.deliveries.set s.notified.length ⟨objType, event, .started⟩)
    (hw : s'.watchers = s.watchers) (hn : s'.notified = s.notified ++ [(objType, event)]) : s'.Tracked := by
  refine ⟨hlinked, fun d D hD => ?_, fun d D rest hD hphase => ?_, fun ch x hx => ?_⟩
  · rw [hset] at hD
    rw [hn]
    rcases GoMap.get_set_eq_some.mp hD with ⟨rfl, rfl⟩ | ⟨-, hD⟩
    · simp
    · exact getElem?_append_of_some (h.numbered d D hD)
  · rw [hset] at hD
    rcases GoMap.get_set_eq_some.mp hD with ⟨-, rfl⟩ | ⟨-, hD⟩
    · cases hphase
    · rw [hw]
      exact h.rest d D rest hD hphase
  · have hsame : s'.received ch = s.received ch := received_congr (by rw [hw])
    rw [hn, List.length_append]
    exact Nat.lt_add_right _ (h.past ch x (hsame ▸ hx))

theorem tracked_step (h : s.Tracked) (hstep : s.step a = some s') : s'.Tracked := by
  have hlinked := linked_step h.linked hstep
  cases transition_of_step hstep with
  | notify => exact tracked_notify h hlinked rfl rfl rfl
  | @rLock d it objType event hd _ =>
      obtain ⟨hnumbered, hrest⟩ := h.moved
        ⟨objType, event, .holding (s.subscriber.channels it objType)⟩ hd rfl rfl (by
          intro rest hrest
          obtain rfl := DeliveryPhase.holding.inj hrest
          exact ⟨nodup_channels h.linked it objType, fun ch => (mem_channels_iff h.linked).mp⟩)
      exact ⟨hlinked, hnumbered, hrest, h.past⟩
  | @handOver d objType wType event c rest received' hd hw =>
      obtain ⟨hnodup, hreg⟩ := h.rest d _ _ hd rfl
      obtain ⟨hnumbered, hrest⟩ := h.moved ⟨objType, event, .holding rest⟩ hd rfl rfl (by
        intro rest' hrest
        obtain rfl := DeliveryPhase.holding.inj hrest
        exact ⟨(List.nodup_cons.mp hnodup).2, fun ch hch => hreg ch (List.mem_cons_of_mem _ hch)⟩)
      refine ⟨hlinked, hnumbered, fun k K rest' hK hphase => ?_, h.past_set rfl fun x hx => ?_⟩
      · obtain ⟨hnodup', hreg'⟩ := hrest k K rest' hK hphase
        refine ⟨hnodup', fun ch hch => ?_⟩
        exact (registered_set_of_same ⟨wType, .receiving, received' ++ [(d, event)]⟩ hw rfl Iff.rfl).mp
          (hreg' ch hch)
      · rcases List.mem_append.mp hx with hx | hx
        · exact h.past c x (by rwa [received_of_get hw])
        · obtain rfl := List.mem_singleton.mp hx
          exact h.linked.fresh.deliveries d (by simp [hd])
  | @rUnlock d _ _ hd =>
      refine ⟨hlinked, fun k K hK => ?_, fun k K rest hK => ?_, h.past⟩
      · exact h.numbered k K (GoMap.get_of_get_delete hK)
      · exact h.rest k K rest (GoMap.get_of_get_delete hK)
  | @connect objType =>
      refine ⟨hlinked, h.numbered, h.rest_mono fun ch r hr => ?_, h.past_set rfl (by simp)⟩
      -- a new channel is nobody's
      have ⟨w, hw, _⟩ := hr
      have hne : ch ≠ s.nextChan := (h.linked.fresh.watchers ch (by simp [hw])).ne
      rw [registered_set_iff, if_neg hne]
      exact hr
  | lock _ _ _ => exact ⟨hlinked, h.numbered, h.rest, h.past⟩
  | @critical c w hget _ hunread =>
      obtain ⟨hd, hn⟩ := deliveries_runCritical (s := s) c w
      refine ⟨hlinked, ?_, fun d D rest hD hphase => ?_, fun ch x hx => ?_⟩
      · rw [hd, hn]
        exact h.numbered
      · -- while a watch has the write lock nobody reads
        rw [hd] at hD
        have hstarted := hunread d (GoMap.mem_keys_of_get hD)
        rw [hD, Option.map_some, hphase] at hstarted
        cases hstarted
      · rw [hn]
        exact h.past ch x (mem_received_runCritical hget hx)
  | @leave c objType received' hw =>
      refine ⟨hlinked, h.numbered, h.rest_mono fun ch r hr => ?_, h.past_set rfl fun x hx => ?_⟩
      · exact (registered_set_of_same ⟨objType, .left, received'⟩ hw rfl (by simp)).mp hr
      · exact h.past c x (by rwa [received_of_get hw])

end WatchSystem

/-! ## A watch that stays -/

/-- The delivery has still to reach the watch on a channel, which is one of the given type. -/
def Delivery.PendingFor (D : Delivery O) (objType : Resource) (ch : Chan) : Prop :=
  D.objType = objType ∧ ∀ rest, D.phase = .holding rest → ch ∈ rest

instance (D : Delivery O) (objType : Resource) (ch : Chan) : Decidable (D.PendingFor objType ch) :=
  match hphase : D.phase with
  | .started => decidable_of_iff (D.objType = objType) (by simp [Delivery.PendingFor, hphase])
  | .holding rest =>
      decidable_of_iff (D.objType = objType ∧ ch ∈ rest) (by simp [Delivery.PendingFor, hphase])

namespace WatchSystem

/-- The delivery of a notification has still to reach the watch. -/
def Pending (s : WatchSystem O) (objType : Resource) (ch : Chan) (d : ℕ) : Prop :=
  ∃ D, s.deliveries.get d = some D ∧ D.PendingFor objType ch

/-- From the notification with number `n` on, every one of the type has reached the watch or will. -/
structure Follows (n : ℕ) (objType : Resource) (ch : Chan) (s : WatchSystem O) : Prop where
  tracked : s.Tracked
  watching : ∃ received, s.watchers.get ch = some ⟨objType, .receiving, received⟩
  start : n ≤ s.notified.length
  handed : ∀ x ∈ s.received ch, n ≤ x.1 →
    s.notified[x.1]? = some (objType, x.2) ∧ ¬ s.Pending objType ch x.1
  complete : ∀ d event, n ≤ d → s.notified[d]? = some (objType, event) →
    (d, event) ∈ s.received ch ∨ s.Pending objType ch d

section Stays

variable {s s' : WatchSystem O} {a : SystemAction O} {n : ℕ} {objType : Resource} {ch : Chan}

/-- A watch in its loop follows what is notified from now on. -/
theorem Tracked.follows (h : s.Tracked) {received : List (ℕ × WatchEvent O)}
    (hw : s.watchers.get ch = some ⟨objType, .receiving, received⟩) :
    s.Follows s.notified.length objType ch := by
  refine ⟨h, ⟨received, hw⟩, le_rfl, fun x hx hle => ?_, fun d event hle hd => ?_⟩
  · exact absurd (h.past ch x hx) (not_lt.mpr hle)
  · exact absurd (List.getElem?_eq_some_iff.mp hd).1 (not_lt.mpr hle)

theorem pending_congr {d : ℕ} (h : s'.deliveries.get d = s.deliveries.get d) :
    s'.Pending objType ch d ↔ s.Pending objType ch d := by
  rw [Pending, h, Pending]

/-- A step that nothing of the watch changes in. -/
theorem Follows.of_same (h : s.Follows n objType ch) (htracked : s'.Tracked)
    (hw : s'.watchers.get ch = s.watchers.get ch) (hn : s'.notified = s.notified)
    (hpending : ∀ d, s'.Pending objType ch d ↔ s.Pending objType ch d) : s'.Follows n objType ch := by
  refine ⟨htracked, hw ▸ h.watching, hn ▸ h.start, ?_, ?_⟩
  · simp only [received_congr hw, hn, hpending]
    exact h.handed
  · simp only [received_congr hw, hn, hpending]
    exact h.complete

/-- What a watch in its loop is registered for. -/
theorem Follows.registered_iff (h : s.Follows n objType ch) (objType' : Resource) :
    Registered s.watchers ch objType' ↔ objType' = objType := by
  obtain ⟨received, hw⟩ := h.watching
  simp [Registered, hw, eq_comm]

/-- The watch does not have the write lock, and is none of those to come. -/
theorem Follows.ne_writer (h : s.Follows n objType ch) {c : Chan} (hc : s.writer = some c) : ch ≠ c := by
  obtain ⟨received, hw⟩ := h.watching
  rintro rfl
  exact h.tracked.linked.writer_ne hw rfl hc

theorem Follows.ne_nextChan (h : s.Follows n objType ch) : ch ≠ s.nextChan := by
  obtain ⟨received, hw⟩ := h.watching
  exact (h.tracked.linked.fresh.watchers ch (by simp [hw])).ne

/-- A delivery that has the watch before it is one of the watch's type. -/
theorem Follows.objType_eq (h : s.Follows n objType ch) {d : ℕ} {objType' : Resource}
    {event : WatchEvent O} {rest : List Chan}
    (hd : s.deliveries.get d = some ⟨objType', event, .holding (ch :: rest)⟩) : objType' = objType :=
  (h.registered_iff objType').mp ((h.tracked.rest d _ _ hd rfl).2 ch (by simp))

/-- A notification that is not new. -/
theorem getElem?_of_append {l : List (Resource × WatchEvent O)} {x y : Resource × WatchEvent O} {d : ℕ}
    (h : (l ++ [y])[d]? = some x) : l[d]? = some x ∨ d = l.length ∧ y = x := by
  by_cases hd : d < l.length
  · rw [List.getElem?_append_left hd] at h
    exact Or.inl h
  · rw [List.getElem?_append_right (not_lt.mp hd), List.getElem?_singleton] at h
    split at h
    · exact Or.inr ⟨by omega, Option.some.inj h⟩
    · cases h

theorem follows_notify (h : s.Follows n objType ch) {objType' : Resource} {event : WatchEvent O}
    (htracked : s'.Tracked)
    (hset : s'.deliveries = s.deliveries.set s.notified.length ⟨objType', event, .started⟩)
    (hw : s'.watchers = s.watchers) (hn : s'.notified = s.notified ++ [(objType', event)]) :
    s'.Follows n objType ch := by
  have hpending : ∀ d, d ≠ s.notified.length → (s'.Pending objType ch d ↔ s.Pending objType ch d) :=
    fun d hd => pending_congr (by rw [hset, GoMap.get_set_of_ne _ hd])
  have hrec : s'.received ch = s.received ch := received_congr (by rw [hw])
  refine ⟨htracked, hw ▸ h.watching, ?_, ?_, ?_⟩
  · rw [hn, List.length_append]
    exact Nat.le_add_right_of_le h.start
  · intro x hx hle
    obtain ⟨hnotified, hnot⟩ := h.handed x (hrec ▸ hx) hle
    have hne : x.1 ≠ s.notified.length := (List.getElem?_eq_some_iff.mp hnotified).1.ne
    rw [hn]
    exact ⟨getElem?_append_of_some hnotified, fun hp => hnot ((hpending x.1 hne).mp hp)⟩
  · intro d e hle hd
    rw [hn] at hd
    rcases getElem?_of_append hd with hd | ⟨rfl, heq⟩
    · have hne : d ≠ s.notified.length := (List.getElem?_eq_some_iff.mp hd).1.ne
      rw [hpending d hne, hrec]
      exact h.complete d e hle hd
    · obtain ⟨rfl, rfl⟩ := Prod.mk.inj heq
      refine Or.inr ⟨⟨objType', event, .started⟩, by rw [hset, GoMap.get_set_self], rfl, fun rest hrest => ?_⟩
      cases hrest

/-- A delivery moves on without reaching the watch. -/
theorem Follows.of_delivery (h : s.Follows n objType ch) (htracked : s'.Tracked)
    (hw : s'.watchers.get ch = s.watchers.get ch) (hn : s'.notified = s.notified) {d : ℕ}
    {D D' : Delivery O} (hD : s.deliveries.get d = some D) (hset : s'.deliveries = s.deliveries.set d D')
    (hpend : D'.PendingFor objType ch ↔ D.PendingFor objType ch) : s'.Follows n objType ch := by
  refine h.of_same htracked hw hn fun k => ?_
  by_cases hk : k = d
  · subst hk
    simp [Pending, hset, hD, hpend]
  · exact pending_congr (by rw [hset, GoMap.get_set_of_ne _ hk])

/-- A delivery reaches the watch. -/
theorem follows_handOver (h : s.Follows n objType ch) (htracked : s'.Tracked) {d : ℕ}
    {event : WatchEvent O} {rest : List Chan} {received : List (ℕ × WatchEvent O)}
    (hD : s.deliveries.get d = some ⟨objType, event, .holding (ch :: rest)⟩)
    (hw : s.watchers.get ch = some ⟨objType, .receiving, received⟩)
    (hset : s'.deliveries = s.deliveries.set d ⟨objType, event, .holding rest⟩)
    (hw' : s'.watchers.get ch = some ⟨objType, .receiving, received ++ [(d, event)]⟩)
    (hn : s'.notified = s.notified) : s'.Follows n objType ch := by
  have hnodup := List.nodup_cons.mp (h.tracked.rest d _ _ hD rfl).1
  have hnumber := h.tracked.numbered d _ hD
  have hbefore : s.Pending objType ch d := ⟨_, hD, rfl, by simp⟩
  have hafter : ¬ s'.Pending objType ch d := by
    rintro ⟨D, hD', -, hmem⟩
    rw [hset, GoMap.get_set_self] at hD'
    obtain rfl := Option.some.inj hD'
    exact hnodup.1 (hmem rest rfl)
  have hpending : ∀ k, k ≠ d → (s'.Pending objType ch k ↔ s.Pending objType ch k) := fun k hk =>
    pending_congr (by rw [hset, GoMap.get_set_of_ne _ hk])
  have hrec : s.received ch = received := received_of_get hw
  have hrec' : s'.received ch = received ++ [(d, event)] := received_of_get hw'
  refine ⟨htracked, ⟨_, hw'⟩, hn ▸ h.start, ?_, ?_⟩
  · intro x hx hx1
    rw [hrec', List.mem_append, List.mem_singleton] at hx
    rw [hn]
    rcases hx with hx | rfl
    · obtain ⟨hnotified, hnot⟩ := h.handed x (hrec ▸ hx) hx1
      have hne : x.1 ≠ d := fun heq => hnot (heq ▸ hbefore)
      exact ⟨hnotified, fun hp => hnot ((hpending x.1 hne).mp hp)⟩
    · exact ⟨hnumber, hafter⟩
  · intro k e hk hnotified
    rw [hn] at hnotified
    rw [hrec', List.mem_append, List.mem_singleton]
    by_cases hkd : k = d
    · subst hkd
      rw [hnumber] at hnotified
      obtain ⟨-, rfl⟩ := Prod.mk.inj (Option.some.inj hnotified)
      exact Or.inl (Or.inr rfl)
    · rw [hpending k hkd]
      rcases h.complete k e hk hnotified with hc | hc
      · exact Or.inl (Or.inl (hrec ▸ hc))
      · exact Or.inr hc

/-- A delivery that is through is removed. -/
theorem follows_rUnlock (h : s.Follows n objType ch) (htracked : s'.Tracked) {d : ℕ} {objType' : Resource}
    {event : WatchEvent O} (hD : s.deliveries.get d = some ⟨objType', event, .holding []⟩)
    (hset : s'.deliveries = s.deliveries.delete d) (hw : s'.watchers = s.watchers)
    (hn : s'.notified = s.notified) : s'.Follows n objType ch := by
  refine h.of_same htracked (by rw [hw]) hn fun k => ?_
  by_cases hk : k = d
  · subst hk
    refine iff_of_false ?_ ?_
    · simp [Pending, hset]
    · rintro ⟨D, hD', -, hmem⟩
      rw [hD] at hD'
      obtain rfl := Option.some.inj hD'
      exact absurd (hmem [] rfl) (by simp)
  · exact pending_congr (by rw [hset, GoMap.get_delete_of_ne _ hk])

/-- A watch that does not leave goes on to follow the notifications of its type. -/
theorem follows_step (h : s.Follows n objType ch) (hstay : a ≠ .leave ch) (hstep : s.step a = some s') :
    s'.Follows n objType ch := by
  have htracked := tracked_step h.tracked hstep
  obtain ⟨received, hw⟩ := h.watching
  cases transition_of_step hstep with
  | notify => exact follows_notify h htracked rfl rfl rfl
  | @rLock d it objType' event hd _ =>
      refine h.of_delivery htracked rfl rfl hd rfl ?_
      have hmem : ch ∈ s.subscriber.channels it objType' ↔ objType' = objType :=
        (mem_channels_iff h.tracked.linked).trans (h.registered_iff objType')
      simp [Delivery.PendingFor, hmem]
  | @handOver d objType' wType event c rest received' hd hw' =>
      by_cases hc : ch = c
      · subst hc
        obtain ⟨rfl, -, rfl⟩ := Watcher.mk.inj (Option.some.inj (hw'.symm.trans hw))
        obtain rfl := h.objType_eq hd
        exact follows_handOver h htracked hd hw rfl (GoMap.get_set_self _ _ _) rfl
      · refine h.of_delivery htracked (GoMap.get_set_of_ne _ hc _) rfl hd rfl ?_
        simp [Delivery.PendingFor, hc]
  | rUnlock hd => exact follows_rUnlock h htracked hd rfl rfl rfl
  | connect => exact h.of_same htracked (GoMap.get_set_of_ne _ h.ne_nextChan _) rfl fun _ => Iff.rfl
  | lock _ _ _ => exact h.of_same htracked rfl rfl fun _ => Iff.rfl
  | @critical c w hget hwriter _ =>
      obtain ⟨hd, hn⟩ := deliveries_runCritical (s := s) c w
      exact h.of_same htracked (watchers_runCritical w (h.ne_writer hwriter)) hn
        fun _ => pending_congr (by rw [hd])
  | @leave c _ _ _ =>
      have hne : ch ≠ c := by
        rintro rfl
        exact hstay rfl
      exact h.of_same htracked (GoMap.get_set_of_ne _ hne _) rfl fun _ => Iff.rfl

/-! ## The order of the events of one object -/

variable (keyOf : O → String)

/-- The numbers of the notifications of an object that have reached the watch, as they came. -/
def receivedNumbers (s : WatchSystem O) (n : ℕ) (ch : Chan) (key : String) : List ℕ :=
  ((s.received ch).filter fun x => decide (n ≤ x.1) && keyOf x.2.object == key).map Prod.fst

/-- The numbers of the notifications of an object of the type, in the order of the informer. -/
def notifiedNumbers (s : WatchSystem O) (n : ℕ) (objType : Resource) (key : String) : List ℕ :=
  (List.range s.notified.length).filter fun i => decide (n ≤ i) &&
    (s.notified[i]?).any fun x => x.1 == objType && keyOf x.2.object == key

/-- From the notification with number `n` on, what the watch has received of each object is what happened
to the object first, in that order. -/
def InOrder (n : ℕ) (objType : Resource) (ch : Chan) (s : WatchSystem O) : Prop :=
  ∀ key, s.receivedNumbers keyOf n ch key <+: s.notifiedNumbers keyOf n objType key

/-- A hand-over to the watch is that of the earliest notification of the object, from number `n` on, that
has not reached the watch. -/
def HandsEarliest (n : ℕ) (objType : Resource) (ch : Chan) (s : WatchSystem O) : SystemAction O → Prop
  | .handOver d => s.waitsFor d = some ch → ∀ D ∈ s.deliveries.get d, ∀ k < d, n ≤ k →
      ∀ K ∈ s.deliveries.get k, K.PendingFor objType ch → keyOf K.event.object ≠ keyOf D.event.object
  | _ => True

instance (n : ℕ) (objType : Resource) (ch : Chan) (s : WatchSystem O) :
    ∀ a, Decidable (s.HandsEarliest keyOf n objType ch a)
  | .handOver d => inferInstanceAs (Decidable (s.waitsFor d = some ch → ∀ D ∈ s.deliveries.get d,
      ∀ k < d, n ≤ k → ∀ K ∈ s.deliveries.get k, K.PendingFor objType ch →
        keyOf K.event.object ≠ keyOf D.event.object))
  | .notify _ _ => .isTrue trivial
  | .rLock _ _ => .isTrue trivial
  | .rUnlock _ => .isTrue trivial
  | .connect _ => .isTrue trivial
  | .lock _ => .isTrue trivial
  | .critical _ => .isTrue trivial
  | .leave _ => .isTrue trivial

variable {keyOf} {key : String} {i : ℕ}

theorem mem_receivedNumbers :
    i ∈ s.receivedNumbers keyOf n ch key ↔
      ∃ event, (i, event) ∈ s.received ch ∧ n ≤ i ∧ keyOf event.object = key := by
  simp [receivedNumbers]

theorem mem_notifiedNumbers :
    i ∈ s.notifiedNumbers keyOf n objType key ↔
      n ≤ i ∧ ∃ event, s.notified[i]? = some (objType, event) ∧ keyOf event.object = key := by
  simp only [notifiedNumbers, List.mem_filter, List.mem_range, Bool.and_eq_true, decide_eq_true_eq]
  constructor
  · rintro ⟨-, hn, hany⟩
    rcases hx : s.notified[i]? with _ | ⟨r, event⟩
    · simp [hx] at hany
    · rw [hx, Option.any_some, Bool.and_eq_true, beq_iff_eq, beq_iff_eq] at hany
      obtain ⟨rfl, hkey⟩ := hany
      exact ⟨hn, event, rfl, hkey⟩
  · rintro ⟨hn, event, hx, hkey⟩
    refine ⟨(List.getElem?_eq_some_iff.mp hx).1, hn, ?_⟩
    rw [hx, Option.any_some]
    simpa using hkey

theorem pairwise_notifiedNumbers : (s.notifiedNumbers keyOf n objType key).Pairwise (· < ·) :=
  List.pairwise_lt_range.filter _

/-- One more notification. -/
theorem notifiedNumbers_mono {x : Resource × WatchEvent O} (hn : s'.notified = s.notified ++ [x]) :
    s.notifiedNumbers keyOf n objType key <+: s'.notifiedNumbers keyOf n objType key := by
  unfold notifiedNumbers
  rw [hn, List.length_append, List.length_singleton, List.range_succ, List.filter_append]
  refine ⟨_, congrArg (· ++ _) (List.filter_congr fun i hi => ?_)⟩
  rw [List.getElem?_append_left (List.mem_range.mp hi)]

theorem inOrder_congr (hrec : s'.received ch = s.received ch) (hn : s'.notified = s.notified) :
    s'.InOrder keyOf n objType ch ↔ s.InOrder keyOf n objType ch := by
  simp only [InOrder, receivedNumbers, notifiedNumbers, hrec, hn]

/-- The numbers of an object that a hand-over adds to. -/
theorem receivedNumbers_concat {d : ℕ} {event : WatchEvent O}
    (hrec : s'.received ch = s.received ch ++ [(d, event)]) (key : String) :
    s'.receivedNumbers keyOf n ch key =
      s.receivedNumbers keyOf n ch key ++ if n ≤ d ∧ keyOf event.object = key then [d] else [] := by
  rw [receivedNumbers, hrec, List.filter_append, List.map_append, receivedNumbers]
  congr 1
  by_cases hnew : n ≤ d ∧ keyOf event.object = key
  · simp [hnew]
  · rw [if_neg hnew]
    simpa using hnew

/-- Whether a hand-over keeps the order depends on the object of its event only. -/
theorem inOrder_concat_iff (hF : s.InOrder keyOf n objType ch) {d : ℕ} {event : WatchEvent O} (hnd : n ≤ d)
    (hrec : s'.received ch = s.received ch ++ [(d, event)]) (hn : s'.notified = s.notified) :
    s'.InOrder keyOf n objType ch ↔ s.receivedNumbers keyOf n ch (keyOf event.object) ++ [d] <+:
      s.notifiedNumbers keyOf n objType (keyOf event.object) := by
  have hsame : ∀ key, s'.notifiedNumbers keyOf n objType key = s.notifiedNumbers keyOf n objType key := by
    intro key
    rw [notifiedNumbers, hn, notifiedNumbers]
  simp only [InOrder, receivedNumbers_concat hrec, hsame]
  constructor
  · intro hall
    simpa [hnd] using hall (keyOf event.object)
  · intro hone key
    by_cases heq : keyOf event.object = key
    · subst heq
      simpa [hnd] using hone
    · simpa [heq] using hF key

/-- A delivery that reaches the watch keeps the order exactly if it is the earliest one of its object. -/
theorem inOrder_handOver_iff (h : s.Follows n objType ch) (hF : s.InOrder keyOf n objType ch) {d : ℕ}
    {event : WatchEvent O} {rest : List Chan}
    (hD : s.deliveries.get d = some ⟨objType, event, .holding (ch :: rest)⟩)
    (hrec : s'.received ch = s.received ch ++ [(d, event)]) (hn : s'.notified = s.notified) :
    s'.InOrder keyOf n objType ch ↔ s.HandsEarliest keyOf n objType ch (.handOver d) := by
  by_cases hnd : n ≤ d
  · have hnumber := h.tracked.numbered d _ hD
    have hpending : s.Pending objType ch d := ⟨_, hD, rfl, by simp⟩
    have hmem : d ∈ s.notifiedNumbers keyOf n objType (keyOf event.object) :=
      mem_notifiedNumbers.mpr ⟨hnd, event, hnumber, rfl⟩
    have hnew : d ∉ s.receivedNumbers keyOf n ch (keyOf event.object) := by
      intro hd
      obtain ⟨e, he, hle, -⟩ := mem_receivedNumbers.mp hd
      exact (h.handed _ he hle).2 hpending
    rw [inOrder_concat_iff hF hnd hrec hn, prefix_concat_iff pairwise_notifiedNumbers (hF _) hmem hnew]
    constructor
    · rintro hall - D hD' k hk hnk K hK hpend heq
      obtain rfl := Option.some.inj (hD.symm.trans hD')
      have hnotified := h.tracked.numbered k K hK
      rw [hpend.1] at hnotified
      obtain ⟨e, he, hle, -⟩ :=
        mem_receivedNumbers.mp (hall k (mem_notifiedNumbers.mpr ⟨hnk, K.event, hnotified, heq⟩) hk)
      exact (h.handed _ he hle).2 ⟨K, hK, hpend⟩
    · intro hfirst k hk hlt
      obtain ⟨hnk, e, hnotified, hek⟩ := mem_notifiedNumbers.mp hk
      rcases h.complete k e hnk hnotified with hc | ⟨K, hK, hpend⟩
      · exact mem_receivedNumbers.mpr ⟨e, hc, hnk, hek⟩
      · have hne := hfirst (waitsFor_eq_some.mpr ⟨_, _, _, hD⟩) _ hD k hlt hnk K hK hpend
        rw [h.tracked.numbered k K hK] at hnotified
        obtain ⟨-, rfl⟩ := Prod.mk.inj (Option.some.inj hnotified)
        exact absurd hek hne
  · -- an event of before the beginning does not count
    refine iff_of_true (fun key => ?_) fun _ D _ k hk hnk => absurd (hnk.trans hk.le) hnd
    rw [receivedNumbers_concat hrec, if_neg fun hnew => hnd hnew.1, List.append_nil, notifiedNumbers, hn]
    exact hF key

theorem inOrder_step_iff (h : s.Follows n objType ch) (hF : s.InOrder keyOf n objType ch)
    (hstay : a ≠ .leave ch) (hstep : s.step a = some s') :
    s'.InOrder keyOf n objType ch ↔ s.HandsEarliest keyOf n objType ch a := by
  obtain ⟨received, hw⟩ := h.watching
  cases transition_of_step hstep with
  | notify =>
      refine iff_of_true (fun key => ?_) trivial
      exact (hF key).trans (notifiedNumbers_mono rfl)
  | rLock _ _ => exact iff_of_true hF trivial
  | @handOver d objType' wType event c rest received' hd hw' =>
      by_cases hc : ch = c
      · subst hc
        obtain ⟨rfl, -, rfl⟩ := Watcher.mk.inj (Option.some.inj (hw'.symm.trans hw))
        obtain rfl := h.objType_eq hd
        exact inOrder_handOver_iff h hF hd (by simp [WatchSystem.received, hw]) rfl
      · refine Iff.trans (inOrder_congr (received_congr (GoMap.get_set_of_ne _ hc _)) rfl) ?_
        refine iff_of_true hF fun hwait => ?_
        obtain ⟨_, _, _, hd'⟩ := waitsFor_eq_some.mp hwait
        rw [hd] at hd'
        obtain ⟨-, -, hrest⟩ := Delivery.mk.inj (Option.some.inj hd')
        exact absurd (List.cons.inj (DeliveryPhase.holding.inj hrest)).1.symm hc
  | rUnlock _ => exact iff_of_true hF trivial
  | connect =>
      refine Iff.trans (inOrder_congr (received_congr (GoMap.get_set_of_ne _ h.ne_nextChan _)) rfl) ?_
      exact iff_of_true hF trivial
  | lock _ _ _ => exact iff_of_true hF trivial
  | @critical c w hget hwriter _ =>
      rw [inOrder_congr (received_congr (watchers_runCritical w (h.ne_writer hwriter)))
        (deliveries_runCritical c w).2]
      exact iff_of_true hF trivial
  | @leave c _ _ _ =>
      have hne : ch ≠ c := by
        rintro rfl
        exact hstay rfl
      refine Iff.trans (inOrder_congr (received_congr (GoMap.get_set_of_ne _ hne _)) rfl) ?_
      exact iff_of_true hF trivial

/-! ## After the last delivery -/

variable (keyOf) in
/-- The events of an object that the watch has received. -/
def receivedEvents (s : WatchSystem O) (n : ℕ) (ch : Chan) (key : String) : List (WatchEvent O) :=
  ((s.received ch).filter fun x => decide (n ≤ x.1) && keyOf x.2.object == key).map Prod.snd

variable (keyOf) in
/-- The events of an object that the informer of the type has produced. -/
def notifiedEvents (s : WatchSystem O) (n : ℕ) (objType : Resource) (key : String) : List (WatchEvent O) :=
  (s.notifiedNumbers keyOf n objType key).filterMap fun i => (s.notified[i]?).map Prod.snd

/-- What has been received of a notification is what it says. -/
theorem receivedEvents_eq (h : s.Follows n objType ch) (key : String) :
    s.receivedEvents keyOf n ch key =
      (s.receivedNumbers keyOf n ch key).filterMap fun i => (s.notified[i]?).map Prod.snd := by
  rw [receivedEvents, receivedNumbers, List.filterMap_map, ← List.filterMap_eq_map]
  refine List.filterMap_congr fun x hx => ?_
  obtain ⟨hmem, hle, -⟩ : x ∈ s.received ch ∧ n ≤ x.1 ∧ keyOf x.2.object = key := by simpa using hx
  simp [(h.handed x hmem hle).1]

/-- Nothing has been received of what is notified from now on. -/
theorem Tracked.inOrder_start (h : s.Tracked) (objType : Resource) (ch : Chan) :
    s.InOrder keyOf s.notified.length objType ch := by
  intro key
  have hnone : s.receivedNumbers keyOf s.notified.length ch key = [] := by
    refine List.eq_nil_iff_forall_not_mem.mpr fun i hi => ?_
    obtain ⟨event, hmem, hle, -⟩ := mem_receivedNumbers.mp hi
    exact absurd (h.past ch _ hmem) (not_lt.mpr hle)
  rw [hnone]
  exact List.nil_prefix

/-- When nothing is on its way any more, a watch that has received in order has received everything. -/
theorem receivedEvents_of_idle (h : s.Follows n objType ch) (hF : s.InOrder keyOf n objType ch)
    (hidle : s.deliveries = ∅) (key : String) :
    s.receivedEvents keyOf n ch key = s.notifiedEvents keyOf n objType key := by
  have hall : ∀ i ∈ s.notifiedNumbers keyOf n objType key, i ∈ s.receivedNumbers keyOf n ch key := by
    intro i hi
    obtain ⟨hle, event, hnotified, hkey⟩ := mem_notifiedNumbers.mp hi
    rcases h.complete i event hle hnotified with hc | ⟨D, hD, -⟩
    · exact mem_receivedNumbers.mpr ⟨event, hc, hle, hkey⟩
    · simp [hidle] at hD
  have hsub : (s.notifiedNumbers keyOf n objType key).length ≤ (s.receivedNumbers keyOf n ch key).length :=
    (List.subperm_of_subset (pairwise_notifiedNumbers.imp ne_of_lt) hall).length_le
  rw [receivedEvents_eq h, (hF key).eq_of_length_le hsub, notifiedEvents]

end Stays

/-- For every schedule from a moment on at which a watch is registered, as long as it does not leave: the
watch receives the events of each object in the order of the notifications exactly if every hand-over to it
is that of the earliest notification of the object that has not reached it.  When the last delivery is
through, the last event it has received of an object is then the last one that the informer produced. -/
theorem events_in_order_iff (keyOf : O → String) {before as : List (SystemAction O)} {s s' : WatchSystem O}
    {objType : Resource} {ch : Chan} {received : List (ℕ × WatchEvent O)}
    (hreach : runSteps step init before = some s)
    (hw : s.watchers.get ch = some ⟨objType, .receiving, received⟩)
    (hstay : ∀ a ∈ as, a ≠ .leave ch) (hrun : runSteps step s as = some s') :
    ((∀ past t, past <+: as → runSteps step s past = some t →
        t.InOrder keyOf s.notified.length objType ch) ↔
      StepsMeet step (HandsEarliest keyOf s.notified.length objType ch) s as) ∧
    (StepsMeet step (HandsEarliest keyOf s.notified.length objType ch) s as → s'.deliveries = ∅ →
      ∀ key, (s'.receivedEvents keyOf s.notified.length ch key).getLast? =
        (s'.notifiedEvents keyOf s.notified.length objType key).getLast?) := by
  have hfollows := (runSteps_invariant tracked_step tracked_init hreach).follows hw
  have hstart : s.InOrder keyOf s.notified.length objType ch := hfollows.tracked.inOrder_start objType ch
  have hiff := forall_prefix_iff_stepsMeet_history
    (I := fun _ t => t.Follows s.notified.length objType ch)
    (F := fun _ t => t.InOrder keyOf s.notified.length objType ch) (fun a => a ≠ .leave ch)
    (fun hP hI _ hstep => follows_step hI hP hstep)
    (fun hP hI hF hstep => inOrder_step_iff hI hF hP hstep) hstay [] hfollows hstart hrun
  refine ⟨hiff, fun hmeet hidle key => ?_⟩
  have hend : s'.Follows s.notified.length objType ch :=
    runSteps_invariant_of_meet (fun hI hP hstep => follows_step hI hP hstep) hfollows
      (stepsMeet_of_forall (fun a ha _ => hstay a ha) s) hrun
  rw [receivedEvents_of_idle hend (hiff.mpr hmeet as s' (List.prefix_refl _) hrun) hidle]

/-- A watch of pods is in its loop. -/
def watchingPods : List (SystemAction String) := [.connect .pod, .lock 0, .critical 0]

/-- What is evaluated of a schedule that follows is so at its ends. -/
theorem exists_watchingPods {β : Type} {as : List (SystemAction String)}
    {view : WatchSystem String → WatchSystem String → β} {v : β}
    (h : ((runSteps step init watchingPods).bind fun s => (runSteps step s as).map (view s)) = some v) :
    ∃ s s', runSteps step init watchingPods = some s ∧ runSteps step s as = some s' ∧ view s s' = v := by
  obtain ⟨s, hs, hrest⟩ := Option.bind_eq_some_iff.mp h
  obtain ⟨s', hs', hend⟩ := Option.map_eq_some_iff.mp hrest
  exact ⟨s, s', hs, hs', hend⟩

/-- A pod is changed twice; both deliveries hold the read lock, and the second comes first. -/
def secondFirst : List (SystemAction String) :=
  [.notify .pod ⟨.modified, "web"⟩, .notify .pod ⟨.deleted, "web"⟩, .rLock 0 .sorted, .rLock 1 .sorted,
    .handOver 1, .handOver 0, .rUnlock 0, .rUnlock 1]

/-- The last event that the watch receives says that the pod is there. -/
theorem deleted_pod_modified_last :
    ∃ s s', runSteps step init watchingPods = some s ∧ runSteps step s secondFirst = some s' ∧
      s.watchers.get 0 = some ⟨.pod, .receiving, []⟩ ∧ s'.deliveries = ∅ ∧
      s'.receivedEvents id s.notified.length 0 "web" = [⟨.deleted, "web"⟩, ⟨.modified, "web"⟩] ∧
      s'.notifiedEvents id s.notified.length .pod "web" = [⟨.modified, "web"⟩, ⟨.deleted, "web"⟩] := by
  have hrun : ((runSteps step init watchingPods).bind fun s => (runSteps step s secondFirst).map fun s' =>
      (s.watchers.get 0, s'.deliveries, s'.receivedEvents id s.notified.length 0 "web",
        s'.notifiedEvents id s.notified.length .pod "web")) =
      some (some ⟨.pod, .receiving, []⟩, ∅, [⟨.deleted, "web"⟩, ⟨.modified, "web"⟩],
        [⟨.modified, "web"⟩, ⟨.deleted, "web"⟩]) := by
    rfl
  obtain ⟨s, s', hs, hs', hend⟩ := exists_watchingPods hrun
  simp only [Prod.mk.injEq] at hend
  exact ⟨s, s', hs, hs', hend⟩

/-- The same two changes, each delivered before the next delivery is served. -/
def firstFirst : List (SystemAction String) :=
  [.notify .pod ⟨.modified, "web"⟩, .notify .pod ⟨.deleted, "web"⟩, .rLock 0 .sorted, .rLock 1 .sorted,
    .handOver 0, .handOver 1, .rUnlock 0, .rUnlock 1]

theorem deleted_pod_deleted_last :
    ∃ s s', runSteps step init watchingPods = some s ∧ runSteps step s firstFirst = some s' ∧
      ∀ key, (s'.receivedEvents id s.notified.length 0 key).getLast? =
        (s'.notifiedEvents id s.notified.length .pod key).getLast? := by
  have hrun : ((runSteps step init watchingPods).bind fun s => (runSteps step s firstFirst).map fun s' =>
      (s.watchers.get 0, s'.deliveries, decide (StepsMeet step
        (HandsEarliest id s.notified.length .pod 0) s firstFirst))) =
      some (some ⟨.pod, .receiving, []⟩, ∅, true) := by
    rfl
  obtain ⟨s, s', hs, hs', hend⟩ := exists_watchingPods hrun
  simp only [Prod.mk.injEq] at hend
  obtain ⟨hw, hidle, hmeet⟩ := hend
  exact ⟨s, s', hs, hs', (events_in_order_iff id hs hw (by simp [firstFirst]) hs').2
    (of_decide_eq_true hmeet) hidle⟩

/-! ## One delivery of an object at a time -/

/-- An object is notified only when no delivery of an earlier change of it is under way. -/
def OneAtATime (keyOf : O → String) (s : WatchSystem O) : SystemAction O → Prop
  | .notify objType event => ∀ d ∈ s.deliveries.keys, ∀ D ∈ s.deliveries.get d,
      D.objType = objType → keyOf D.event.object ≠ keyOf event.object
  | _ => True

instance (keyOf : O → String) (s : WatchSystem O) : ∀ a, Decidable (s.OneAtATime keyOf a)
  | .notify objType event => inferInstanceAs (Decidable (∀ d ∈ s.deliveries.keys, ∀ D ∈ s.deliveries.get d,
      D.objType = objType → keyOf D.event.object ≠ keyOf event.object))
  | .rLock _ _ => .isTrue trivial
  | .handOver _ => .isTrue trivial
  | .rUnlock _ => .isTrue trivial
  | .connect _ => .isTrue trivial
  | .lock _ => .isTrue trivial
  | .critical _ => .isTrue trivial
  | .leave _ => .isTrue trivial

/-- From the notification with number `n` on, there is at most one delivery for each object. -/
def Single (keyOf : O → String) (n : ℕ) (deliveries : GoMap ℕ (Delivery O)) : Prop :=
  ∀ d k D K, n ≤ d → n ≤ k → deliveries.get d = some D → deliveries.get k = some K →
    D.objType = K.objType → keyOf D.event.object = keyOf K.event.object → d = k

section OneAtATime

variable {keyOf : O → String} {s s' : WatchSystem O} {a : SystemAction O} {n : ℕ} {objType : Resource}
  {ch : Chan} {deliveries deliveries' : GoMap ℕ (Delivery O)}

/-- Deliveries that go on or end stay the only ones. -/
theorem Single.mono (h : Single keyOf n deliveries)
    (hsub : ∀ d D, deliveries'.get d = some D → ∃ D', deliveries.get d = some D' ∧
      D'.objType = D.objType ∧ D'.event = D.event) : Single keyOf n deliveries' := by
  intro d k D K hd hk hD hK htype hkey
  obtain ⟨D', hD', htypeD, heventD⟩ := hsub d D hD
  obtain ⟨K', hK', htypeK, heventK⟩ := hsub k K hK
  refine h d k D' K' hd hk hD' hK' ?_ ?_
  · rw [htypeD, htypeK, htype]
  · rw [heventD, heventK, hkey]

/-- A delivery is replaced by itself in another phase. -/
theorem Single.set_phase (h : Single keyOf n deliveries) {d : ℕ} {event : WatchEvent O}
    {phase : DeliveryPhase} (hd : deliveries.get d = some ⟨objType, event, phase⟩) (phase' : DeliveryPhase) :
    Single keyOf n (deliveries.set d ⟨objType, event, phase'⟩) := by
  refine h.mono fun k K hK => ?_
  rcases GoMap.get_set_eq_some.mp hK with ⟨rfl, rfl⟩ | ⟨-, hK⟩
  · exact ⟨_, hd, rfl, rfl⟩
  · exact ⟨K, hK, rfl, rfl⟩

theorem single_step (h : Single keyOf n s.deliveries) (hone : s.OneAtATime keyOf a)
    (hstep : s.step a = some s') : Single keyOf n s'.deliveries := by
  cases transition_of_step hstep with
  | @notify objType event =>
      -- the new delivery meets no older one of its object
      have hnew : ∀ k K, s.deliveries.get k = some K → K.objType = objType →
          keyOf K.event.object ≠ keyOf event.object := fun k K hK =>
        hone k (GoMap.mem_keys_of_get hK) K hK
      intro d k D K hd hk hD hK htype hkey
      rcases GoMap.get_set_eq_some.mp hD with ⟨rfl, rfl⟩ | ⟨-, hD⟩
      · rcases GoMap.get_set_eq_some.mp hK with ⟨rfl, -⟩ | ⟨-, hK⟩
        · rfl
        · exact absurd hkey.symm (hnew k K hK htype.symm)
      · rcases GoMap.get_set_eq_some.mp hK with ⟨rfl, rfl⟩ | ⟨-, hK⟩
        · exact absurd hkey (hnew d D hD htype)
        · exact h d k D K hd hk hD hK htype hkey
  | rLock hd _ => exact h.set_phase hd _
  | handOver hd _ => exact h.set_phase hd _
  | rUnlock _ => exact h.mono fun k K hK => ⟨K, GoMap.get_of_get_delete hK, rfl, rfl⟩
  | connect => exact h
  | lock _ _ _ => exact h
  | @critical c w _ _ _ =>
      rw [(deliveries_runCritical c w).1]
      exact h
  | leave _ => exact h

/-- A hand-over is then that of the only delivery of its object. -/
theorem handsEarliest_of_single (h : s.Follows n objType ch) (hsingle : Single keyOf n s.deliveries)
    (a : SystemAction O) : s.HandsEarliest keyOf n objType ch a := by
  cases a with
  | handOver d =>
      intro hwait D hD k hk hnk K hK hpend hkey
      obtain ⟨objType', event, rest, hd⟩ := waitsFor_eq_some.mp hwait
      obtain rfl := h.objType_eq hd
      obtain rfl := Option.some.inj (hd.symm.trans hD)
      have heq := hsingle d k _ K (hnk.trans hk.le) hnk hd hK hpend.1.symm hkey.symm
      exact absurd heq (ne_of_gt hk)
  | _ => trivial

end OneAtATime

/-- For every schedule from a moment on at which a watch is registered, in which the watch does not leave and
an object is notified again only when the delivery of its last change has ended: the watch receives the events
of each object in the order of the notifications, and when the last delivery is through it has received all of
them. -/
theorem events_in_order_one_at_a_time (keyOf : O → String) {before as : List (SystemAction O)}
    {s s' : WatchSystem O} {objType : Resource} {ch : Chan} {received : List (ℕ × WatchEvent O)}
    (hreach : runSteps step init before = some s)
    (hw : s.watchers.get ch = some ⟨objType, .receiving, received⟩)
    (hstay : ∀ a ∈ as, a ≠ .leave ch) (hone : StepsMeet step (OneAtATime keyOf) s as)
    (hrun : runSteps step s as = some s') :
    s'.InOrder keyOf s.notified.length objType ch ∧ (s'.deliveries = ∅ → ∀ key,
      s'.receivedEvents keyOf s.notified.length ch key =
        s'.notifiedEvents keyOf s.notified.length objType key) := by
  have htracked : s.Tracked := runSteps_invariant tracked_step tracked_init hreach
  have hsingle : Single keyOf s.notified.length s.deliveries := by
    intro d k D K hd _ hD _ _ _
    exact absurd (List.getElem?_eq_some_iff.mp (htracked.numbered d D hD)).1 (not_lt.mpr hd)
  have hend := runSteps_invariant_of_meet
    (I := fun t => t.Follows s.notified.length objType ch ∧ t.InOrder keyOf s.notified.length objType ch ∧
      Single keyOf s.notified.length t.deliveries)
    (fun hI hok hstep => ⟨follows_step hI.1 hok.2 hstep,
      (inOrder_step_iff hI.1 hI.2.1 hok.2 hstep).mpr (handsEarliest_of_single hI.1 hI.2.2 _),
      single_step hI.2.2 hok.1 hstep⟩) ⟨htracked.follows hw, htracked.inOrder_start objType ch, hsingle⟩
    (hone.and_forall hstay) hrun
  exact ⟨hend.2.1, receivedEvents_of_idle hend.1 hend.2.1⟩

/-- The two changes of the pod, the second one notified when the first has been delivered. -/
def inTurn : List (SystemAction String) :=
  [.notify .pod ⟨.modified, "web"⟩, .rLock 0 .sorted, .handOver 0, .rUnlock 0,
    .notify .pod ⟨.deleted, "web"⟩, .rLock 1 .sorted, .handOver 1, .rUnlock 1]

theorem events_in_order_one_at_a_time_pod :
    ∃ s s', runSteps step init watchingPods = some s ∧ runSteps step s inTurn = some s' ∧
      ∀ key, s'.receivedEvents id s.notified.length 0 key =
        s'.notifiedEvents id s.notified.length .pod key := by
  have hrun : ((runSteps step init watchingPods).bind fun s => (runSteps step s inTurn).map fun s' =>
      (s.watchers.get 0, s'.deliveries, decide (StepsMeet step (OneAtATime id) s inTurn))) =
      some (some ⟨.pod, .receiving, []⟩, ∅, true) := by
    rfl
  obtain ⟨s, s', hs, hs', hend⟩ := exists_watchingPods hrun
  simp only [Prod.mk.injEq] at hend
  obtain ⟨hw, hidle, hmeet⟩ := hend
  exact ⟨s, s', hs, hs', (events_in_order_one_at_a_time id hs hw (by simp [inTurn])
    (of_decide_eq_true hmeet) hs').2 hidle⟩

end WatchSystem

end OteStack.EdgeHub
