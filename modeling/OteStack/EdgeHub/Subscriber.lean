/-
# OteStack.EdgeHub.Subscriber — the subscribers of the watch hub.

`ResourceSubscriber` of `pkg/syncer` and how the watch handlers use it.  For every resource type there is a
map from keys to the channels of the watches; a watch registers its channel when it opens and takes it out
when its loop ends.  A chunked watch makes a unique key (`util.GetUniqueId`), and its loop ends when the
server is notified that the client has gone.  A websocket watch takes the current second as its key, and its
loop ends only when an event that has come on its channel cannot be sent: it does not notice that the client
has gone before that.  The maps are made once, by `InitSubscriber`, and not for events.

The maps hold exactly the channels of the open watches as long as no websocket watch is opened in the second
in which an open one of the same type was, since `Add` keeps the channel that is there, and no client of a
websocket watch goes (`subscriptions_exact_iff`).  The end of one watch never takes out the channel of
another (`ending_keeps_others`).
-/
import OteStack.EdgeHub.Storage
import OteStack.Lib.StepSystem

namespace OteStack.EdgeHub

open OteStack.Lib (GoMap runSteps runSteps_invariant StepsMeet forall_prefix_iff_stepsMeet)

/-! ## The maps -/

/-- A channel. -/
abbrev Chan := ℕ

/-- The key of a subscriber.  A unique id has 27 characters and a time in seconds at most 20, so the two
kinds are different texts. -/
inductive SubscriberKey where
  | uniqueId (n : ℕ)
  | unixSeconds (now : ℤ)
  deriving DecidableEq, Repr

/-- `EdgeWatcher`: the subscribers of one type. -/
abbrev EdgeWatcher := GoMap SubscriberKey Chan

/-- `Subscriber`, by the name of the type. -/
abbrev Subscriber := GoMap String EdgeWatcher

/-- The types for which `InitSubscriber` makes a map. -/
def subscribable : List Resource :=
  [.pod, .node, .nodeLease, .endpoint, .service, .namespace, .networkPolicy, .configMap, .secret,
    .csiDriver, .csiNode, .runtimeClass, .csr]

/-- Go's `InitSubscriber`. -/
def initSubscriber : Subscriber := GoMap.ofList (subscribable.map fun r => (r.name, ∅))

namespace Subscriber

/-- The channel under a key of a type; reading a map that is not there answers "not there". -/
def entry (sub : Subscriber) (objType : Resource) (key : SubscriberKey) : Option Chan :=
  (sub.get objType.name).bind fun w => w.get key

/-- Go's `Add`; writing to a map that is not there panics. -/
def add (sub : Subscriber) (objType : Resource) (key : SubscriberKey) (ch : Chan) : Option Subscriber :=
  match sub.entry objType key with
  | some _ => some sub
  | none => (sub.get objType.name).map fun w => sub.set objType.name (w.set key ch)

/-- Go's `Delete`. -/
def delete (sub : Subscriber) (objType : Resource) (key : SubscriberKey) : Subscriber :=
  match sub.get objType.name with
  | none => sub
  | some w => if w.get key = none then sub else sub.set objType.name (w.delete key)

/-- The maps are made empty. -/
theorem entry_initSubscriber (objType : Resource) (key : SubscriberKey) :
    entry initSubscriber objType key = none := by
  by_contra hne
  obtain ⟨ch, hentry⟩ := Option.ne_none_iff_exists'.mp hne
  obtain ⟨w, hw, hch⟩ := Option.bind_eq_some_iff.mp hentry
  obtain ⟨r, -, hr⟩ := List.mem_map.mp (GoMap.mem_of_get_ofList hw)
  obtain rfl : ∅ = w := congrArg Prod.snd hr
  simp at hch

/-- `Add` writes its own entry only, and only if there is none. -/
theorem entry_add {sub sub' : Subscriber} {objType : Resource} {key : SubscriberKey} {ch : Chan}
    (h : sub.add objType key ch = some sub') (objType' : Resource) (key' : SubscriberKey) :
    sub'.entry objType' key' =
      if objType' = objType ∧ key' = key ∧ sub.entry objType key = none then some ch
      else sub.entry objType' key' := by
  unfold add at h
  split at h
  · rename_i ch' hentry
    obtain rfl := Option.some.inj h
    rw [if_neg (by simp [hentry])]
  · rename_i hentry
    obtain ⟨w, hw, rfl⟩ := Option.map_eq_some_iff.mp h
    by_cases htype : objType' = objType
    · subst htype
      simp only [entry, GoMap.get_set_self, hw, Option.bind_some, GoMap.get_set]
      simp only [entry, hw, Option.bind_some] at hentry
      simp [hentry]
    · have hname : objType'.name ≠ objType.name := fun h => htype (Resource.name_injective h)
      rw [if_neg (fun h => htype h.1), entry, entry, GoMap.get_set_of_ne _ hname]

/-- `Delete` removes its own entry only. -/
theorem entry_delete (sub : Subscriber) (objType objType' : Resource) (key key' : SubscriberKey) :
    (sub.delete objType key).entry objType' key' =
      if objType' = objType ∧ key' = key then none else sub.entry objType' key' := by
  unfold delete
  split
  · rename_i hnone
    split
    · rename_i heq
      rw [entry, heq.1, hnone, Option.bind_none]
    · rfl
  · rename_i w hw
    by_cases htype : objType' = objType
    · subst htype
      by_cases hkey : w.get key = none
      · rw [if_pos hkey]
        split
        · rename_i heq
          rw [entry, hw, Option.bind_some, heq.2, hkey]
        · rfl
      · rw [if_neg hkey]
        simp [entry, hw, GoMap.get_delete]
    · have hname : objType'.name ≠ objType.name := fun h => htype (Resource.name_injective h)
      rw [if_neg (fun h : objType' = objType ∧ key' = key => htype h.1)]
      split
      · rfl
      · rw [entry, entry, GoMap.get_set_of_ne _ hname]

end Subscriber

/-! ## Watches that open and close -/

/-- The two kinds of watches; a websocket watch reads the clock. -/
inductive WatchKind where
  | chunked
  | websocket (now : ℤ)
  deriving DecidableEq, Repr

/-- The key of a new watch. -/
def WatchKind.key (kind : WatchKind) (n : ℕ) : SubscriberKey :=
  match kind with
  | .chunked => .uniqueId n
  | .websocket now => .unixSeconds now

/-- The key is that of a websocket watch. -/
def SubscriberKey.ofWebsocket : SubscriberKey → Bool
  | .uniqueId _ => false
  | .unixSeconds _ => true

/-- A watch whose handler has called `Add` for its channel. -/
structure Watch where
  objType : Resource
  key : SubscriberKey
  chan : Chan
  deriving DecidableEq, Repr

/-- The subscribers, the open watches, and the websocket watches whose client has gone while their loop still
waits for an event.  Channels are numbered as they are made, and so are the unique ids. -/
structure WatchHub where
  subscriber : Subscriber
  opened : List Watch
  gone : List Watch
  next : ℕ

/-- A watch opens; the client of the open watch with the given channel goes; or an event comes on the channel
of a websocket watch, and sending it fails. -/
inductive WatchAction where
  | opens (kind : WatchKind) (objType : Resource)
  | closes (ch : Chan)
  | sendFails (ch : Chan)
  deriving DecidableEq, Repr

namespace WatchHub

/-- Before the first watch. -/
def init : WatchHub := ⟨initSubscriber, [], [], 0⟩

/-- The watches whose loops run. -/
def loops (s : WatchHub) : List Watch := s.opened ++ s.gone

/-- The channel of the watch is in the map. -/
def Subscribed (s : WatchHub) (w : Watch) : Prop := s.subscriber.entry w.objType w.key = some w.chan

instance (s : WatchHub) (w : Watch) : Decidable (s.Subscribed w) := inferInstanceAs (Decidable (_ = _))

/-- A watch opens.  If `Add` panics, the server drops the connection. -/
def openWatch (s : WatchHub) (kind : WatchKind) (objType : Resource) : WatchHub :=
  match s.subscriber.add objType (kind.key s.next) s.next with
  | none => { s with next := s.next + 1 }
  | some sub => { s with
      subscriber := sub
      opened := ⟨objType, kind.key s.next, s.next⟩ :: s.opened
      next := s.next + 1 }

/-- The loop of a watch ends, with the `Delete` after it. -/
def endLoop (s : WatchHub) (w : Watch) : WatchHub :=
  { s with
    subscriber := s.subscriber.delete w.objType w.key
    opened := s.opened.erase w
    gone := s.gone.erase w }

/-- The client of a watch goes.  `doChunkWatch` is notified; `doWebsocketWatch` goes on waiting for events. -/
def closeWatch (s : WatchHub) (w : Watch) : WatchHub :=
  if w.key.ofWebsocket then { s with opened := s.opened.erase w, gone := w :: s.gone } else s.endLoop w

/-- One move.  An event comes on a channel only if that is in the map. -/
def step (s : WatchHub) : WatchAction → Option WatchHub
  | .opens kind objType => some (s.openWatch kind objType)
  | .closes ch => (s.opened.find? fun w => w.chan == ch).map s.closeWatch
  | .sendFails ch =>
      (s.loops.find? fun w => w.chan == ch).bind fun w =>
        if w.key.ofWebsocket ∧ s.Subscribed w then some (s.endLoop w) else none

/-- What each move needs, and what it makes of the hub. -/
inductive Transition (s : WatchHub) : WatchAction → WatchHub → Prop where
  | opens (kind : WatchKind) (objType : Resource) :
      Transition s (.opens kind objType) (s.openWatch kind objType)
  | notified {w : Watch} (hw : w ∈ s.opened) (hkey : w.key.ofWebsocket = false) :
      Transition s (.closes w.chan) (s.endLoop w)
  | unnoticed {w : Watch} (hw : w ∈ s.opened) (hkey : w.key.ofWebsocket = true) :
      Transition s (.closes w.chan) { s with opened := s.opened.erase w, gone := w :: s.gone }
  | sendFails {w : Watch} (hw : w ∈ s.loops) (hkey : w.key.ofWebsocket = true) (hsub : s.Subscribed w) :
      Transition s (.sendFails w.chan) (s.endLoop w)

variable {s s' : WatchHub} {a : WatchAction}

theorem transition_of_step (hstep : s.step a = some s') : Transition s a s' := by
  cases a with
  | opens kind objType =>
      obtain rfl := Option.some.inj hstep
      exact .opens kind objType
  | closes ch =>
      obtain ⟨w, hfind, rfl⟩ := Option.map_eq_some_iff.mp hstep
      have hw := List.mem_of_find?_eq_some hfind
      obtain rfl : w.chan = ch := by simpa using List.find?_some hfind
      unfold closeWatch
      split
      · exact .unnoticed hw ‹_›
      · rename_i hkey
        exact .notified hw (Bool.eq_false_iff.mpr hkey)
  | sendFails ch =>
      obtain ⟨w, hfind, hend⟩ := Option.bind_eq_some_iff.mp hstep
      have hw := List.mem_of_find?_eq_some hfind
      obtain rfl : w.chan = ch := by simpa using List.find?_some hfind
      obtain ⟨⟨hkey, hsub⟩, hs'⟩ := Option.ite_none_right_eq_some.mp hend
      obtain rfl := Option.some.inj hs'
      exact .sendFails hw hkey hsub

/-! ## Who owns an entry -/

/-- What is in the maps was put there by a watch whose loop runs, and every watch has a channel of its own. -/
structure Sound (s : WatchHub) : Prop where
  owned : ∀ objType key ch, s.subscriber.entry objType key = some ch → ⟨objType, key, ch⟩ ∈ s.loops
  chan_lt : ∀ w ∈ s.loops, w.chan < s.next
  chan_inj : ∀ w ∈ s.loops, ∀ w' ∈ s.loops, w.chan = w'.chan → w = w'
  nodup : s.loops.Nodup
  uniqueId : ∀ w ∈ s.loops, ∀ n, w.key = .uniqueId n → w.chan = n

theorem mem_loops_of_opened {w : Watch} (hw : w ∈ s.opened) : w ∈ s.loops := List.mem_append_left _ hw

theorem mem_loops_of_gone {w : Watch} (hw : w ∈ s.gone) : w ∈ s.loops := List.mem_append_right _ hw

theorem sound_init : init.Sound := by
  refine ⟨?_, by simp [init, loops], by simp [init, loops], by simp [init, loops], by simp [init, loops]⟩
  intro objType key ch hentry
  rw [init, Subscriber.entry_initSubscriber] at hentry
  cases hentry

/-- A new watch is sound whatever its key: an old entry stays. -/
theorem sound_openWatch (hs : s.Sound) (kind : WatchKind) (objType : Resource) :
    (s.openWatch kind objType).Sound := by
  unfold openWatch
  split
  · exact ⟨hs.owned, fun w hw => Nat.lt_succ_of_lt (hs.chan_lt w hw), hs.chan_inj, hs.nodup, hs.uniqueId⟩
  · rename_i sub hadd
    have hnew : ∀ w ∈ s.loops, w.chan ≠ s.next := fun w hw => (hs.chan_lt w hw).ne
    refine ⟨?_, ?_, ?_, ?_, ?_⟩
    · intro objType' key' ch hentry
      rw [Subscriber.entry_add hadd] at hentry
      split at hentry
      · rename_i heq
        obtain ⟨rfl, rfl, -⟩ := heq
        obtain rfl := Option.some.inj hentry
        exact List.mem_cons_self
      · exact List.mem_cons_of_mem _ (hs.owned _ _ _ hentry)
    · intro w hw
      rcases List.mem_cons.mp hw with rfl | hw
      · exact Nat.lt_succ_self _
      · exact Nat.lt_succ_of_lt (hs.chan_lt w hw)
    · intro w hw w' hw' heq
      rcases List.mem_cons.mp hw with rfl | hw
      · rcases List.mem_cons.mp hw' with rfl | hw'
        · rfl
        · exact absurd heq.symm (hnew w' hw')
      · rcases List.mem_cons.mp hw' with rfl | hw'
        · exact absurd heq (hnew w hw)
        · exact hs.chan_inj w hw w' hw' heq
    · exact List.nodup_cons.mpr ⟨fun hmem => hnew _ hmem rfl, hs.nodup⟩
    · intro w hw n hkey
      rcases List.mem_cons.mp hw with rfl | hw
      · cases kind with
        | chunked => exact SubscriberKey.uniqueId.inj hkey
        | websocket now => cases hkey
      · exact hs.uniqueId w hw n hkey

/-- A step that leaves the loops but for some that end, and no entry of one that ends. -/
theorem Sound.of_subset (hs : s.Sound) (hsub : s'.loops ⊆ s.loops) (hnodup : s'.loops.Nodup)
    (hnext : s'.next = s.next)
    (howned : ∀ objType key ch,
      s'.subscriber.entry objType key = some ch → ⟨objType, key, ch⟩ ∈ s'.loops) : s'.Sound where
  owned := howned
  chan_lt w hw := hnext ▸ hs.chan_lt w (hsub hw)
  chan_inj w hw w' hw' := hs.chan_inj w (hsub hw) w' (hsub hw')
  nodup := hnodup
  uniqueId w hw := hs.uniqueId w (hsub hw)

/-- Loops that are left when one has ended. -/
theorem mem_loops_endLoop (hs : s.Sound) {w w' : Watch} :
    w' ∈ (s.endLoop w).loops ↔ w' ≠ w ∧ w' ∈ s.loops := by
  have hopened : s.opened.Nodup := (List.nodup_append.mp hs.nodup).1
  have hgone : s.gone.Nodup := (List.nodup_append.mp hs.nodup).2.1
  simp only [loops, endLoop, List.mem_append, hopened.mem_erase_iff, hgone.mem_erase_iff]
  tauto

theorem sound_endLoop (hs : s.Sound) (w : Watch) : (s.endLoop w).Sound := by
  refine hs.of_subset (fun w' hw' => ((mem_loops_endLoop hs).mp hw').2) ?_ rfl ?_
  · obtain ⟨hopened, hgone, hdisj⟩ := List.nodup_append.mp hs.nodup
    refine List.nodup_append.mpr ⟨hopened.erase w, hgone.erase w, fun w₁ h₁ w₂ h₂ => ?_⟩
    exact hdisj w₁ (List.mem_of_mem_erase h₁) w₂ (List.mem_of_mem_erase h₂)
  · intro objType key ch hentry
    simp only [endLoop, Subscriber.entry_delete] at hentry
    split at hentry
    · cases hentry
    · rename_i hne
      refine (mem_loops_endLoop hs).mpr ⟨?_, hs.owned _ _ _ hentry⟩
      rintro rfl
      exact hne ⟨rfl, rfl⟩

/-- The loop of a websocket watch whose client has gone still runs. -/
theorem perm_loops_unnoticed {w : Watch} (hw : w ∈ s.opened) :
    (s.opened.erase w ++ w :: s.gone).Perm s.loops :=
  List.perm_middle.trans ((List.perm_cons_erase hw).symm.append_right s.gone)

theorem sound_step (hs : s.Sound) (hstep : s.step a = some s') : s'.Sound := by
  cases transition_of_step hstep with
  | opens kind objType => exact sound_openWatch hs kind objType
  | notified _ _ => exact sound_endLoop hs _
  | unnoticed hw _ =>
      have hperm := perm_loops_unnoticed hw
      exact hs.of_subset hperm.subset (hperm.nodup_iff.mpr hs.nodup) rfl fun objType key ch hentry =>
        hperm.mem_iff.mpr (hs.owned objType key ch hentry)
  | sendFails _ _ _ => exact sound_endLoop hs _

/-- What a watch finds under its key is its own channel, if it has a unique id. -/
theorem Sound.subscribed_of_uniqueId (hs : s.Sound) {w : Watch} (hw : w ∈ s.loops)
    (hkey : w.key.ofWebsocket = false) {ch : Chan} (hentry : s.subscriber.entry w.objType w.key = some ch) :
    ch = w.chan := by
  cases hk : w.key with
  | unixSeconds now =>
      rw [hk] at hkey
      cases hkey
  | uniqueId n =>
      have hown := hs.uniqueId _ (hs.owned _ _ _ hentry) n hk
      rw [hs.uniqueId w hw n hk]
      exact hown

/-- The end of a loop takes out the channel of its own watch, and no other. -/
theorem entry_endLoop_of_ne {w : Watch} {objType : Resource} {key : SubscriberKey} {ch : Chan}
    (hown : ∀ ch, s.subscriber.entry w.objType w.key = some ch → ch = w.chan) (hne : ch ≠ w.chan)
    (hentry : s.subscriber.entry objType key = some ch) :
    (s.endLoop w).subscriber.entry objType key = some ch := by
  simp only [endLoop, Subscriber.entry_delete]
  rw [if_neg, hentry]
  rintro ⟨rfl, rfl⟩
  exact hne (hown ch hentry)

/-- In every run, a watch that is closed or whose loop ends takes no other channel out of the maps. -/
theorem ending_keeps_others {as : List WatchAction} {ch ch' : Chan} {objType : Resource} {key : SubscriberKey}
    (hrun : runSteps step init as = some s) (ha : a = .closes ch ∨ a = .sendFails ch)
    (hstep : s.step a = some s') (hentry : s.subscriber.entry objType key = some ch') (hne : ch' ≠ ch) :
    s'.subscriber.entry objType key = some ch' := by
  have hs : s.Sound := runSteps_invariant (fun h hstep => sound_step h hstep) sound_init hrun
  cases transition_of_step hstep with
  | opens kind objType => simp at ha
  | @notified w hw hkey =>
      obtain rfl : w.chan = ch := by simpa using ha
      have hown : ∀ c, s.subscriber.entry w.objType w.key = some c → c = w.chan := fun _ =>
        hs.subscribed_of_uniqueId (mem_loops_of_opened hw) hkey
      exact entry_endLoop_of_ne hown hne hentry
  | unnoticed _ _ => exact hentry
  | @sendFails w hw hkey hsub =>
      obtain rfl : w.chan = ch := by simpa using ha
      have hown : ∀ c, s.subscriber.entry w.objType w.key = some c → c = w.chan := fun c hc =>
        (Option.some.inj (hsub.symm.trans hc)).symm
      exact entry_endLoop_of_ne hown hne hentry

/-! ## Exactly the open watches -/

/-- The map of the type holds exactly the channels of the watches that are open on it. -/
def ExactAt (s : WatchHub) (objType : Resource) : Prop :=
  ∀ ch, (∃ key, s.subscriber.entry objType key = some ch) ↔
    ∃ w ∈ s.opened, w.objType = objType ∧ w.chan = ch

/-- Every open watch is subscribed under its key, and no other one is. -/
structure Complete (s : WatchHub) : Prop where
  opened : ∀ w ∈ s.opened, s.Subscribed w
  gone : ∀ w ∈ s.gone, ¬ s.Subscribed w

/-- A watch that opens on a websocket does so in a second in which no open one of its type was opened, and
the client of a websocket watch does not go. -/
def OwnSecondUntilEnd (s : WatchHub) : WatchAction → Prop
  | .opens (.websocket now) objType =>
      ∀ w ∈ s.opened, ¬ (w.objType = objType ∧ w.key = .unixSeconds now)
  | .opens .chunked _ => True
  | .closes ch => ∀ w ∈ s.opened, w.chan = ch → w.key.ofWebsocket = false
  | .sendFails _ => True

instance (s : WatchHub) : ∀ a, Decidable (s.OwnSecondUntilEnd a)
  | .opens (.websocket now) objType =>
      inferInstanceAs (Decidable (∀ w ∈ s.opened, ¬ (w.objType = objType ∧ w.key = .unixSeconds now)))
  | .opens .chunked _ => .isTrue trivial
  | .closes ch => inferInstanceAs (Decidable (∀ w ∈ s.opened, w.chan = ch → w.key.ofWebsocket = false))
  | .sendFails _ => .isTrue trivial

/-- No watch is both open and closed. -/
theorem Sound.not_mem_gone (hs : s.Sound) {w : Watch} (hw : w ∈ s.opened) : w ∉ s.gone :=
  fun hgone => (List.nodup_append.mp hs.nodup).2.2 w hw w hgone rfl

theorem complete_iff_exact (hs : s.Sound) : s.Complete ↔ ∀ objType, s.ExactAt objType := by
  constructor
  · intro h objType ch
    constructor
    · rintro ⟨key, hentry⟩
      rcases List.mem_append.mp (hs.owned objType key ch hentry) with hw | hw
      · exact ⟨_, hw, rfl, rfl⟩
      · exact absurd hentry (h.gone _ hw)
    · rintro ⟨w, hw, rfl, rfl⟩
      exact ⟨w.key, h.opened w hw⟩
  · intro h
    refine ⟨fun w hw => ?_, fun w hw hsub => ?_⟩
    · obtain ⟨key, hentry⟩ := (h w.objType w.chan).mpr ⟨w, hw, rfl, rfl⟩
      -- the watch that put the channel there is this one
      have heq := hs.chan_inj _ (hs.owned _ _ _ hentry) w (mem_loops_of_opened hw) rfl
      have hkey : key = w.key := congrArg Watch.key heq
      rw [Subscribed, ← hkey]
      exact hentry
    · obtain ⟨w', hw', -, hchan⟩ := (h w.objType w.chan).mp ⟨w.key, hsub⟩
      have heq := hs.chan_inj w' (mem_loops_of_opened hw') w (mem_loops_of_gone hw) hchan
      exact hs.not_mem_gone hw' (heq ▸ hw)

/-- The key under which a watch is about to register is taken only if its second is. -/
theorem entry_key_eq_none_iff (hs : s.Sound) (hc : s.Complete) (kind : WatchKind) (objType : Resource) :
    s.subscriber.entry objType (kind.key s.next) = none ↔ s.OwnSecondUntilEnd (.opens kind objType) := by
  cases kind with
  | chunked =>
      refine iff_of_true ?_ trivial
      by_contra hne
      obtain ⟨ch, hch⟩ := Option.ne_none_iff_exists'.mp hne
      have hown := hs.owned _ _ _ hch
      exact absurd (hs.chan_lt _ hown) (not_lt_of_ge (hs.uniqueId _ hown _ rfl).ge)
  | websocket now =>
      constructor
      · rintro hnone w hw ⟨rfl, hkey⟩
        have hentry : s.subscriber.entry w.objType w.key = some w.chan := hc.opened w hw
        rw [hkey] at hentry
        exact absurd (hentry.symm.trans hnone) (by simp)
      · intro h
        by_contra hne
        obtain ⟨ch, hch⟩ := Option.ne_none_iff_exists'.mp hne
        rcases List.mem_append.mp (hs.owned _ _ _ hch) with hw | hw
        · exact h _ hw ⟨rfl, rfl⟩
        · exact hc.gone _ hw hch

theorem complete_openWatch_iff (hs : s.Sound) (hc : s.Complete) (kind : WatchKind) (objType : Resource) :
    (s.openWatch kind objType).Complete ↔ s.OwnSecondUntilEnd (.opens kind objType) := by
  rw [← entry_key_eq_none_iff hs hc]
  unfold openWatch
  split
  · -- `Add` panics only where there is no map
    rename_i hadd
    refine iff_of_true ⟨hc.opened, hc.gone⟩ ?_
    unfold Subscriber.add at hadd
    split at hadd
    · cases hadd
    · assumption
  · rename_i sub hadd
    constructor
    · intro h
      have hentry := h.opened _ List.mem_cons_self
      rw [Subscribed, Subscriber.entry_add hadd] at hentry
      split at hentry
      · rename_i heq
        exact heq.2.2
      · exact absurd (hs.chan_lt _ (hs.owned _ _ _ hentry)) (lt_irrefl _)
    · intro hnone
      -- the entries of the other watches are those of before
      have hother : ∀ w ∈ s.loops, s.Subscribed w ↔ sub.entry w.objType w.key = some w.chan := by
        intro w hw
        rw [Subscriber.entry_add hadd]
        split
        · rename_i heq
          obtain ⟨htype, hkey, -⟩ := heq
          rw [Subscribed, htype, hkey, hnone]
          exact iff_of_false (by simp) fun h => (hs.chan_lt w hw).ne' (Option.some.inj h)
        · exact Iff.rfl
      refine ⟨fun w hw => ?_, fun w hw hsub => ?_⟩
      · rcases List.mem_cons.mp hw with rfl | hw
        · rw [Subscribed, Subscriber.entry_add hadd, if_pos ⟨rfl, rfl, hnone⟩]
        · exact (hother w (mem_loops_of_opened hw)).mp (hc.opened w hw)
      · exact hc.gone w hw ((hother w (mem_loops_of_gone hw)).mpr hsub)

/-- The end of a loop whose watch is open and subscribed keeps the maps exact. -/
theorem complete_endLoop (hs : s.Sound) (hc : s.Complete) {w : Watch} (hw : w ∈ s.opened) :
    (s.endLoop w).Complete := by
  have hopened : s.opened.Nodup := (List.nodup_append.mp hs.nodup).1
  have hown : ∀ ch, s.subscriber.entry w.objType w.key = some ch → ch = w.chan := fun ch hch =>
    (Option.some.inj ((hc.opened w hw).symm.trans hch)).symm
  refine ⟨fun w' hw' => ?_, fun w' hw' hsub => ?_⟩
  · obtain ⟨hne, hmem⟩ := hopened.mem_erase_iff.mp hw'
    refine entry_endLoop_of_ne hown (fun heq => hne ?_) (hc.opened w' hmem)
    exact hs.chan_inj w' (mem_loops_of_opened hmem) w (mem_loops_of_opened hw) heq
  · refine hc.gone w' (List.mem_of_mem_erase hw') ?_
    simp only [Subscribed, endLoop, Subscriber.entry_delete] at hsub
    split at hsub
    · cases hsub
    · exact hsub

theorem exact_step_iff (hs : s.Sound) (hF : ∀ objType, s.ExactAt objType) (hstep : s.step a = some s') :
    (∀ objType, s'.ExactAt objType) ↔ s.OwnSecondUntilEnd a := by
  have hc := (complete_iff_exact hs).mpr hF
  rw [← complete_iff_exact (sound_step hs hstep)]
  cases transition_of_step hstep with
  | opens kind objType => exact complete_openWatch_iff hs hc kind objType
  | @notified w hw hkey =>
      refine iff_of_true (complete_endLoop hs hc hw) fun w' hw' hchan => ?_
      rw [hs.chan_inj w' (mem_loops_of_opened hw') w (mem_loops_of_opened hw) hchan]
      exact hkey
  | @unnoticed w hw hkey =>
      refine iff_of_false (fun h => ?_) fun h => ?_
      · exact h.gone w List.mem_cons_self (hc.opened w hw)
      · rw [h w hw rfl] at hkey
        cases hkey
  | @sendFails w hw _ hsub =>
      refine iff_of_true ?_ trivial
      rcases List.mem_append.mp hw with hw | hw
      · exact complete_endLoop hs hc hw
      · exact absurd hsub (hc.gone w hw)

/-- For every sequence of watches that open, are closed by their clients or end because an event cannot be
sent: after each step the map of every type holds exactly the channels of the watches open on it, exactly
when every websocket watch opens in a second in which no open one of its type was opened and no client of a
websocket watch goes. -/
theorem subscriptions_exact_iff {as : List WatchAction} {s' : WatchHub}
    (hrun : runSteps step init as = some s') :
    (∀ bs t, bs <+: as → runSteps step init bs = some t → ∀ objType, t.ExactAt objType) ↔
      StepsMeet step OwnSecondUntilEnd init as := by
  have hstart : ∀ objType, init.ExactAt objType :=
    (complete_iff_exact sound_init).mp ⟨by simp [init], by simp [init]⟩
  exact forall_prefix_iff_stepsMeet (I := Sound) (F := fun t => ∀ objType, t.ExactAt objType)
    (fun hI _ hstep => sound_step hI hstep) (fun hI hF hstep => exact_step_iff hI hF hstep) sound_init hstart
    hrun

/-- Two websocket watches of pods open in the same second: both are open, and only the first one is
subscribed. -/
theorem second_watch_not_subscribed :
    ∃ s, runSteps step init [.opens (.websocket 7) .pod, .opens (.websocket 7) .pod] = some s ∧
      s.opened.map Watch.chan = [1, 0] ∧ ¬ s.ExactAt .pod := by
  obtain ⟨s, hs, hopened, hentry⟩ : ∃ s,
      runSteps step init [.opens (.websocket 7) .pod, .opens (.websocket 7) .pod] = some s ∧
        s.opened = [⟨.pod, .unixSeconds 7, 1⟩, ⟨.pod, .unixSeconds 7, 0⟩] ∧
        s.subscriber.entry .pod (.unixSeconds 7) = some 0 := ⟨_, rfl, by decide, by decide⟩
  refine ⟨s, hs, by rw [hopened]; rfl, fun hexact => ?_⟩
  have hsound : s.Sound := runSteps_invariant (fun h hstep => sound_step h hstep) sound_init hs
  obtain ⟨key, hkey⟩ := (hexact 1).mpr ⟨⟨.pod, .unixSeconds 7, 1⟩, by simp [hopened], rfl, rfl⟩
  -- the second watch could only be under the key that the first one has
  have hown := hsound.chan_inj _ (hsound.owned _ _ _ hkey) ⟨.pod, .unixSeconds 7, 1⟩
    (mem_loops_of_opened (by simp [hopened])) rfl
  obtain rfl : key = .unixSeconds 7 := congrArg Watch.key hown
  rw [hentry] at hkey
  cases hkey

/-- The client of a websocket watch goes: no watch is open, and its channel stays in the map until an event
that it cannot send comes. -/
example : ((runSteps step init [.opens (.websocket 7) .pod, .closes 0]).map fun s =>
    (s.opened, s.subscriber.entry .pod (.unixSeconds 7))) = some ([], some 0) ∧
    ((runSteps step init [.opens (.websocket 7) .pod, .closes 0, .sendFails 0]).map fun s =>
      s.subscriber.entry .pod (.unixSeconds 7)) = some none := by
  decide

/-- Watches of both kinds, two of them in one second but of different types.  The first one ends because an
event cannot be sent, and another one opens in its second. -/
def threeWatches : List WatchAction :=
  [.opens (.websocket 7) .pod, .opens .chunked .pod, .opens (.websocket 7) .node, .sendFails 0,
    .opens (.websocket 7) .pod, .closes 1]

/-- The end of one of them leaves the others subscribed. -/
theorem subscriptions_exact_three :
    ∃ s, runSteps step init threeWatches = some s ∧ s.ExactAt .pod ∧
      s.opened.map Watch.chan = [3, 2] := by
  obtain ⟨s, hs, hopened⟩ : ∃ s, runSteps step init threeWatches = some s ∧
      s.opened.map Watch.chan = [3, 2] := ⟨_, rfl, by decide⟩
  have hall := (subscriptions_exact_iff hs).mpr (by decide)
  exact ⟨s, hs, hall _ s (List.prefix_refl _) hs .pod, hopened⟩

/-! ## Types without a map -/

/-- The maps are those of `InitSubscriber`, and only their types have watches. -/
def Served (s : WatchHub) : Prop :=
  (∀ r : Resource, s.subscriber.get r.name ≠ none → r ∈ subscribable) ∧
    ∀ w ∈ s.loops, w.objType ∈ subscribable

theorem served_init : init.Served := by
  refine ⟨?_, by simp [init, loops]⟩
  intro r hr
  obtain ⟨w, hw⟩ := Option.ne_none_iff_exists'.mp hr
  obtain ⟨r', hr', heq⟩ := List.mem_map.mp (GoMap.mem_of_get_ofList hw)
  rw [← Resource.name_injective (congrArg Prod.fst heq)]
  exact hr'

theorem served_openWatch (h : s.Served) (kind : WatchKind) (objType : Resource) :
    (s.openWatch kind objType).Served := by
  unfold openWatch Subscriber.add
  split
  · exact h
  · rename_i sub hadd
    -- the map of the type is there, and stays the only one that changes
    have hmap : s.subscriber.get objType.name ≠ none ∧
        ∀ r : Resource, sub.get r.name ≠ none → s.subscriber.get r.name ≠ none := by
      split at hadd
      · rename_i ch hentry
        obtain rfl := Option.some.inj hadd
        obtain ⟨w, hw, -⟩ := Option.bind_eq_some_iff.mp hentry
        exact ⟨by simp [hw], fun _ => id⟩
      · obtain ⟨w, hw, rfl⟩ := Option.map_eq_some_iff.mp hadd
        refine ⟨by simp [hw], fun r hr => ?_⟩
        rcases GoMap.get_set_ne_none.mp hr with heq | hr
        · simp [heq, hw]
        · exact hr
    refine ⟨fun r hr => h.1 r (hmap.2 r hr), fun w hw => ?_⟩
    rcases List.mem_cons.mp hw with rfl | hw
    · exact h.1 _ hmap.1
    · exact h.2 w hw

theorem served_endLoop (h : s.Served) (w : Watch) : (s.endLoop w).Served := by
  refine ⟨fun r hr => h.1 r ?_, fun w' hw' => h.2 w' ?_⟩
  · simp only [endLoop, Subscriber.delete] at hr
    split at hr
    · exact hr
    · rename_i wmap hwmap
      split at hr
      · exact hr
      · rcases GoMap.get_set_ne_none.mp hr with heq | hr
        · simp [heq, hwmap]
        · exact hr
  · rcases List.mem_append.mp hw' with hw' | hw'
    · exact mem_loops_of_opened (List.mem_of_mem_erase hw')
    · exact mem_loops_of_gone (List.mem_of_mem_erase hw')

theorem served_step (h : s.Served) (hstep : s.step a = some s') : s'.Served := by
  cases transition_of_step hstep with
  | opens kind objType => exact served_openWatch h kind objType
  | notified _ _ => exact served_endLoop h _
  | unnoticed hw _ => exact ⟨h.1, fun w' hw' => h.2 w' ((perm_loops_unnoticed hw).mem_iff.mp hw')⟩
  | sendFails _ _ _ => exact served_endLoop h _

/-- No watch of events is ever open: there is a handler, and `Add` panics. -/
theorem no_open_event_watch {as : List WatchAction} (hrun : runSteps step init as = some s) :
    ∀ w ∈ s.opened, w.objType ≠ .event := by
  intro w hw heq
  have hmem := (runSteps_invariant (I := Served) served_step served_init hrun).2 w (mem_loops_of_opened hw)
  rw [heq] at hmem
  exact absurd hmem (by decide)

end WatchHub

end OteStack.EdgeHub
