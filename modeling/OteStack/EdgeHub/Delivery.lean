/-
# OteStack.EdgeHub.Delivery — deliveries, chunked watches and the lock between them.

`syncToNode` of `pkg/syncer` and `doChunkWatch` of `pkg/server/handler`.  Every notification of an informer
starts a delivery: it takes the read lock of the subscribers, hands the event over on the channel of each
of them in turn, and releases the lock.  The channels are unbuffered, so a hand-over waits until the watch
is back in its loop.  A watch registers and unregisters under the write lock; a writer that waits keeps new
readers out.

An action is one move of one party, or a hand-over.  Writing an event to the client is part of receiving
it.  Whether a client is gone is up to the schedule.

A delivery can wait for a watch that has left its loop (`handOvers_met_iff` says when it does not), and
then nothing that needs the write lock ever happens again (`stuck_forever`): the watch waits for the lock
that the delivery holds.
-/
import Mathlib.Data.Prod.Lex
import OteStack.EdgeHub.Subscriber
import OteStack.EdgeHub.WatchFilter

namespace OteStack.EdgeHub

open OteStack.Lib (GoMap MapOrder runSteps runSteps_invariant StepsMeet forall_prefix_iff_stepsMeet exists_run)

variable {O : Type}

/-! ## The parties -/

/-- The kind of a key and its number. -/
def SubscriberKey.rank : SubscriberKey → Bool × ℤ
  | uniqueId n => (false, Int.ofNat n)
  | unixSeconds now => (true, now)

theorem SubscriberKey.rank_injective : Function.Injective rank := by
  rintro (n | now) (n' | now') h
  · exact congrArg uniqueId (Int.ofNat.inj (Prod.mk.inj h).2)
  · cases (Prod.mk.inj h).1
  · cases (Prod.mk.inj h).1
  · exact congrArg unixSeconds (Prod.mk.inj h).2

instance : LinearOrder SubscriberKey :=
  LinearOrder.lift' (fun k => toLex k.rank) fun _ _ h =>
    SubscriberKey.rank_injective (toLex.injective h)

/-- The channels of a type, in the order in which `range` visits them. -/
def Subscriber.channels (sub : Subscriber) (it : MapOrder SubscriberKey) (objType : Resource) : List Chan :=
  match sub.get objType.name with
  | none => []
  | some w => (it.order w).filterMap w.get

/-- Where a chunked watch is: before `Add`, in its loop, or before `Delete`. -/
inductive WatcherPhase where
  | registering
  | receiving
  | left
  deriving DecidableEq, Repr

/-- A chunked watch, with the events it has received and the numbers of their notifications. -/
structure Watcher (O : Type) where
  objType : Resource
  phase : WatcherPhase
  received : List (ℕ × WatchEvent O)

/-- Where a delivery is: before `RLock`, or with the channels it has still to serve. -/
inductive DeliveryPhase where
  | started
  | holding (rest : List Chan)
  deriving DecidableEq, Repr

/-- A delivery. -/
structure Delivery (O : Type) where
  objType : Resource
  event : WatchEvent O
  phase : DeliveryPhase

/-- The watch hub, and the notifications of the informers so far.  Watches are known by their channels,
deliveries by the numbers of their notifications.  `writer` is the watch that has called `Lock` and keeps
new readers out. -/
structure WatchSystem (O : Type) where
  subscriber : Subscriber
  watchers : GoMap Chan (Watcher O)
  deliveries : GoMap ℕ (Delivery O)
  writer : Option Chan
  nextChan : Chan
  notified : List (Resource × WatchEvent O)

/-- The moves. -/
inductive SystemAction (O : Type) where
  | notify (objType : Resource) (event : WatchEvent O)
  | rLock (d : ℕ) (it : MapOrder SubscriberKey)
  | handOver (d : ℕ)
  | rUnlock (d : ℕ)
  | connect (objType : Resource)
  | lock (ch : Chan)
  | critical (ch : Chan)
  | leave (ch : Chan)

namespace WatchSystem

/-- Before the first watch. -/
def init : WatchSystem O := ⟨initSubscriber, ∅, ∅, none, 0, []⟩

/-- No delivery holds the read lock. -/
def Unread (s : WatchSystem O) : Prop :=
  ∀ d ∈ s.deliveries.keys, (s.deliveries.get d).map Delivery.phase = some .started

instance (s : WatchSystem O) : Decidable s.Unread :=
  inferInstanceAs (Decidable (∀ d ∈ s.deliveries.keys, _ = _))

/-- A watch with the write lock: it registers, or unregisters and is done.  If `Add` panics, the lock is
released and the server drops the connection. -/
def runCritical (s : WatchSystem O) (ch : Chan) (w : Watcher O) : WatchSystem O :=
  match w.phase with
  | .registering =>
      match s.subscriber.add w.objType (.uniqueId ch) ch with
      | none => { s with watchers := s.watchers.delete ch, writer := none }
      | some sub =>
          { s with
            subscriber := sub
            watchers := s.watchers.set ch { w with phase := .receiving }
            writer := none }
  | _ =>
      { s with
        subscriber := s.subscriber.delete w.objType (.uniqueId ch)
        watchers := s.watchers.delete ch
        writer := none }

/-- One move. -/
def step (s : WatchSystem O) : SystemAction O → Option (WatchSystem O)
  | .notify objType event =>
      some { s with
        deliveries := s.deliveries.set s.notified.length ⟨objType, event, .started⟩
        notified := s.notified ++ [(objType, event)] }
  | .rLock d it =>
      match s.deliveries.get d, s.writer with
      | some ⟨objType, event, .started⟩, none =>
          some { s with
            deliveries := s.deliveries.set d ⟨objType, event, .holding (s.subscriber.channels it objType)⟩ }
      | _, _ => none
  | .handOver d =>
      match s.deliveries.get d with
      | some ⟨objType, event, .holding (ch :: rest)⟩ =>
          match s.watchers.get ch with
          | some ⟨wType, .receiving, received⟩ =>
              some { s with
                deliveries := s.deliveries.set d ⟨objType, event, .holding rest⟩
                watchers := s.watchers.set ch ⟨wType, .receiving, received ++ [(d, event)]⟩ }
          | _ => none
      | _ => none
  | .rUnlock d =>
      match s.deliveries.get d with
      | some ⟨_, _, .holding []⟩ => some { s with deliveries := s.deliveries.delete d }
      | _ => none
  | .connect objType =>
      some { s with
        watchers := s.watchers.set s.nextChan ⟨objType, .registering, []⟩
        nextChan := s.nextChan + 1 }
  | .lock ch =>
      match s.watchers.get ch with
      | some w => if w.phase ≠ .receiving ∧ s.writer = none then some { s with writer := some ch } else none
      | none => none
  | .critical ch =>
      match s.watchers.get ch with
      | some w => if s.writer = some ch ∧ s.Unread then some (s.runCritical ch w) else none
      | none => none
  | .leave ch =>
      match s.watchers.get ch with
      | some ⟨objType, .receiving, received⟩ =>
          some { s with watchers := s.watchers.set ch ⟨objType, .left, received⟩ }
      | _ => none

/-- What each move needs, and what it makes of the hub. -/
inductive Transition (s : WatchSystem O) : SystemAction O → WatchSystem O → Prop where
  | notify {objType : Resource} {event : WatchEvent O} :
      Transition s (.notify objType event) { s with
        deliveries := s.deliveries.set s.notified.length ⟨objType, event, .started⟩
        notified := s.notified ++ [(objType, event)] }
  | rLock {d : ℕ} {it : MapOrder SubscriberKey} {objType : Resource} {event : WatchEvent O}
      (hd : s.deliveries.get d = some ⟨objType, event, .started⟩) (hw : s.writer = none) :
      Transition s (.rLock d it) { s with
        deliveries := s.deliveries.set d ⟨objType, event, .holding (s.subscriber.channels it objType)⟩ }
  | handOver {d : ℕ} {objType wType : Resource} {event : WatchEvent O} {ch : Chan} {rest : List Chan}
      {received : List (ℕ × WatchEvent O)}
      (hd : s.deliveries.get d = some ⟨objType, event, .holding (ch :: rest)⟩)
      (hw : s.watchers.get ch = some ⟨wType, .receiving, received⟩) :
      Transition s (.handOver d) { s with
        deliveries := s.deliveries.set d ⟨objType, event, .holding rest⟩
        watchers := s.watchers.set ch ⟨wType, .receiving, received ++ [(d, event)]⟩ }
  | rUnlock {d : ℕ} {objType : Resource} {event : WatchEvent O}
      (hd : s.deliveries.get d = some ⟨objType, event, .holding []⟩) :
      Transition s (.rUnlock d) { s with deliveries := s.deliveries.delete d }
  | connect {objType : Resource} :
      Transition s (.connect objType) { s with
        watchers := s.watchers.set s.nextChan ⟨objType, .registering, []⟩
        nextChan := s.nextChan + 1 }
  | lock {ch : Chan} {w : Watcher O} (hget : s.watchers.get ch = some w) (hphase : w.phase ≠ .receiving)
      (hw : s.writer = none) : Transition s (.lock ch) { s with writer := some ch }
  | critical {ch : Chan} {w : Watcher O} (hget : s.watchers.get ch = some w) (hw : s.writer = some ch)
      (hunread : s.Unread) : Transition s (.critical ch) (s.runCritical ch w)
  | leave {ch : Chan} {objType : Resource} {received : List (ℕ × WatchEvent O)}
      (hw : s.watchers.get ch = some ⟨objType, .receiving, received⟩) :
      Transition s (.leave ch) { s with watchers := s.watchers.set ch ⟨objType, .left, received⟩ }

theorem transition_of_step {s s' : WatchSystem O} {a : SystemAction O} (hstep : s.step a = some s') :
    Transition s a s' := by
  unfold step at hstep
  split at hstep
  · cases hstep
    exact .notify
  · split at hstep
    · cases hstep
      exact .rLock ‹_› ‹_›
    · cases hstep
  · split at hstep
    · split at hstep
      · cases hstep
        exact .handOver ‹_› ‹_›
      · cases hstep
    · cases hstep
  · split at hstep
    · cases hstep
      exact .rUnlock ‹_›
    · cases hstep
  · cases hstep
    exact .connect
  · split at hstep
    · obtain ⟨⟨hphase, hw⟩, hs'⟩ := Option.ite_none_right_eq_some.mp hstep
      cases hs'
      exact .lock ‹_› hphase hw
    · cases hstep
  · split at hstep
    · obtain ⟨⟨hw, hunread⟩, hs'⟩ := Option.ite_none_right_eq_some.mp hstep
      cases hs'
      exact .critical ‹_› hw hunread
    · cases hstep
  · split at hstep
    · cases hstep
      exact .leave ‹_›
    · cases hstep

/-! ## Waiting for a watch that has left -/

/-- The channel on which a delivery waits to hand its event over. -/
def waitsFor (s : WatchSystem O) (d : ℕ) : Option Chan :=
  match s.deliveries.get d with
  | some ⟨_, _, .holding (ch :: _)⟩ => some ch
  | _ => none

/-- The watch has left its loop. -/
def Left (s : WatchSystem O) (ch : Chan) : Prop := (s.watchers.get ch).map Watcher.phase = some .left

instance (s : WatchSystem O) (ch : Chan) : Decidable (s.Left ch) :=
  inferInstanceAs (Decidable (_ = _))

/-- A delivery holds the read lock and waits for a watch that has left its loop. -/
def Stuck (s : WatchSystem O) : Prop := ∃ d ch, s.waitsFor d = some ch ∧ s.Left ch

/-- The first channel that a delivery would serve. -/
def firstChannel (s : WatchSystem O) (d : ℕ) (it : MapOrder SubscriberKey) : Option Chan :=
  (s.deliveries.get d).bind fun D => (s.subscriber.channels it D.objType).head?

/-- The channel that a delivery serves after the one it waits for. -/
def secondChannel (s : WatchSystem O) (d : ℕ) : Option Chan :=
  match s.deliveries.get d with
  | some ⟨_, _, .holding (_ :: ch :: _)⟩ => some ch
  | _ => none

/-- A watch leaves its loop only while no delivery waits for it, and a delivery does not turn to a watch
that has left and is still registered. -/
def MeetsReceiver (s : WatchSystem O) : SystemAction O → Prop
  | .leave ch => ∀ d ∈ s.deliveries.keys, s.waitsFor d ≠ some ch
  | .rLock d it => ∀ ch ∈ s.firstChannel d it, ¬ s.Left ch
  | .handOver d => ∀ ch ∈ s.secondChannel d, ¬ s.Left ch
  | _ => True

instance (s : WatchSystem O) : ∀ a, Decidable (s.MeetsReceiver a)
  | .leave ch => inferInstanceAs (Decidable (∀ d ∈ s.deliveries.keys, s.waitsFor d ≠ some ch))
  | .rLock d it => inferInstanceAs (Decidable (∀ ch ∈ s.firstChannel d it, ¬ s.Left ch))
  | .handOver d => inferInstanceAs (Decidable (∀ ch ∈ s.secondChannel d, ¬ s.Left ch))
  | .notify _ _ => .isTrue trivial
  | .rUnlock _ => .isTrue trivial
  | .connect _ => .isTrue trivial
  | .lock _ => .isTrue trivial
  | .critical _ => .isTrue trivial

/-- Channels and numbers that have not been given out are not in use. -/
structure Fresh (s : WatchSystem O) : Prop where
  watchers : ∀ ch, s.watchers.get ch ≠ none → ch < s.nextChan
  deliveries : ∀ d, s.deliveries.get d ≠ none → d < s.notified.length

theorem fresh_init : (init : WatchSystem O).Fresh := ⟨by simp [init], by simp [init]⟩

variable {s s' : WatchSystem O} {a : SystemAction O}

/-- Writing over something that is there keeps its number. -/
theorem lt_of_get_set {α : Type} {m : GoMap ℕ α} {n k k' : ℕ} {v v' : α}
    (h : ∀ i, m.get i ≠ none → i < n) (hk : m.get k = some v) (hk' : (m.set k v').get k' ≠ none) :
    k' < n := by
  rcases GoMap.get_set_ne_none.mp hk' with rfl | hk'
  · exact h k' (by simp [hk])
  · exact h k' hk'

theorem lt_of_get_set_next {α : Type} {m : GoMap ℕ α} {n k : ℕ} {v : α}
    (h : ∀ i, m.get i ≠ none → i < n) (hk : (m.set n v).get k ≠ none) : k < n + 1 := by
  rcases GoMap.get_set_ne_none.mp hk with rfl | hk
  · exact Nat.lt_succ_self k
  · exact Nat.lt_succ_of_lt (h k hk)

theorem lt_of_get_delete {α : Type} {m : GoMap ℕ α} {n k k' : ℕ} (h : ∀ i, m.get i ≠ none → i < n)
    (hk' : (m.delete k).get k' ≠ none) : k' < n :=
  h k' (GoMap.get_delete_ne_none.mp hk').2

theorem fresh_step (h : s.Fresh) (hstep : s.step a = some s') : s'.Fresh := by
  obtain ⟨hw, hd⟩ := h
  cases transition_of_step hstep with
  | notify =>
      refine ⟨hw, fun d hget => ?_⟩
      rw [List.length_append]
      exact lt_of_get_set_next hd hget
  | rLock hget _ => exact ⟨hw, fun _ => lt_of_get_set hd hget⟩
  | handOver hget hwget => exact ⟨fun _ => lt_of_get_set hw hwget, fun _ => lt_of_get_set hd hget⟩
  | rUnlock _ => exact ⟨hw, fun _ => lt_of_get_delete hd⟩
  | connect => exact ⟨fun _ => lt_of_get_set_next hw, hd⟩
  | lock _ _ _ => exact ⟨hw, hd⟩
  | critical hget _ _ =>
      unfold runCritical
      split
      · split
        · exact ⟨fun _ => lt_of_get_delete hw, hd⟩
        · exact ⟨fun _ => lt_of_get_set hw hget, hd⟩
      · exact ⟨fun _ => lt_of_get_delete hw, hd⟩
  | leave hget => exact ⟨fun _ => lt_of_get_set hw hget, hd⟩

theorem waitsFor_eq_some {d : ℕ} {ch : Chan} :
    s.waitsFor d = some ch ↔
      ∃ objType event rest, s.deliveries.get d = some ⟨objType, event, .holding (ch :: rest)⟩ := by
  unfold waitsFor
  constructor
  · intro h
    split at h
    · rename_i objType event ch' rest hget
      obtain rfl := Option.some.inj h
      exact ⟨objType, event, rest, hget⟩
    · cases h
  · rintro ⟨objType, event, rest, hget⟩
    rw [hget]

/-- A delivery that waits for a channel is one that the hub knows. -/
theorem mem_keys_of_waitsFor {d : ℕ} {ch : Chan} (h : s.waitsFor d = some ch) : d ∈ s.deliveries.keys := by
  obtain ⟨objType, event, rest, hget⟩ := waitsFor_eq_some.mp h
  exact GoMap.mem_keys_of_get hget

/-- Whom a delivery waits for depends on that delivery. -/
theorem waitsFor_congr {d : ℕ} (h : s'.deliveries.get d = s.deliveries.get d) :
    s'.waitsFor d = s.waitsFor d := by
  unfold waitsFor
  rw [h]

/-- Which watches have left, after a change of one of them. -/
theorem left_set_iff {ch c : Chan} {w : Watcher O} (hset : s'.watchers = s.watchers.set ch w) :
    s'.Left c ↔ if c = ch then w.phase = .left else s.Left c := by
  rw [Left, hset, GoMap.get_set]
  split
  · simp
  · rfl

/-- A watch that has left its loop is not one that receives. -/
theorem Left.ne_receiving {ch c : Chan} {objType : Resource} {received : List (ℕ × WatchEvent O)}
    (h : s.Left ch) (hc : s.watchers.get c = some ⟨objType, .receiving, received⟩) : ch ≠ c := by
  rintro rfl
  rw [Left, hc] at h
  cases h

theorem deliveries_runCritical (ch : Chan) (w : Watcher O) :
    (s.runCritical ch w).deliveries = s.deliveries ∧ (s.runCritical ch w).notified = s.notified := by
  unfold runCritical
  split
  · split <;> exact ⟨rfl, rfl⟩
  · exact ⟨rfl, rfl⟩

/-- While nobody holds the read lock, nobody waits. -/
theorem not_stuck_of_unread (h : s.Unread) : ¬ s.Stuck := by
  rintro ⟨d, ch, hwait, -⟩
  obtain ⟨objType, event, rest, hget⟩ := waitsFor_eq_some.mp hwait
  have hphase := h d (GoMap.mem_keys_of_get hget)
  rw [hget] at hphase
  cases hphase

/-- After a step that gives one delivery a new channel to wait for and lets no watch leave, that delivery
is the only one that can be stuck. -/
theorem stuck_iff_of_delivery {d : ℕ} (hF : ¬ s.Stuck)
    (hother : ∀ k, k ≠ d → s'.waitsFor k = s.waitsFor k) (hleft : ∀ ch, s'.Left ch ↔ s.Left ch) :
    ¬ s'.Stuck ↔ ∀ ch ∈ s'.waitsFor d, ¬ s.Left ch := by
  constructor
  · intro h ch hch hl
    exact h ⟨d, ch, hch, (hleft ch).mpr hl⟩
  · rintro h ⟨k, ch, hk, hl⟩
    by_cases hkd : k = d
    · subst hkd
      exact h ch hk ((hleft ch).mp hl)
    · exact hF ⟨k, ch, (hother k hkd) ▸ hk, (hleft ch).mp hl⟩

theorem stuck_step_iff (hF : ¬ s.Stuck) (hstep : s.step a = some s') :
    ¬ s'.Stuck ↔ s.MeetsReceiver a := by
  cases transition_of_step hstep with
  | @notify objType event =>
      refine Iff.trans (stuck_iff_of_delivery (d := s.notified.length) hF
        (fun k hk => waitsFor_congr (GoMap.get_set_of_ne _ hk _)) fun _ => Iff.rfl) ?_
      refine iff_of_true ?_ trivial
      simp [waitsFor]
  | @rLock d it objType event hd hw =>
      refine Iff.trans (stuck_iff_of_delivery (d := d) hF
        (fun k hk => waitsFor_congr (GoMap.get_set_of_ne _ hk _)) fun _ => Iff.rfl) ?_
      rw [MeetsReceiver, firstChannel, hd, Option.bind_some]
      cases hch : s.subscriber.channels it objType with
      | nil => simp [waitsFor]
      | cons ch rest => simp [waitsFor]
  | @handOver d objType wType event ch rest received hd hw =>
      refine Iff.trans (stuck_iff_of_delivery (d := d) hF
        (fun k hk => waitsFor_congr (GoMap.get_set_of_ne _ hk _)) fun c => ?_) ?_
      · -- the watch was in its loop and is back there
        rw [left_set_iff rfl]
        by_cases hc : c = ch
        · simp [Left, hc, hw]
        · rw [if_neg hc]
      · rw [MeetsReceiver, secondChannel, hd]
        cases rest with
        | nil => simp [waitsFor]
        | cons ch' rest' => simp [waitsFor]
  | @rUnlock d objType event hd =>
      refine Iff.trans (stuck_iff_of_delivery (d := d) hF
        (fun k hk => waitsFor_congr (GoMap.get_delete_of_ne _ hk)) fun _ => Iff.rfl) ?_
      refine iff_of_true ?_ trivial
      simp [waitsFor]
  | @connect objType =>
      refine iff_of_true ?_ trivial
      rintro ⟨d, ch, hwait, hleft⟩
      rw [left_set_iff rfl] at hleft
      split at hleft
      · cases hleft
      · exact hF ⟨d, ch, hwait, hleft⟩
  | lock _ _ _ => exact iff_of_true hF trivial
  | @critical ch w hget hw hunread =>
      refine iff_of_true (not_stuck_of_unread ?_) trivial
      simpa only [Unread, (deliveries_runCritical ch w).1] using hunread
  | @leave ch objType received hw =>
      constructor
      · intro h d _ hwait
        exact h ⟨d, ch, hwait, (left_set_iff rfl).mpr (by simp)⟩
      · rintro h ⟨d, c, hwait, hleft⟩
        rw [left_set_iff rfl] at hleft
        split at hleft
        · rename_i hc
          exact h d (mem_keys_of_waitsFor hwait) (hc ▸ hwait)
        · exact hF ⟨d, c, hwait, hleft⟩

/-- For any number of deliveries and chunked watches and every schedule: no delivery ever holds the read
lock while it waits for a watch that has left its loop, exactly when no watch leaves while a delivery waits
for it and no delivery turns to a watch that has left and not unregistered yet. -/
theorem handOvers_met_iff {as : List (SystemAction O)} {s' : WatchSystem O}
    (hrun : runSteps step init as = some s') :
    (∀ bs t, bs <+: as → runSteps step init bs = some t → ¬ t.Stuck) ↔
      StepsMeet step MeetsReceiver init as := by
  have hstart : ¬ (init : WatchSystem O).Stuck := not_stuck_of_unread fun d hd => by
    obtain ⟨D, hD⟩ := GoMap.mem_keys.mp hd
    simp [init] at hD
  exact forall_prefix_iff_stepsMeet (I := fun _ => True) (F := fun t => ¬ t.Stuck)
    (fun _ _ _ => trivial) (fun _ hF hstep => stuck_step_iff hF hstep) trivial hstart hrun

/-- A watch registers, and an event is on its way to it. -/
def oneDelivery : List (SystemAction Unit) :=
  [.connect .pod, .lock 0, .critical 0, .notify .pod ⟨.added, ()⟩, .rLock 0 .sorted]

/-- The client goes before the event is handed over. -/
theorem delivery_waits_for_closed_watch :
    ∃ s, runSteps step init (oneDelivery ++ [.leave 0]) = some s ∧ s.waitsFor 0 = some 0 ∧ s.Left 0 :=
  exists_run (by decide)

/-- The client goes after the delivery. -/
theorem handOvers_met_in_turn :
    ∃ s, runSteps step init (oneDelivery ++ [.handOver 0, .rUnlock 0, .leave 0, .lock 0, .critical 0]) =
        some s ∧ ¬ s.Stuck := by
  have hrun : (runSteps step init
      (oneDelivery ++ [.handOver 0, .rUnlock 0, .leave 0, .lock 0, .critical 0])).isSome = true := by
    decide
  obtain ⟨s, hs⟩ := Option.isSome_iff_exists.mp hrun
  exact ⟨s, hs, (handOvers_met_iff hs).mpr (by decide) _ s (List.prefix_refl _) hs⟩

/-! ## A stuck delivery stays stuck -/

/-- The delivery waits for a watch that has left, and the subscribers are as given. -/
def StuckOn (d : ℕ) (ch : Chan) (sub : Subscriber) (s : WatchSystem O) : Prop :=
  s.Fresh ∧ s.waitsFor d = some ch ∧ s.Left ch ∧ s.subscriber = sub

theorem stuckOn_step {d : ℕ} {ch : Chan} {sub : Subscriber} (h : StuckOn d ch sub s)
    (hstep : s.step a = some s') : StuckOn d ch sub s' := by
  obtain ⟨hfresh, hwait, hleft, hsub⟩ := h
  have hfresh' := fresh_step hfresh hstep
  obtain ⟨objType, event, rest, hget⟩ := waitsFor_eq_some.mp hwait
  obtain ⟨w, hw, hphase⟩ := Option.map_eq_some_iff.mp hleft
  cases transition_of_step hstep with
  | notify =>
      have hne : d ≠ s.notified.length := (hfresh.deliveries d (by simp [hget])).ne
      exact ⟨hfresh', (waitsFor_congr (GoMap.get_set_of_ne _ hne _)).trans hwait, hleft, hsub⟩
  | @rLock d' _ _ _ hd' _ =>
      have hne : d ≠ d' := by
        rintro rfl
        simp [hget] at hd'
      exact ⟨hfresh', (waitsFor_congr (GoMap.get_set_of_ne _ hne _)).trans hwait, hleft, hsub⟩
  | @handOver d' _ _ _ ch' _ _ hd' hw' =>
      have hch := hleft.ne_receiving hw'
      have hne : d ≠ d' := by
        rintro rfl
        rw [hget] at hd'
        obtain ⟨-, -, hrest⟩ := Delivery.mk.inj (Option.some.inj hd')
        exact hch (List.cons.inj (DeliveryPhase.holding.inj hrest)).1
      refine ⟨hfresh', (waitsFor_congr (GoMap.get_set_of_ne _ hne _)).trans hwait, ?_, hsub⟩
      rwa [left_set_iff rfl, if_neg hch]
  | @rUnlock d' _ _ hd' =>
      have hne : d ≠ d' := by
        rintro rfl
        simp [hget] at hd'
      exact ⟨hfresh', (waitsFor_congr (GoMap.get_delete_of_ne _ hne)).trans hwait, hleft, hsub⟩
  | connect =>
      have hne : ch ≠ s.nextChan := (hfresh.watchers ch (by simp [hw])).ne
      exact ⟨hfresh', hwait, (left_set_iff rfl).mpr (by rwa [if_neg hne]), hsub⟩
  | lock _ _ _ => exact ⟨hfresh', hwait, hleft, hsub⟩
  | critical _ _ hunread => exact absurd ⟨d, ch, hwait, hleft⟩ (not_stuck_of_unread hunread)
  | @leave ch' _ _ hw' =>
      have hch := hleft.ne_receiving hw'
      exact ⟨hfresh', hwait, (left_set_iff rfl).mpr (by rwa [if_neg hch]), hsub⟩

/-- Once a delivery waits for a watch that has left, it waits forever, and no watch is registered or
unregistered any more. -/
theorem stuck_forever {as bs : List (SystemAction O)} {d : ℕ} {ch : Chan}
    (hrun : runSteps step init as = some s) (hwait : s.waitsFor d = some ch) (hleft : s.Left ch)
    (hrest : runSteps step s bs = some s') :
    s'.waitsFor d = some ch ∧ s'.Left ch ∧ s'.subscriber = s.subscriber := by
  have hfresh : s.Fresh := runSteps_invariant fresh_step fresh_init hrun
  have hstuck : StuckOn d ch s.subscriber s := ⟨hfresh, hwait, hleft, rfl⟩
  exact (runSteps_invariant stuckOn_step hstuck hrest).2

end WatchSystem

end OteStack.EdgeHub
