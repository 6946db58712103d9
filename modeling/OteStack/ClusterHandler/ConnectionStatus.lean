/-
# OteStack.ClusterHandler.ConnectionStatus — does the recorded status follow the connection?

One child of the root connects and disconnects.  `accessHandler` of `pkg/tunnel/cloudtunnel.go` stamps the
registration with the clock in whole seconds and `connect` stamps the unregistration in the same way; the
root handles the two messages as any others, with the child's own name as the port.

The handlers drop a message that is not stamped later than the stored object, and a new object is stamped
with the time of its creation instead of the one of the message.  So a disconnection within the second of
the connection leaves the child recorded as online (`online_after_quick_disconnect`).  The status follows
the connection in a run exactly when none of its messages is dropped (`status_follows_connection_iff`).
-/
import OteStack.ClusterHandler.ClusterStatus

namespace OteStack

open OteStack.Lib (GoMap MapOrder runSteps StepsMeet forall_prefix_iff_stepsMeet)
open OteStack.Lib.KubeApi
open OteStack.K8sClient

/-! ## The link to one child -/

/-- The root and whether the child is connected to it. -/
structure ChildLink where
  connected : Bool
  root : Root

/-- What happens to the link.  The registry is the one of the message, stamped with the clock; `now` is the
clock when the root handles the registration. -/
inductive LinkEvent where
  | connect (cr : ClusterRegistry) (now : Int)
  | disconnect (cr : ClusterRegistry)

namespace ChildLink

variable (it : MapOrder String) (x : String)

/-- The message of an event is handled before the next event. -/
def step (s : ChildLink) : LinkEvent → Option ChildLink
  | .connect cr now =>
      if s.connected = false then some ⟨true, (Notice.handle it x x s.root (.regist cr now)).2⟩ else none
  | .disconnect cr =>
      if s.connected = true then some ⟨false, (Notice.handle it x x s.root (.unregist cr)).2⟩ else none

/-- The child is recorded as online. -/
def Online (s : ChildLink) : Prop :=
  (s.root.clusters.get (clusterKey x)).map (fun c => c.status.status) = some clusterStatusOnline

instance (s : ChildLink) : Decidable (s.Online x) := inferInstanceAs (Decidable (_ = _))

/-- The record agrees with the connection. -/
def Follows (s : ChildLink) : Prop := s.Online x ↔ s.connected = true

instance (s : ChildLink) : Decidable (s.Follows x) := inferInstanceAs (Decidable (_ ↔ _))

/-- The time a message is stamped with is later than what is stored about the child. -/
def Newer (s : ChildLink) (time : Int) : Prop :=
  ∀ c ∈ s.root.clusters.get (clusterKey x), c.status.timestamp < time

instance (s : ChildLink) (time : Int) : Decidable (s.Newer x time) :=
  inferInstanceAs (Decidable (∀ c ∈ s.root.clusters.get (clusterKey x), _))

/-- The message of the event is not dropped: it is newer than what is stored, and a registration finds no
route through another child. -/
def TakesEffect (s : ChildLink) : LinkEvent → Prop
  | .connect cr _ => RoutedBy s.root x x ∧ s.Newer x cr.time
  | .disconnect cr => s.Newer x cr.time

instance (s : ChildLink) : ∀ e : LinkEvent, Decidable (s.TakesEffect x e)
  | .connect cr _ => inferInstanceAs (Decidable (RoutedBy s.root x x ∧ s.Newer x cr.time))
  | .disconnect cr => inferInstanceAs (Decidable (s.Newer x cr.time))

variable {it x} {s s' : ChildLink} {status : ClusterStatus}

/-! ## One event -/

theorem online_iff_of_holds (h : Holds s.root x status) :
    s.Online x ↔ status.status = clusterStatusOnline := by
  obtain ⟨-, c, hc, rfl⟩ := h
  simp [Online, hc]

theorem newer_iff_of_holds (h : Holds s.root x status) {time : Int} :
    s.Newer x time ↔ status.timestamp < time := by
  obtain ⟨-, c, hc, rfl⟩ := h
  simp [Newer, hc]

/-- A message that is written makes the record say what the message says; one that is dropped leaves it. -/
theorem online_written_iff {n : Notice} (hn : n.status ≠ "") (h : Holds s.root x (Notice.written status n)) :
    s.Online x ↔ if status.timestamp < n.timestamp then n.status = clusterStatusOnline
      else status.status = clusterStatusOnline := by
  rw [online_iff_of_holds h]
  by_cases hlt : status.timestamp < n.timestamp
  · rw [if_pos hlt, Notice.written_of_lt hlt, Notice.status_onto hn]
  · rw [if_neg hlt, Notice.written_of_le (not_lt.mp hlt)]

/-- What a registration makes of a child that was recorded as gone: it is recorded as online iff the
registration takes effect. -/
theorem online_regist_iff (hs : Stamped s.root.clusters) (hold : ¬ s.Online x) (cr : ClusterRegistry)
    (now : Int) (b : Bool) :
    Stamped (Notice.handle it x x s.root (.regist cr now)).2.clusters ∧
      (Online x ⟨b, (Notice.handle it x x s.root (.regist cr now)).2⟩ ↔
        s.TakesEffect x (.connect cr now)) := by
  by_cases hroute : RoutedBy s.root x x
  · rcases hget : s.root.clusters.get (clusterKey x) with _ | c
    · -- there is no object yet: the registration creates one
      have hcreated : Holds (Notice.handle it x x s.root (.regist cr now)).2 x
          ⟨cr.listen, cr.parentName, clusterStatusOnline, now, ∅, ∅⟩ := by
        rw [handleRegist_of_routedBy it hroute]
        exact holds_createCluster ⟨s.root.subtreeRouter.afterAddRoute x x, s.root.clusters⟩ hs hget cr now
      have heffect : s.TakesEffect x (.connect cr now) := ⟨hroute, by simp [Newer, hget]⟩
      refine ⟨hcreated.stamped, ?_⟩
      rw [online_iff_of_holds (s := ⟨b, _⟩) hcreated]
      exact iff_of_true rfl heffect
    · have hholds : Holds s.root x c.status := ⟨hs, c, hget, rfl⟩
      have hwritten := holds_handle it hholds hroute (.regist cr now)
      have heffect : s.TakesEffect x (.connect cr now) ↔ c.status.timestamp < cr.time :=
        (and_iff_right hroute).trans (newer_iff_of_holds hholds)
      rw [online_iff_of_holds hholds] at hold
      refine ⟨hwritten.stamped, ?_⟩
      rw [online_written_iff (s := ⟨b, _⟩) (n := .regist cr now) Notice.online_ne_empty hwritten, heffect]
      show (if c.status.timestamp < cr.time then clusterStatusOnline = clusterStatusOnline else _) ↔ _
      by_cases hlt : c.status.timestamp < cr.time
      · simp [hlt]
      · simp [hlt, hold]
  · -- the route is taken: nothing is written
    rw [handleRegist_of_not_routedBy it hroute]
    exact ⟨hs, iff_of_false hold fun heffect => hroute heffect.1⟩

/-- What an unregistration makes of a child that was recorded as online: it still is unless the
unregistration takes effect. -/
theorem online_unregist_iff (hs : Stamped s.root.clusters) (hold : s.Online x) (cr : ClusterRegistry)
    (b : Bool) :
    Stamped (Notice.handle it x x s.root (.unregist cr)).2.clusters ∧
      (Online x ⟨b, (Notice.handle it x x s.root (.unregist cr)).2⟩ ↔
        ¬ s.TakesEffect x (.disconnect cr)) := by
  obtain ⟨c, hget, -⟩ := Option.map_eq_some_iff.mp hold
  have hholds : Holds s.root x c.status := ⟨hs, c, hget, rfl⟩
  have hwritten : Holds (Notice.handle it x x s.root (.unregist cr)).2 x
      (Notice.written c.status (.unregist cr)) :=
    holds_offlineCluster (hholds.withRoutes (SubTreeRouter.delRoute it s.root.subtreeRouter x x)) cr
  have honline : c.status.status = clusterStatusOnline := (online_iff_of_holds hholds).mp hold
  have heffect : s.TakesEffect x (.disconnect cr) ↔ c.status.timestamp < cr.time :=
    newer_iff_of_holds hholds
  refine ⟨hwritten.stamped, ?_⟩
  rw [online_written_iff (s := ⟨b, _⟩) (n := .unregist cr) Notice.offline_ne_empty hwritten, heffect]
  show (if c.status.timestamp < cr.time then clusterStatusOffline = clusterStatusOnline else _) ↔ _
  have hdiff : ¬ clusterStatusOffline = clusterStatusOnline := by decide
  by_cases hlt : c.status.timestamp < cr.time
  · simp [hlt, hdiff]
  · simp [hlt, honline]

/-! ## Runs -/

/-- An event keeps the record right iff its message takes effect. -/
theorem follows_step_iff {e : LinkEvent} (hs : Stamped s.root.clusters) (h : s.Follows x)
    (hstep : step it x s e = some s') :
    Stamped s'.root.clusters ∧ (s'.Follows x ↔ s.TakesEffect x e) := by
  unfold Follows at h ⊢
  cases e with
  | connect cr now =>
      obtain ⟨hconn, hs'⟩ := Option.ite_none_right_eq_some.mp hstep
      obtain rfl := Option.some.inj hs'
      have hold : ¬ s.Online x := by simp [h, hconn]
      obtain ⟨hstamped, hiff⟩ := online_regist_iff hs hold cr now true
      exact ⟨hstamped, by simpa using hiff⟩
  | disconnect cr =>
      obtain ⟨hconn, hs'⟩ := Option.ite_none_right_eq_some.mp hstep
      obtain rfl := Option.some.inj hs'
      obtain ⟨hstamped, hiff⟩ := online_unregist_iff hs (h.mpr hconn) cr false
      exact ⟨hstamped, by simp [hiff]⟩

/-- From a state in which the record is right, it stays right in every state of a run exactly when every
message takes effect. -/
theorem status_follows_connection_iff (it : MapOrder String) (x : String) {s s' : ChildLink}
    (hs : Stamped s.root.clusters) (hstart : s.Follows x) {events : List LinkEvent}
    (hrun : runSteps (step it x) s events = some s') :
    (∀ past t, past <+: events → runSteps (step it x) s past = some t → t.Follows x) ↔
      StepsMeet (step it x) (TakesEffect x) s events :=
  forall_prefix_iff_stepsMeet (I := fun s => Stamped s.root.clusters)
    (fun hI hF hstep => (follows_step_iff hI hF hstep).1)
    (fun hI hF hstep => (follows_step_iff hI hF hstep).2) hs hstart hrun

/-- A root that has never seen the child. -/
def fresh : ChildLink := ⟨false, ⟨∅, ∅⟩⟩

/-- The child connects and disconnects within one second: it is gone, and recorded as online. -/
theorem online_after_quick_disconnect :
    ∃ s', runSteps (step MapOrder.sorted "c1") fresh
        [.connect (registryOfC1 10 "root") 10, .disconnect (registryOfC1 10 "root")] = some s' ∧
      s'.connected = false ∧ s'.Online "c1" :=
  ⟨_, rfl, rfl, by decide⟩

/-- A child that reconnects after some seconds. -/
theorem status_follows_slow_reconnect :
    ∃ s', runSteps (step MapOrder.sorted "c1") fresh
        [.connect (registryOfC1 10 "root") 10, .disconnect (registryOfC1 12 "root"),
          .connect (registryOfC1 15 "root") 15] = some s' ∧
      s'.connected = true ∧ s'.Online "c1" := by
  obtain ⟨s', hrun, hconnected⟩ : ∃ s', runSteps (step MapOrder.sorted "c1") fresh
      [.connect (registryOfC1 10 "root") 10, .disconnect (registryOfC1 12 "root"),
        .connect (registryOfC1 15 "root") 15] = some s' ∧ s'.connected = true := ⟨_, rfl, rfl⟩
  have hfollows := (status_follows_connection_iff MapOrder.sorted "c1" stamped_empty (by decide) hrun).mpr
    (by decide) _ s' (List.prefix_refl _) hrun
  exact ⟨s', hrun, hconnected, hfollows.mpr hconnected⟩

end ChildLink

end OteStack
