/-
# OteStack.ClusterHandler.ClusterStatus — how the root records the status of the clusters below it.

`handleRegistClusterMessage`, `handleUnregistClusterMessage` and `createOrUpdateCluster` of
`pkg/clusterhandler/clusterhandler.go` at the root, and `handleClusterStatusReport` of
`pkg/controllermanager/cluster_status_processor.go`.  A registration is recorded only if the route table
takes it: a cluster that is routed through another child is refused before anything is written.

Messages are handled here one after another, with an API server that answers.  What a message about a
cluster does to its object then depends on two comparisons, of the port with the route table and of the
timestamp with the stored one (`holds_handle`).
-/
import Mathlib.Data.List.Permutation
import OteStack.Lib.LastWriter
import OteStack.ClusterHandler.Node
import OteStack.K8sClient.ClusterCRD

namespace OteStack

open OteStack.Lib (GoMap MapOrder Proc runSteps StepsMeet)
open OteStack.Lib.KubeApi
open OteStack.K8sClient
open OteStack.SubTreeRouter

/-! ## The handlers -/

/-- What the root keeps about the clusters below it. -/
structure Root where
  subtreeRouter : SubTreeRouter
  clusters : Store ClusterSpec ClusterStatus

/-- Where the object of a cluster is stored. -/
def clusterKey (name : String) : ObjectKey := ⟨clusterNamespace, name⟩

/-- Go's `getClusterFromClusterRegistry`. -/
def getClusterFromClusterRegistry (cr : ClusterRegistry) : K8sClient.Cluster where
  metadata := ⟨cr.name, clusterNamespace, none, "", "", none⟩
  spec := ⟨cr.userDefineName⟩
  status := ⟨cr.listen, cr.parentName, "", cr.time, ∅, ∅⟩

/-- The error of a status update as the handlers report it. -/
def updateResult : Except Error Unit → Except String Unit
  | .ok _ => .ok ()
  | .error e => .error ("update cluster status failed: " ++ e.message)

/-- Go's `createOrUpdateCluster`; `now` is the time of the call. -/
def createOrUpdateCluster (now : Int) (cluster : K8sClient.Cluster) : ClusterApi (Except String Unit) := do
  match ← ClusterCRD.get cluster.metadata.namespace cluster.metadata.name with
  | none =>
      -- a new object gets the time of its creation, not the one of the message
      ClusterCRD.create (withStatus cluster
        { cluster.status with status := clusterStatusOnline, timestamp := now })
      pure (.ok ())
  | some old =>
      let res ← ClusterCRD.updateStatus (withStatus old { old.status with
        status := clusterStatusOnline
        timestamp := cluster.status.timestamp
        listen := cluster.status.listen
        parentName := cluster.status.parentName })
      pure (updateResult res)

/-- What `handleUnregistClusterMessage` does with the stored object. -/
def offlineCluster (cluster : K8sClient.Cluster) (time : Int) : ClusterApi (Except String Unit) := do
  match ← ClusterCRD.get cluster.metadata.namespace cluster.metadata.name with
  | none => pure (.ok ())
  | some old =>
      let res ← ClusterCRD.updateStatus (withStatus old { old.status with
        status := clusterStatusOffline
        timestamp := time })
      pure (updateResult res)

/-- The text of a route error. -/
def RouteError.text : RouteError → String
  | .duplicatedName => "cluster name duplicated"

namespace Root

/-- Run a program on the stored objects. -/
def execute (root : Root) (p : ClusterApi (Except String Unit)) : Except String Unit × Root :=
  let res := Proc.run serveClusters p root.clusters
  (res.1, { root with clusters := res.2 })

/-- Go's `handleRegistClusterMessage` at the root.  A route that is refused is not saved either. -/
def handleRegistClusterMessage (now : Int) (root : Root) (client : String) :
    Option ClusterRegistry → Except String Unit × Root
  | none => (.error "regist message cannot get cluster info", root)
  | some cr =>
      match addRoute root.subtreeRouter cr.name client with
      | .error e => (.error ("add route failed: " ++ e.text), root)
      | .ok r =>
          execute { root with subtreeRouter := r }
            (createOrUpdateCluster now (getClusterFromClusterRegistry cr))

/-- Go's `handleUnregistClusterMessage` at the root. -/
def handleUnregistClusterMessage (it : MapOrder String) (root : Root) (client : String) :
    Option ClusterRegistry → Except String Unit × Root
  | none => (.error "unregist message cannot get cluster info", root)
  | some cr =>
      execute { root with subtreeRouter := delRoute it root.subtreeRouter cr.name client }
        (offlineCluster (getClusterFromClusterRegistry cr) cr.time)

/-- The object that `UpdateClusterStatus` patches with. -/
def reportedCluster (clustername : String) (status : ClusterStatus) : K8sClient.Cluster :=
  ⟨⟨clustername, clusterNamespace, none, "", "", none⟩, ⟨""⟩, status⟩

/-- The error of `handleClusterStatusReport`; its format string reads `% s` in `% status`. -/
def reportResult (clustername : String) : Except Error Unit → Except String Unit
  | .ok _ => .ok ()
  | .error e => .error ("update cluster " ++ clustername ++ "tatus failed : " ++ e.message)

/-- Go's `handleClusterStatusReport`.  A body that does not decode comes with the error. -/
def handleClusterStatusReport (root : Root) (clustername : String) :
    Except String ClusterStatus → Except String Unit × Root
  | .error e => (.error ("status body of cluster " ++ clustername ++ " deserialize failed : " ++ e), root)
  | .ok status =>
      execute root do
        let res ← ClusterCRD.patchStatus (reportedCluster clustername status)
        pure (reportResult clustername res)

end Root

/-! ## Messages about one cluster -/

/-- What a message says about a cluster.  For a registration `now` is the time at which it is handled. -/
inductive Notice where
  | regist (cr : ClusterRegistry) (now : Int)
  | unregist (cr : ClusterRegistry)
  | report (status : ClusterStatus)

namespace Notice

/-- The time a message is stamped with. -/
def timestamp : Notice → Int
  | regist cr _ => cr.time
  | unregist cr => cr.time
  | report status => status.timestamp

/-- The status a message carries; a report may leave it out. -/
def status : Notice → String
  | regist _ _ => clusterStatusOnline
  | unregist _ => clusterStatusOffline
  | report status => status.status

/-- The status a message writes over a stored one. -/
def onto : Notice → ClusterStatus → ClusterStatus
  | regist cr _, old => { old with
      status := clusterStatusOnline, timestamp := cr.time, listen := cr.listen, parentName := cr.parentName }
  | unregist cr, old => { old with status := clusterStatusOffline, timestamp := cr.time }
  | report status, old => overlayStatus old status

/-- The message about cluster `x` is handled, as it comes through child `p`. -/
def handle (it : MapOrder String) (x p : String) (root : Root) : Notice → Except String Unit × Root
  | regist cr now => root.handleRegistClusterMessage now p (some { cr with name := x })
  | unregist cr => root.handleUnregistClusterMessage it p (some { cr with name := x })
  | report status => root.handleClusterStatusReport x (.ok status)

@[simp] theorem timestamp_onto (n : Notice) (old : ClusterStatus) :
    (n.onto old).timestamp = n.timestamp := by
  cases n <;> rfl

theorem online_ne_empty : clusterStatusOnline ≠ "" := by decide

theorem offline_ne_empty : clusterStatusOffline ≠ "" := by decide

theorem status_onto {n : Notice} (h : n.status ≠ "") (old : ClusterStatus) :
    (n.onto old).status = n.status := by
  cases n with
  | regist cr now => rfl
  | unregist cr => rfl
  | report status => exact if_neg h

/-- The status after the message, if no route is in the way. -/
def written (old : ClusterStatus) (n : Notice) : ClusterStatus :=
  Lib.LastWriter.written ClusterStatus.timestamp Notice.timestamp Notice.onto old n

theorem written_of_lt {n : Notice} {old : ClusterStatus} (h : old.timestamp < n.timestamp) :
    written old n = n.onto old := if_pos h

theorem written_of_le {n : Notice} {old : ClusterStatus} (h : n.timestamp ≤ old.timestamp) :
    written old n = old := if_neg (not_lt.mpr h)

end Notice

/-- The object of a cluster is stored with a status. -/
structure Holds (root : Root) (x : String) (status : ClusterStatus) : Prop where
  stamped : Stamped root.clusters
  stored : ∃ c, root.clusters.get (clusterKey x) = some c ∧ c.status = status

/-- Routes do not matter for what is stored. -/
theorem Holds.withRoutes {root : Root} {x : String} {status : ClusterStatus} (h : Holds root x status)
    (r : SubTreeRouter) : Holds ⟨r, root.clusters⟩ x status :=
  ⟨h.stamped, h.stored⟩

/-- The root has no route to the cluster but through `p`. -/
def RoutedBy (root : Root) (x p : String) : Prop :=
  root.subtreeRouter.get x = none ∨ root.subtreeRouter.get x = some p

instance (root : Root) (x p : String) : Decidable (RoutedBy root x p) :=
  inferInstanceAs (Decidable (_ ∨ _))

/-! ## What one message does -/

section OneMessage

variable (it : MapOrder String) {root : Root} {x p : String} {old : ClusterStatus}

/-- A program that writes a status over a stored object, if it is later. -/
theorem holds_execute {c : K8sClient.Cluster} (c' : K8sClient.Cluster) (hs : Stamped root.clusters)
    (hc : root.clusters.get (clusterKey x) = some c) {q : ClusterApi (Except String Unit)}
    (hq : (Proc.run serveClusters q root.clusters).2 =
      if c.status.timestamp < c'.status.timestamp then root.clusters.put (clusterKey x) c'
      else root.clusters) :
    Holds (root.execute q).2 x
      (if c.status.timestamp < c'.status.timestamp then c'.status else c.status) := by
  have hstore : (root.execute q).2.clusters = _ := hq
  by_cases hlt : c.status.timestamp < c'.status.timestamp
  · rw [if_pos hlt] at hstore ⊢
    refine ⟨by rw [hstore]; exact hs.put _ _, ?_⟩
    rw [hstore]
    exact ⟨_, root.clusters.get_put_self _ _, rfl⟩
  · rw [if_neg hlt] at hstore ⊢
    exact ⟨by rw [hstore]; exact hs, c, by rw [hstore]; exact hc, rfl⟩

/-- A status update of an object that was just read. -/
theorem run_updateStatus_stored {c : K8sClient.Cluster} (hs : Stamped root.clusters)
    (hc : root.clusters.get (clusterKey x) = some c) (status : ClusterStatus) :
    (Proc.run serveClusters (ClusterCRD.updateStatus (withStatus c status)) root.clusters).2 =
      if c.status.timestamp < status.timestamp then root.clusters.put (clusterKey x) (withStatus c status)
      else root.clusters := by
  have hkey : c.metadata.key = clusterKey x := root.clusters.key_of_get hc
  have hget : root.clusters.get (withStatus c status).metadata.key = some c := by
    show root.clusters.get c.metadata.key = some c
    rw [hkey]
    exact hc
  rw [ClusterCRD.run_updateStatus hs hget, apply_ite Prod.snd, ← hkey]
  rfl

theorem run_get_then {s : Store ClusterSpec ClusterStatus} {ns name : String} {β : Type}
    (f : Option K8sClient.Cluster → ClusterApi β) :
    Proc.run serveClusters (ClusterCRD.get ns name >>= f) s =
      Proc.run serveClusters (f (s.get ⟨ns, name⟩)) s := by
  rw [Proc.run_do, ClusterCRD.run_get]

theorem holds_createOrUpdateCluster (h : Holds root x old) (cr : ClusterRegistry) (now : Int) :
    Holds (root.execute (createOrUpdateCluster now
      (getClusterFromClusterRegistry { cr with name := x }))).2 x (Notice.written old (.regist cr now)) := by
  obtain ⟨hs, c, hc, rfl⟩ := h
  refine holds_execute (withStatus c (Notice.onto (.regist cr now) c.status)) hs hc ?_
  rw [createOrUpdateCluster, run_get_then]
  show (Proc.run serveClusters
    (match root.clusters.get (clusterKey x) with | none => _ | some old => _) _).2 = _
  rw [hc, Proc.run_do]
  exact run_updateStatus_stored hs hc _

theorem holds_offlineCluster (h : Holds root x old) (cr : ClusterRegistry) :
    Holds (root.execute (offlineCluster
      (getClusterFromClusterRegistry { cr with name := x }) cr.time)).2 x
      (Notice.written old (.unregist cr)) := by
  obtain ⟨hs, c, hc, rfl⟩ := h
  refine holds_execute (withStatus c (Notice.onto (.unregist cr) c.status)) hs hc ?_
  rw [offlineCluster, run_get_then]
  show (Proc.run serveClusters
    (match root.clusters.get (clusterKey x) with | none => _ | some old => _) _).2 = _
  rw [hc, Proc.run_do]
  exact run_updateStatus_stored hs hc _

/-- A registration of a cluster that is not stored yet. -/
theorem holds_createCluster (root : Root) (hs : Stamped root.clusters)
    (hnone : root.clusters.get (clusterKey x) = none) (cr : ClusterRegistry) (now : Int) :
    Holds (root.execute (createOrUpdateCluster now
      (getClusterFromClusterRegistry { cr with name := x }))).2 x
      ⟨cr.listen, cr.parentName, clusterStatusOnline, now, ∅, ∅⟩ := by
  have hstore : ∃ c, (root.execute (createOrUpdateCluster now
      (getClusterFromClusterRegistry { cr with name := x }))).2.clusters =
        root.clusters.put (clusterKey x) c ∧
      c.status = ⟨cr.listen, cr.parentName, clusterStatusOnline, now, ∅, ∅⟩ := by
    show ∃ c, (Proc.run serveClusters (createOrUpdateCluster now _) root.clusters).2 = _ ∧ _
    rw [createOrUpdateCluster, run_get_then]
    show ∃ c, (Proc.run serveClusters
      (match root.clusters.get (clusterKey x) with | none => _ | some old => _) _).2 = _ ∧ _
    rw [hnone, Proc.run_do, ClusterCRD.create, Proc.run_do, Custom.Client.run_create rfl hnone]
    exact ⟨_, rfl, rfl⟩
  obtain ⟨c, hc, hstatus⟩ := hstore
  refine ⟨by rw [hc]; exact hs.put _ _, root.clusters.stamped (clusterKey x) c, ?_, hstatus⟩
  rw [hc]
  exact root.clusters.get_put_self _ _

theorem holds_statusReport (h : Holds root x old) (status : ClusterStatus) :
    Holds (root.handleClusterStatusReport x (.ok status)).2 x (Notice.written old (.report status)) := by
  obtain ⟨hs, c, hc, rfl⟩ := h
  refine holds_execute (withStatus (normal c) (overlayStatus c.status status)) hs hc ?_
  have hget : root.clusters.get (Root.reportedCluster x status).metadata.key = some c := hc
  rw [Proc.run_do, Proc.run_pure, ClusterCRD.run_patchStatus hget, apply_ite Prod.snd]
  rfl

/-! ### Routes -/

theorem addRoute_of_routedBy (h : RoutedBy root x p) :
    addRoute root.subtreeRouter x p = .ok (afterAddRoute root.subtreeRouter x p) := by
  unfold afterAddRoute addRoute
  rcases h with hx | hx
  · simp [hx]
  · simp [hx]

theorem addRoute_of_not_routedBy (h : ¬ RoutedBy root x p) :
    addRoute root.subtreeRouter x p = .error .duplicatedName := by
  unfold addRoute
  rcases hx : root.subtreeRouter.get x with _ | q
  · exact absurd (Or.inl hx) h
  · have hpq : p ≠ q := by
      rintro rfl
      exact h (Or.inr hx)
    simp [hpq]

/-- A registration through another child than the one the cluster is routed through changes nothing. -/
theorem handleRegist_of_not_routedBy (h : ¬ RoutedBy root x p) (cr : ClusterRegistry) (now : Int) :
    (Notice.handle it x p root (.regist cr now)).2 = root := by
  simp only [Notice.handle, Root.handleRegistClusterMessage, addRoute_of_not_routedBy h]

/-- What a registration does that is not refused. -/
theorem handleRegist_of_routedBy (h : RoutedBy root x p) (cr : ClusterRegistry) (now : Int) :
    Notice.handle it x p root (.regist cr now) =
      Root.execute ⟨afterAddRoute root.subtreeRouter x p, root.clusters⟩
        (createOrUpdateCluster now (getClusterFromClusterRegistry { cr with name := x })) := by
  simp only [Notice.handle, Root.handleRegistClusterMessage, addRoute_of_routedBy h]

/-- After a message through `p` the cluster is still routed through `p`, if at all. -/
theorem routedBy_handle (h : RoutedBy root x p) (n : Notice) :
    RoutedBy (n.handle it x p root).2 x p := by
  cases n with
  | regist cr now =>
      rw [handleRegist_of_routedBy it h]
      show (afterAddRoute _ x p).get x = none ∨ (afterAddRoute _ x p).get x = some p
      rw [get_afterAddRoute]
      rcases h with hx | hx
      · simp [hx]
      · simp [hx]
  | unregist cr =>
      show (delRoute it _ x p).get x = none ∨ (delRoute it _ x p).get x = some p
      rw [get_delRoute]
      rcases h with hx | hx
      · simp [hx]
      · simp [hx]
  | report status => exact h

/-- A message that no route is in the way of is written if it is later than the stored status. -/
theorem holds_handle (h : Holds root x old) (hroute : RoutedBy root x p) (n : Notice) :
    Holds (n.handle it x p root).2 x (Notice.written old n) := by
  cases n with
  | regist cr now =>
      rw [handleRegist_of_routedBy it hroute]
      exact holds_createOrUpdateCluster (h.withRoutes _) cr now
  | unregist cr => exact holds_offlineCluster (h.withRoutes (delRoute it root.subtreeRouter x p)) cr
  | report status => exact holds_statusReport h status

end OneMessage

/-! ## Messages in any order -/

/-- Messages about cluster `x` and the children they come through, handled one after another. -/
def handleAll (it : MapOrder String) (x : String) (root : Root) (messages : List (String × Notice)) : Root :=
  messages.foldl (fun root m => (m.2.handle it x m.1 root).2) root

theorem holds_handleAll (it : MapOrder String) {x p : String} {l : List Notice} {root : Root}
    {old : ClusterStatus} (h : Holds root x old) (hroute : RoutedBy root x p) :
    Holds (handleAll it x root (l.map (Prod.mk p))) x (l.foldl Notice.written old) := by
  induction l generalizing root old with
  | nil => exact h
  | cons n l ih => exact ih (holds_handle it h hroute n) (routedBy_handle it hroute n)

/-- Messages about an existing cluster that come through one child, with different timestamps, in any
order.  The timestamp ends up as the largest one if that is later than the stored one, and the status as
that of the latest message if the message carries a status.  If no message is later than what is stored,
nothing changes. -/
theorem latest_message_wins (it : MapOrder String) {root : Root} {x p : String} {c : K8sClient.Cluster}
    (hs : Stamped root.clusters) (hc : root.clusters.get (clusterKey x) = some c)
    (hroute : RoutedBy root x p) {messages order : List Notice}
    (hdistinct : (messages.map Notice.timestamp).Nodup) (horder : order.Perm messages) :
    ∃ c', (handleAll it x root (order.map (Prod.mk p))).clusters.get (clusterKey x) = some c' ∧
      (∀ m ∈ messages, c.status.timestamp < m.timestamp →
        (∀ m' ∈ messages, m'.timestamp ≤ m.timestamp) →
        c'.status.timestamp = m.timestamp ∧ (m.status ≠ "" → c'.status.status = m.status)) ∧
      ((∀ m ∈ messages, m.timestamp ≤ c.status.timestamp) → c'.status = c.status) := by
  obtain ⟨-, c', hc', hstatus⟩ := holds_handleAll it ⟨hs, c, hc, rfl⟩ hroute
  refine ⟨c', hc', ?_, ?_⟩
  · intro m hm hlater hlatest
    obtain ⟨b, hb⟩ := Lib.LastWriter.foldl_written_of_latest Notice.timestamp_onto
      ((horder.map Notice.timestamp).nodup_iff.mpr hdistinct) (horder.mem_iff.mpr hm)
      (fun m' hm' => hlatest m' (horder.mem_iff.mp hm')) hlater
    have hfinal : c'.status = m.onto b := hstatus.trans hb
    rw [hfinal]
    exact ⟨m.timestamp_onto b, fun h => Notice.status_onto h b⟩
  · intro hold
    exact hstatus.trans (Lib.LastWriter.foldl_written_of_le fun m hm => hold m (horder.mem_iff.mp hm))

/-- A root that has recorded the cluster `c1` as offline at time 1, when it was a child of `old`. -/
def rootOfC1 : Root where
  subtreeRouter := ∅
  clusters := (∅ : Store ClusterSpec ClusterStatus).put (clusterKey "c1")
    (Root.reportedCluster "c1" ⟨":8287", "old", clusterStatusOffline, 1, ∅, ∅⟩)

theorem holds_rootOfC1 : Holds rootOfC1 "c1" ⟨":8287", "old", clusterStatusOffline, 1, ∅, ∅⟩ :=
  ⟨stamped_empty.put _ _, _, Store.get_put_self _ _ _, rfl⟩

/-- The registration of `c1` as a child of `parent`. -/
def registryOfC1 (time : Int) (parent : String) : ClusterRegistry := ⟨"c1", "edge", ":8287", time, parent⟩

/-- A report without a status leaves the status of an older registration, but only if that one comes
first. -/
theorem report_without_status_depends_on_order :
    ∃ c₁ c₂, (handleAll MapOrder.sorted "c1" rootOfC1
        ([.regist (registryOfC1 3 "p") 3, .report ⟨"", "", "", 5, ∅, ∅⟩].map (Prod.mk "p"))).clusters.get
          (clusterKey "c1") = some c₁ ∧
      (handleAll MapOrder.sorted "c1" rootOfC1
        ([.report ⟨"", "", "", 5, ∅, ∅⟩, .regist (registryOfC1 3 "p") 3].map (Prod.mk "p"))).clusters.get
          (clusterKey "c1") = some c₂ ∧
      c₁.status.timestamp = 5 ∧ c₂.status.timestamp = 5 ∧
      c₁.status.status = clusterStatusOnline ∧ c₂.status.status = clusterStatusOffline := by
  obtain ⟨-, c₁, hc₁, h₁⟩ := holds_handleAll MapOrder.sorted (p := "p")
    (l := [.regist (registryOfC1 3 "p") 3, .report ⟨"", "", "", 5, ∅, ∅⟩]) holds_rootOfC1 (Or.inl rfl)
  obtain ⟨-, c₂, hc₂, h₂⟩ := holds_handleAll MapOrder.sorted (p := "p")
    (l := [.report ⟨"", "", "", 5, ∅, ∅⟩, .regist (registryOfC1 3 "p") 3]) holds_rootOfC1 (Or.inl rfl)
  exact ⟨c₁, c₂, hc₁, hc₂, by rw [h₁]; rfl, by rw [h₂]; rfl, by rw [h₁]; rfl, by rw [h₂]; rfl⟩

/-- A registration, an unregistration and a report: the report is the latest one. -/
theorem latest_report_wins :
    ∃ c', (handleAll MapOrder.sorted "c1" rootOfC1
        ([.report ⟨"", "", clusterStatusOnline, 9, ∅, ∅⟩, .unregist (registryOfC1 7 "p"),
          .regist (registryOfC1 4 "p") 4].map (Prod.mk "p"))).clusters.get (clusterKey "c1") = some c' ∧
      c'.status.timestamp = 9 ∧ c'.status.status = clusterStatusOnline := by
  obtain ⟨c', hc', hlatest, -⟩ := latest_message_wins MapOrder.sorted (x := "c1") (p := "p")
    holds_rootOfC1.stamped (Store.get_put_self _ _ _) (Or.inl rfl) (by decide)
    (List.reverse_perm [.regist (registryOfC1 4 "p") 4, .unregist (registryOfC1 7 "p"),
      .report ⟨"", "", clusterStatusOnline, 9, ∅, ∅⟩])
  obtain ⟨htime, hstatus⟩ := hlatest (.report ⟨"", "", clusterStatusOnline, 9, ∅, ∅⟩) (by simp)
    (by decide) (by decide)
  exact ⟨c', hc', htime, hstatus (by decide)⟩

/-! ## A cluster that changes its parent -/

/-- A cluster that is routed through `p₁` moves to `p₂`.  It ends up online below `p₂` exactly when the
unregistration through `p₁` is handled first: otherwise the registration finds the old route and is
dropped. -/
theorem online_at_new_parent_iff (it : MapOrder String) {root : Root} {x p₁ p₂ : String}
    {c : K8sClient.Cluster} (hs : Stamped root.clusters) (hc : root.clusters.get (clusterKey x) = some c)
    (hroute : root.subtreeRouter.get x = some p₁) (hne : p₁ ≠ p₂) {cr₁ cr₂ : ClusterRegistry}
    (hparent : cr₂.parentName = p₂) (hlater : c.status.timestamp < cr₁.time)
    (hmoved : cr₁.time < cr₂.time) (now : Int) {order : List (String × Notice)}
    (horder : order.Perm [(p₁, .unregist cr₁), (p₂, .regist cr₂ now)]) :
    (∃ c', (handleAll it x root order).clusters.get (clusterKey x) = some c' ∧
      c'.status.status = clusterStatusOnline ∧ c'.status.parentName = p₂ ∧
      c'.status.timestamp = cr₂.time) ↔
    order = [(p₁, .unregist cr₁), (p₂, .regist cr₂ now)] := by
  have hholds : Holds root x c.status := ⟨hs, c, hc, rfl⟩
  rcases List.perm_pair.mp horder with rfl | rfl
  · -- the route is gone when the registration comes
    simp only [iff_true]
    have hgone : RoutedBy (Notice.handle it x p₁ root (.unregist cr₁)).2 x p₂ := by
      left
      show (delRoute it root.subtreeRouter x p₁).get x = none
      rw [get_delRoute, if_pos (Or.inl ⟨rfl, Or.inr hroute⟩)]
    have hoffline := holds_handle it hholds (Or.inr hroute) (.unregist cr₁)
    obtain ⟨-, c', hc', hstatus⟩ := holds_handle it hoffline hgone (.regist cr₂ now)
    have hfinal : c'.status = Notice.onto (.regist cr₂ now) (Notice.onto (.unregist cr₁) c.status) := by
      rw [hstatus, Notice.written_of_lt (n := .unregist cr₁) hlater]
      exact Notice.written_of_lt (n := .regist cr₂ now) hmoved
    exact ⟨c', hc', by rw [hfinal]; rfl, by rw [hfinal]; exact hparent, by rw [hfinal]; rfl⟩
  · -- the registration is refused, and the unregistration is the last word
    have hrefused : ¬ RoutedBy root x p₂ := by
      rintro (h | h)
      · rw [hroute] at h
        simp at h
      · rw [hroute] at h
        exact hne (Option.some.inj h)
    have hsame : handleAll it x root [(p₂, .regist cr₂ now), (p₁, .unregist cr₁)] =
        (Notice.handle it x p₁ root (.unregist cr₁)).2 := by
      show (Notice.handle it x p₁ (Notice.handle it x p₂ root (.regist cr₂ now)).2 (.unregist cr₁)).2 = _
      rw [handleRegist_of_not_routedBy it hrefused]
    obtain ⟨-, c₁, hc₁, hstatus⟩ := holds_handle it hholds (Or.inr hroute) (.unregist cr₁)
    have hfinal : c₁.status = Notice.onto (.unregist cr₁) c.status :=
      hstatus.trans (Notice.written_of_lt hlater)
    constructor
    · rintro ⟨c', hc', honline, -, -⟩
      rw [hsame] at hc'
      obtain rfl : c₁ = c' := Option.some.inj (hc₁.symm.trans hc')
      rw [hfinal] at honline
      exact absurd honline (by show ¬ clusterStatusOffline = clusterStatusOnline; decide)
    · intro heq
      have := (Prod.mk.inj (List.cons.inj heq).1).1
      exact absurd this.symm hne

/-- The same root with a route to `c1` through `p1`. -/
def rootWithRoute : Root := { rootOfC1 with subtreeRouter := GoMap.ofList [("c1", "p1")] }

/-- The registration through the new parent is handled before the unregistration through the old one:
the cluster ends up offline below its old parent. -/
theorem early_registration_lost :
    ∃ c', (handleAll MapOrder.sorted "c1" rootWithRoute
        [("p2", .regist (registryOfC1 8 "p2") 8), ("p1", .unregist (registryOfC1 6 "p1"))]).clusters.get
          (clusterKey "c1") = some c' ∧
      c'.status = ⟨":8287", "old", clusterStatusOffline, 6, ∅, ∅⟩ := by
  have hroute : ¬ RoutedBy rootWithRoute "c1" "p2" := by decide
  have hholds : Holds rootWithRoute "c1" _ := holds_rootOfC1.withRoutes _
  obtain ⟨-, c', hc', hstatus⟩ :=
    holds_handle MapOrder.sorted (p := "p1") hholds (Or.inr rfl) (.unregist (registryOfC1 6 "p1"))
  refine ⟨c', ?_, hstatus⟩
  rw [handleAll, List.foldl_cons, handleRegist_of_not_routedBy MapOrder.sorted hroute]
  exact hc'

/-- Handled in the order of the move, the cluster ends up online below its new parent. -/
theorem online_at_new_parent :
    ∃ c', (handleAll MapOrder.sorted "c1" rootWithRoute
        [("p1", .unregist (registryOfC1 6 "p1")), ("p2", .regist (registryOfC1 8 "p2") 8)]).clusters.get
          (clusterKey "c1") = some c' ∧
      c'.status.status = clusterStatusOnline ∧ c'.status.parentName = "p2" ∧ c'.status.timestamp = 8 := by
  obtain ⟨hs, c, hc, hstatus⟩ := holds_rootOfC1.withRoutes rootWithRoute.subtreeRouter
  have hlater : c.status.timestamp < (registryOfC1 6 "p1").time := by
    rw [hstatus]
    decide
  exact (online_at_new_parent_iff MapOrder.sorted hs hc rfl (by decide) rfl hlater
    (by decide) 8 (List.Perm.refl [("p1", Notice.unregist (registryOfC1 6 "p1")),
      ("p2", Notice.regist (registryOfC1 8 "p2") 8)])).mpr rfl

end OteStack
