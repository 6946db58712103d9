/-
# OteStack.ControllerManager.ClusterStatusReports — what status reports leave of a Cluster object.

`UpdateClusterStatus` of `pkg/controllermanager/cluster_status_processor.go` hands the status that a cluster
has reported to `PatchStatus`.  The report has neither an address nor a parent, which only the registration
knows, and the fields that are empty are not in the patch.  So any number of reports, whatever becomes of
their calls, leaves the registration data as it was (`statusReports_keep_registration`).

The quantities go into the patch as the members of an object, and a merge patch can only say by a null that a
member is gone.  So a resource that has once been recorded stays, and what is recorded is what was reported
only as long as no resource disappears (`statusReport_recorded_iff`).
-/
import OteStack.ClusterHandler.ClusterStatus
import OteStack.Lib.Faults
import OteStack.Reporter.ClusterStatusReport

namespace OteStack.ControllerManager

open OteStack.Lib (Fate GoMap MapOrder Proc withFaults run_withFaults_call)
open OteStack.Lib.KubeApi
open OteStack.K8sClient
open OteStack.Reporter (isNodeReady syncClusterStatus)
open OteStack.Root (reportedCluster)

/-- What the centre keeps of the clusters, and the fates of the calls to come. -/
abbrev Centre := Store ClusterSpec ClusterStatus × List (Fate ApiError)

/-- A report of a cluster is handled. -/
def patchReport (clusterName : String) (status : ClusterStatus) (w : Centre) : Except Error Unit × Centre :=
  Proc.run (withFaults serveClusters) (ClusterCRD.patchStatus (reportedCluster clusterName status)) w

/-! ## One report -/

/-- A status laid over the stored one. -/
def laidOver (old : K8sClient.Cluster) (status : ClusterStatus) : K8sClient.Cluster :=
  withStatus (normal old) (overlayStatus old.status status)

/-- A read may fail, and leaves everything as it is. -/
theorem run_get_withFaults (k : ObjectKey) (s : Store ClusterSpec ClusterStatus)
    (fates : List (Fate ApiError)) :
    ∃ got, Proc.run (withFaults serveClusters) (Custom.Client.get k) (s, fates) = (got, s, fates.tail) ∧
      ∀ old, got = .ok old → s.get k = some old := by
  obtain ⟨got, s', hrun, hcases⟩ := run_withFaults_call serveClusters (.get k) s fates
  have hserve : (serveClusters s (.get k)).2 = s := by
    rcases h : s.get k with _ | x
    · simp [Custom.serve, h]
    · simp [Custom.serve, h]
  rcases hcases with ⟨rfl, rfl⟩ | ⟨err, rfl, hs⟩
  · refine ⟨_, hrun.trans (by rw [hserve]), ?_⟩
    intro old hold
    rcases h : s.get k with _ | x
    · simp [Custom.serve, h] at hold
    · simpa [Custom.serve, h] using hold
  · rw [hserve, or_self] at hs
    exact ⟨_, hrun.trans (by rw [hs]), fun old hold => by cases hold⟩

/-- The patch may fail too, and it may be applied then or not. -/
theorem run_patch_withFaults {s : Store ClusterSpec ClusterStatus} {old : K8sClient.Cluster}
    (h : s.get old.metadata.key = some old) (status : ClusterStatus) (fates : List (Fate ApiError)) :
    ∃ res s', Proc.run (withFaults serveClusters)
        (Custom.Client.patch old.metadata.key (getPatchBytes old (withStatus old status))) (s, fates) =
          (res, s', fates.tail) ∧
      ((∃ err, res = .error err) ∧ s' = s ∨ s' = s.put old.metadata.key (laidOver old status)) := by
  obtain ⟨res, s', hrun, hcases⟩ := run_withFaults_call serveClusters
    (.patch old.metadata.key (getPatchBytes old (withStatus old status))) s fates
  have hserve : (serveClusters s (.patch old.metadata.key (getPatchBytes old (withStatus old status)))).2 =
      s.put old.metadata.key (laidOver old status) :=
    congrArg Prod.snd (ClusterCRD.run_patch_getPatchBytes h status)
  refine ⟨res, s', hrun, ?_⟩
  rcases hcases with ⟨-, rfl⟩ | ⟨err, herr, rfl | rfl⟩
  · exact Or.inr hserve
  · exact Or.inl ⟨⟨err, herr⟩, rfl⟩
  · exact Or.inr hserve

/-- A report is refused and changes nothing, or its status is laid over the stored one.  It may then still be
refused, when only the answer has failed. -/
theorem patchReport_cases {clusterName : String} {status : ClusterStatus} {w w' : Centre}
    {res : Except Error Unit} (h : patchReport clusterName status w = (res, w')) :
    (res ≠ .ok () ∧ w'.1 = w.1) ∨
      ∃ old, w.1.get (clusterKey clusterName) = some old ∧
        w'.1 = w.1.put (clusterKey clusterName) (laidOver old status) := by
  obtain ⟨s, fates⟩ := w
  obtain ⟨got, hget, hgot⟩ := run_get_withFaults (reportedCluster clusterName status).metadata.key s fates
  rw [patchReport, ClusterCRD.patchStatus, ClusterCRD.checked, Proc.run_do, hget] at h
  rcases got with e | old
  · obtain ⟨rfl, rfl⟩ := Prod.mk.inj h
    exact Or.inl ⟨by simp, rfl⟩
  · dsimp only at h
    have hold : s.get (clusterKey clusterName) = some old := hgot old rfl
    have hkey : old.metadata.key = clusterKey clusterName := s.key_of_get hold
    split at h
    · obtain ⟨ans, s', hpatch, hcases⟩ := run_patch_withFaults (hkey ▸ hold)
        (reportedCluster clusterName status).status fates.tail
      rw [Proc.run_do, hpatch] at h
      obtain ⟨rfl, rfl⟩ := Prod.mk.inj h
      rcases hcases with ⟨⟨err, rfl⟩, rfl⟩ | rfl
      · exact Or.inl ⟨by simp [asError, Except.map], rfl⟩
      · exact Or.inr ⟨old, hold, by rw [hkey]; rfl⟩
    · obtain ⟨rfl, rfl⟩ := Prod.mk.inj h
      exact Or.inl ⟨by simp, rfl⟩

/-- What an accepted report leaves. -/
theorem get_of_accepted {clusterName : String} {status : ClusterStatus} {w w' : Centre}
    {old : K8sClient.Cluster} (hold : w.1.get (clusterKey clusterName) = some old)
    (h : patchReport clusterName status w = (.ok (), w')) :
    w'.1.get (clusterKey clusterName) =
      some (w.1.stamped (clusterKey clusterName) (laidOver old status)) := by
  rcases patchReport_cases h with ⟨hne, -⟩ | ⟨old', hold', hput⟩
  · exact absurd rfl hne
  · obtain rfl : old' = old := Option.some.inj (hold'.symm.trans hold)
    rw [hput, Store.get_put_self]

/-! ## Any number of reports -/

/-- The same Cluster object but for its version and for what a status report says.  The labels may be nil or
empty. -/
structure SameRegistration (x x' : K8sClient.Cluster) : Prop where
  listen : x'.status.listen = x.status.listen
  parentName : x'.status.parentName = x.status.parentName
  spec : x'.spec = x.spec
  key : x'.metadata.key = x.metadata.key
  uid : x'.metadata.uid = x.metadata.uid
  deletionTimestamp : x'.metadata.deletionTimestamp = x.metadata.deletionTimestamp
  labels : labelsOf x'.metadata = labelsOf x.metadata

theorem SameRegistration.refl (x : K8sClient.Cluster) : SameRegistration x x :=
  ⟨rfl, rfl, rfl, rfl, rfl, rfl, rfl⟩

theorem SameRegistration.trans {x y z : K8sClient.Cluster} (h : SameRegistration x y)
    (h' : SameRegistration y z) : SameRegistration x z where
  listen := h'.listen.trans h.listen
  parentName := h'.parentName.trans h.parentName
  spec := h'.spec.trans h.spec
  key := h'.key.trans h.key
  uid := h'.uid.trans h.uid
  deletionTimestamp := h'.deletionTimestamp.trans h.deletionTimestamp
  labels := h'.labels.trans h.labels

theorem labelsOf_normal (x : K8sClient.Cluster) : labelsOf (normal x).metadata = labelsOf x.metadata := by
  show (nilIfEmpty (labelsOf x.metadata)).getD ∅ = labelsOf x.metadata
  unfold nilIfEmpty
  split
  · rename_i hempty
    refine GoMap.ext fun n => ?_
    rw [Option.getD_none, GoMap.get_empty, GoMap.notMem_keys.mp (by simp [hempty])]
  · rfl

/-- A status without an address and a parent keeps those that are stored. -/
theorem SameRegistration.laidOver {s : Store ClusterSpec ClusterStatus} {k : ObjectKey}
    {x : K8sClient.Cluster} {status : ClusterStatus} (hx : s.get k = some x) (hlisten : status.listen = "")
    (hparent : status.parentName = "") :
    SameRegistration x (s.stamped k (ControllerManager.laidOver x status)) where
  listen := by
    show overlayText x.status.listen status.listen = _
    rw [hlisten]
    rfl
  parentName := by
    show overlayText x.status.parentName status.parentName = _
    rw [hparent]
    rfl
  spec := rfl
  key := (s.key_of_get hx).symm
  uid := rfl
  deletionTimestamp := rfl
  labels := labelsOf_normal x

/-- What a status says of a cluster is recorded. -/
structure Recorded (reported : ClusterStatus) (x : K8sClient.Cluster) : Prop where
  status : x.status.status = reported.status
  timestamp : x.status.timestamp = reported.timestamp
  capacity : ∀ n v, reported.capacity.get n = some v → x.status.capacity.get n = some v
  allocatable : ∀ n v, reported.allocatable.get n = some v → x.status.allocatable.get n = some v

/-- A status that is not empty is recorded when it is laid over the stored one. -/
theorem Recorded.laidOver (s : Store ClusterSpec ClusterStatus) (k : ObjectKey) (x : K8sClient.Cluster)
    {status : ClusterStatus} (hstatus : status.status ≠ "") :
    Recorded status (s.stamped k (ControllerManager.laidOver x status)) where
  status := if_neg hstatus
  timestamp := rfl
  capacity n v hv := by
    show (x.status.capacity.overlay status.capacity).get n = some v
    rw [GoMap.get_overlay, hv, Option.some_or]
  allocatable n v hv := by
    show (x.status.allocatable.overlay status.allocatable).get n = some v
    rw [GoMap.get_overlay, hv, Option.some_or]

/-- A status report: the cluster, the time, and the answer to the list of its nodes. -/
structure StatusReport where
  clusterName : String
  now : Int
  nodes : Except ApiError (List Reporter.Node)

section Reports

variable (it : MapOrder String) (text : Int → String)

/-- The status of a report. -/
def StatusReport.status (report : StatusReport) : ClusterStatus :=
  syncClusterStatus it text report.now report.nodes

/-- The registration data is not the reporter's. -/
theorem StatusReport.status_spec (report : StatusReport) :
    (report.status it text).listen = "" ∧ (report.status it text).parentName = "" ∧
      (report.status it text).status ≠ "" := by
  unfold StatusReport.status syncClusterStatus
  split
  · exact ⟨rfl, rfl, show clusterStatusOffline ≠ "" by decide⟩
  · exact ⟨rfl, rfl, show clusterStatusOnline ≠ "" by decide⟩

/-- Reports are handled one after the other. -/
def handleReports (w : Centre) (reports : List StatusReport) : Centre :=
  reports.foldl (fun w report => (patchReport report.clusterName (report.status it text) w).2) w

/-- One report keeps what is registered. -/
theorem sameRegistration_patchReport (report : StatusReport) {w : Centre} {k : ObjectKey}
    {x : K8sClient.Cluster} (hx : w.1.get k = some x) :
    ∃ x', (patchReport report.clusterName (report.status it text) w).2.1.get k = some x' ∧
      SameRegistration x x' := by
  obtain ⟨hlisten, hparent, -⟩ := report.status_spec it text
  obtain ⟨⟨res, w'⟩, hres⟩ : ∃ out, patchReport report.clusterName (report.status it text) w = out := ⟨_, rfl⟩
  rw [hres]
  rcases patchReport_cases hres with ⟨-, hsame⟩ | ⟨old, hold, hput⟩
  · rw [hsame]
    exact ⟨x, hx, .refl x⟩
  · rw [hput, Store.get_put]
    split
    · subst k
      obtain rfl : old = x := Option.some.inj (hold.symm.trans hx)
      exact ⟨_, rfl, .laidOver hold hlisten hparent⟩
    · exact ⟨x, hx, .refl x⟩

/-- Any number of reports keeps what is registered. -/
theorem sameRegistration_handleReports (reports : List StatusReport) {w : Centre} {k : ObjectKey}
    {x : K8sClient.Cluster} (hx : w.1.get k = some x) :
    ∃ x', (handleReports it text w reports).1.get k = some x' ∧ SameRegistration x x' := by
  induction reports generalizing w x with
  | nil => exact ⟨x, hx, .refl x⟩
  | cons report reports ih =>
      obtain ⟨y, hy, hxy⟩ := sameRegistration_patchReport it text report hx
      obtain ⟨z, hz, hyz⟩ := ih hy
      exact ⟨z, hz, hxy.trans hyz⟩

end Reports

/-- Status reports keep the registration data.  After any number of reports, accepted or refused, every
stored object has the address, the parent, the spec and the metadata it had, but for the version, and after
each report that is accepted the object of its cluster has the status, the timestamp and the quantities that
were reported. -/
theorem statusReports_keep_registration (it : MapOrder String) (text : Int → String) (w : Centre)
    (reports : List StatusReport) :
    (∀ k x, w.1.get k = some x →
      ∃ x', (handleReports it text w reports).1.get k = some x' ∧ SameRegistration x x') ∧
    ∀ earlier report later, reports = earlier ++ report :: later → ∀ w',
      patchReport report.clusterName (report.status it text) (handleReports it text w earlier) =
        (.ok (), w') →
      ∃ x', w'.1.get (clusterKey report.clusterName) = some x' ∧ Recorded (report.status it text) x' := by
  constructor
  · intro k x hx
    exact sameRegistration_handleReports it text reports hx
  · intro earlier report later _ w' haccepted
    rcases patchReport_cases haccepted with ⟨hne, -⟩ | ⟨old, hold, -⟩
    · exact absurd rfl hne
    · exact ⟨_, get_of_accepted hold haccepted, .laidOver _ _ old (report.status_spec it text).2.2⟩

/-! ### A cluster and its reports -/

/-- A ready node with some resources. -/
def readyNode (resources : List (String × Int)) : Reporter.Node where
  metadata := ⟨"worker", "", none, "", "", none⟩
  spec := ⟨"", false⟩
  status := ⟨[("Ready", "True")], "", [], some (.ofList resources), some (.ofList resources), []⟩

/-- The report of a cluster with one node. -/
def reportOfC1 (now : Int) (resources : List (String × Int)) : StatusReport :=
  ⟨"c1", now, .ok [readyNode resources]⟩

/-- A cluster that has registered at time 3. -/
def registered : K8sClient.Cluster where
  metadata := ⟨"c1", clusterNamespace, none, "", "", none⟩
  spec := ⟨"edge"⟩
  status := ⟨"10.0.0.1:8287", "root", clusterStatusOnline, 3, ∅, ∅⟩

/-- The centre after that cluster has reported some resources at time 5; all calls are served. -/
def centreOfC1 (resources : List (String × Int)) : Centre :=
  handleReports .sorted toString ((∅ : Store ClusterSpec ClusterStatus).put (clusterKey "c1") registered, [])
    [reportOfC1 5 resources]

/-- A report that comes late is refused, the next one is accepted, and the address is still there. -/
theorem statusReports_keep_c1 :
    ∃ x x' x'', (centreOfC1 [("cpu", 4)]).1.get (clusterKey "c1") = some x ∧
      x.status.listen = "10.0.0.1:8287" ∧
      (handleReports .sorted toString (centreOfC1 [("cpu", 4)])
        [reportOfC1 4 [("cpu", 2)], reportOfC1 65 [("cpu", 8)]]).1.get (clusterKey "c1") = some x' ∧
      SameRegistration x x' ∧
      (patchReport "c1" ((reportOfC1 65 [("cpu", 8)]).status .sorted toString)
        (handleReports .sorted toString (centreOfC1 [("cpu", 4)]) [reportOfC1 4 [("cpu", 2)]])).2.1.get
          (clusterKey "c1") = some x'' ∧
      Recorded ((reportOfC1 65 [("cpu", 8)]).status .sorted toString) x'' := by
  obtain ⟨hkeeps, hrecords⟩ := statusReports_keep_registration .sorted toString (centreOfC1 [("cpu", 4)])
    [reportOfC1 4 [("cpu", 2)], reportOfC1 65 [("cpu", 8)]]
  have hlisten : ((centreOfC1 [("cpu", 4)]).1.get (clusterKey "c1")).map (fun x => x.status.listen) =
      some "10.0.0.1:8287" := by decide
  obtain ⟨x, hx, hlisten⟩ := Option.map_eq_some_iff.mp hlisten
  obtain ⟨x', hx', hsame⟩ := hkeeps _ x hx
  obtain ⟨x'', hx'', hrecorded⟩ := hrecords [reportOfC1 4 [("cpu", 2)]] (reportOfC1 65 [("cpu", 8)]) [] rfl _
    (Prod.ext rfl rfl)
  exact ⟨x, x', x'', hx, hlisten, hx', hsame, hx'', hrecorded⟩

/-! ## The resources of the last report -/

/-- The recorded resources are those of the last report only as long as no resource disappears: after a report
that is accepted, the stored map has exactly the names and values of the report if and only if every name that
was stored before is in the report. -/
theorem statusReport_recorded_iff (clusterName : String) (status : ClusterStatus) {w w' : Centre}
    {old : K8sClient.Cluster} (hold : w.1.get (clusterKey clusterName) = some old)
    (h : patchReport clusterName status w = (.ok (), w')) :
    ∃ x, w'.1.get (clusterKey clusterName) = some x ∧
      (x.status.capacity = status.capacity ↔ old.status.capacity.keys ⊆ status.capacity.keys) ∧
      (x.status.allocatable = status.allocatable ↔
        old.status.allocatable.keys ⊆ status.allocatable.keys) :=
  ⟨_, get_of_accepted hold h, GoMap.overlay_eq_right_iff, GoMap.overlay_eq_right_iff⟩

/-- For a report of listed nodes: every resource that was recorded is still offered by a ready node. -/
theorem recorded_of_nodes_iff (it : MapOrder String) (text : Int → String) {clusterName : String} {now : Int}
    {nodes : List Reporter.Node} {w w' : Centre} {old : K8sClient.Cluster}
    (hold : w.1.get (clusterKey clusterName) = some old)
    (h : patchReport clusterName (syncClusterStatus it text now (.ok nodes)) w = (.ok (), w')) :
    ∃ x, w'.1.get (clusterKey clusterName) = some x ∧
      (x.status.capacity = (syncClusterStatus it text now (.ok nodes)).capacity ↔
        ∀ n ∈ old.status.capacity.keys, ∃ node ∈ nodes, isNodeReady node = true ∧
          n ∈ (node.status.capacity.getD ∅).keys) ∧
      (x.status.allocatable = (syncClusterStatus it text now (.ok nodes)).allocatable ↔
        ∀ n ∈ old.status.allocatable.keys, ∃ node ∈ nodes, isNodeReady node = true ∧
          n ∈ (node.status.allocatable.getD ∅).keys) := by
  refine ⟨_, get_of_accepted hold h, GoMap.overlay_eq_right_iff.trans ?_,
    GoMap.overlay_eq_right_iff.trans ?_⟩
  · exact forall₂_congr fun _ _ => Reporter.mem_keys_capacity_syncClusterStatus it
  · exact forall₂_congr fun _ _ => Reporter.mem_keys_allocatable_syncClusterStatus it

/-- Every resource is still there, and what is recorded is what was reported. -/
theorem statusReport_recorded_same_names :
    ∃ x, (patchReport "c1" ((reportOfC1 65 [("cpu", 8)]).status .sorted toString)
        (centreOfC1 [("cpu", 4)])).2.1.get (clusterKey "c1") = some x ∧
      x.status.capacity = ((reportOfC1 65 [("cpu", 8)]).status .sorted toString).capacity := by
  have hsome : ((centreOfC1 [("cpu", 4)]).1.get (clusterKey "c1")).map (fun old => old.status.capacity.keys) =
      some {"cpu"} := by decide
  obtain ⟨old, hold, hkeys⟩ := Option.map_eq_some_iff.mp hsome
  obtain ⟨x, hx, hcapacity, -⟩ := statusReport_recorded_iff "c1"
    ((reportOfC1 65 [("cpu", 8)]).status .sorted toString) hold (Prod.ext rfl rfl)
  refine ⟨x, hx, hcapacity.mpr ?_⟩
  rw [hkeys]
  decide

/-- The node has no `gpu` any more, the report is accepted, and `gpu` is still recorded. -/
theorem gpu_stays_recorded :
    (patchReport "c1" ((reportOfC1 65 [("cpu", 8)]).status .sorted toString)
        (centreOfC1 [("cpu", 4), ("gpu", 1)])).1 = .ok () ∧
      ((reportOfC1 65 [("cpu", 8)]).status .sorted toString).capacity.get "cpu" = some "8" ∧
      ((reportOfC1 65 [("cpu", 8)]).status .sorted toString).capacity.get "gpu" = none ∧
      ((patchReport "c1" ((reportOfC1 65 [("cpu", 8)]).status .sorted toString)
        (centreOfC1 [("cpu", 4), ("gpu", 1)])).2.1.get (clusterKey "c1")).map
          (fun x => (x.status.timestamp, x.status.capacity.get "cpu", x.status.capacity.get "gpu")) =
        some (65, some "8", some "1") :=
  ⟨rfl, by decide, by decide, by decide⟩

end OteStack.ControllerManager
