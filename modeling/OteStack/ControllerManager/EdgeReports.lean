/-
# OteStack.ControllerManager.EdgeReports — an edge report, from its bytes on.

`HandleReceivedMessage` of `pkg/controllermanager/upstream_processor.go` and the processors behind it.  A
message is decoded, its body to a list of reports, the body of each report to the maps of its kind.  JSON can
leave out or make null what is a pointer or a map in Go, so the functions are programs that may panic
(`Lib.Go`).  What they ask of the API server are the programs of `OteStack.ControllerManager.Upstream`,
executed against any server.

The loops over a reported map read the metadata of every entry, also of one that is null: a report with such
an entry stops the controller manager (`edge_report_panics_iff`).  Nothing else does, and then every report of
the list is handled, whatever became of those before it.
-/
import OteStack.ControllerManager.Upstream
import OteStack.EdgeHandler.ControlRequest
import OteStack.K8sClient.ClusterCRD
import OteStack.Lib.GoPanic

namespace OteStack.ControllerManager

open OteStack.Lib (Go GoMap MapOrder Proc)
open OteStack.Lib.KubeApi
open OteStack.Reporter (clusterLabel ResourceType PodSpec PodStatus NodeSpec NodeStatus)
open OteStack.K8sClient (ClusterSpec ClusterStatus Scalar clusterNamespace)

/-! ## What is decoded -/

/-- `reporter.Report`. -/
structure RawReport where
  resourceType : Int
  body : List UInt8
  deriving DecidableEq, Repr

/-- A map of a report; an entry may be null. -/
abbrev RawMap (S T : Type) := GoMap String (Option (Object S T))

/-- `PodResourceStatus` and its like, as they are decoded. -/
structure RawStatus (S T : Type) where
  updateMap : Option (RawMap S T)
  delMap : Option (RawMap S T)
  fullList : Option (List String)

/-- `corev1.ObjectReference`. -/
structure ObjectReference where
  kind : String
  «namespace» : String
  name : String
  uid : String
  deriving DecidableEq, Repr

/-- An event, apart from its metadata. -/
structure EventSpec where
  involvedObject : ObjectReference
  message : String
  deriving DecidableEq, Repr

/-- `corev1.Event`. -/
abbrev Event := Object EventSpec Unit

/-- What a report is about. -/
inductive ReportKind where
  | resource (t : ResourceType)
  | clusterStatus
  | event
  deriving DecidableEq, Repr

/-- The numbers of `pkg/reporter`; statefulsets, 6, are not supported. -/
def reportKind (resourceType : Int) : Option ReportKind :=
  if resourceType = 1 then some (.resource .node)
  else if resourceType = 2 then some (.resource .pod)
  else if resourceType = 3 then some (.resource .deployment)
  else if resourceType = 4 then some (.resource .daemonset)
  else if resourceType = 5 then some (.resource .service)
  else if resourceType = 7 then some .clusterStatus
  else if resourceType = 8 then some .event
  else none

/-- What the upstream processor works with: the decoders, references to stored objects, the annotation of a
mirror pod, and an API server with states in `σ`. -/
structure UpstreamProcessor (σ : Type) where
  unmarshal : List UInt8 → Except String WireMessage
  reportDeserialize : List UInt8 → Except String (List RawReport)
  resourceStatus : (t : ResourceType) → List UInt8 → Except String (RawStatus t.Spec t.Status)
  eventStatus : List UInt8 → Except String (RawStatus EventSpec Unit)
  clusterStatus : List UInt8 → Except String ClusterStatus
  podReference : Object PodSpec PodStatus → Except String ObjectReference
  mirrorPodAnnotation : Object PodSpec PodStatus → Option String
  nodeReference : Object NodeSpec NodeStatus → Except String ObjectReference
  serveObjects : (t : ResourceType) → σ → (x : Request t.Spec t.Status) → x.Answer × σ
  serveEvents : σ → (x : Request EventSpec Unit) → x.Answer × σ
  serveClusters : σ → Custom.Request ClusterSpec ClusterStatus Scalar →
    Except ApiError (Object ClusterSpec ClusterStatus) × σ
  it : MapOrder String

namespace UpstreamProcessor

variable {σ : Type} (u : UpstreamProcessor σ)

/-! ## Loops over reported maps -/

/-- Execute a program against the server. -/
def execute {q : Type} {r : q → Type} {α : Type} (serve : σ → (x : q) → r x × σ) (p : Proc q r α) :
    Go σ α := do
  let (a, s) := Proc.run serve p (← get)
  set s
  return a

/-- The loop over a reported map: `UniqueResourceName` is given the metadata of the entry, null or not, and an
object without the cluster label is skipped. -/
def forEachUnique {S T : Type} (handle : Object S T → Go σ (Except Error Unit)) (m : RawMap S T) :
    List String → Go σ Unit
  | [] => return ()
  | key :: rest =>
      match m.get key with
      | none => forEachUnique handle m rest
      | some entry => do
          let o ← Go.deref entry
          match uniqueResourceName o.metadata with
          | .error _ => forEachUnique handle m rest
          | .ok metadata =>
              -- an error is only logged
              let _ ← handle { o with metadata := metadata }
              forEachUnique handle m rest

/-- The part of a report handler for a map that may be nil. -/
def handleMap {S T : Type} (handle : Object S T → Go σ (Except Error Unit)) : Option (RawMap S T) → Go σ Unit
  | none => return ()
  | some m => forEachUnique handle m (u.it.order m)

/-! ## The five kinds with a full list -/

/-- The error of a body that is not of its kind, in the words of the handler. -/
def deserializeFailed : ResourceType → String
  | .pod => "PodReportStatusDeserialize failed : "
  | .node => "NodeReportStatusDeserialize failed : "
  | .deployment => "DeploymentReportStatusDeserialize failed: "
  | .daemonset => "DaemonsetReportStatusDeserialize failed: "
  | .service => "ServiceReportStatusDeserialize failed: "

/-- `handlePodReport` and its like: full list, updates, deletes. -/
def handleResourceReport (t : ResourceType) (clusterName : String) (b : List UInt8) : Go σ (Option String) :=
  match u.resourceStatus t b with
  | .error err => return some (deserializeFailed t ++ err)
  | .ok status => do
      execute (u.serveObjects t)
        (handleIfTaken (deleteObject (scopeOf t)) (takesListOf t) clusterName status.fullList)
      u.handleMap (fun o => execute (u.serveObjects t) (createOrUpdateOf t o)) status.updateMap
      u.handleMap (fun o => execute (u.serveObjects t) (deleteObject (scopeOf t) o)) status.delMap
      return none

/-- Go's `handlePodReport`. -/
def handlePodReport := u.handleResourceReport .pod
/-- Go's `handleNodeReport`. -/
def handleNodeReport := u.handleResourceReport .node
/-- Go's `handleDeploymentReport`. -/
def handleDeploymentReport := u.handleResourceReport .deployment
/-- Go's `handleDaemonsetReport`. -/
def handleDaemonsetReport := u.handleResourceReport .daemonset
/-- Go's `handleServiceReport`. -/
def handleServiceReport := u.handleResourceReport .service

/-! ## Events -/

/-- Go's `relateToPodOrNode`: the event, with the stored object as the involved one. -/
def relateToPodOrNode (event : Event) : Go σ (Except Error Event) := do
  if event.metadata.labels = none ∨ event.metadata.label clusterLabel = "" then
    return .error (.text "event's label is null")
  else
    let involved := event.spec.involvedObject
    let resourceName := involved.name ++ uniqueResourceNameSeparator ++ event.metadata.label clusterLabel
    match involved.kind with
    | "Pod" =>
        match ← execute (u.serveObjects .pod) (Client.get ⟨involved.namespace, resourceName⟩) with
        | .error err => return .error (.api err)
        | .ok storedPod =>
            match u.podReference storedPod with
            | .error err => return .error (.text err)
            | .ok obj =>
                let obj := { obj with uid := (u.mirrorPodAnnotation storedPod).getD obj.uid }
                return .ok { event with spec := { event.spec with involvedObject := obj } }
    | "Node" =>
        match ← execute (u.serveObjects .node) (Client.get ⟨"", resourceName⟩) with
        | .error err => return .error (.api err)
        | .ok storedNode =>
            match u.nodeReference storedNode with
            | .error err => return .error (.text err)
            | .ok obj =>
                let obj := { obj with uid := obj.name }
                return .ok { event with spec := { event.spec with involvedObject := obj } }
    | _ => return .error (.text "resource type of the event-involved object is not supported")

/-- One round of Go's `CenterCreateEvent`, for an event with its unique name. -/
def centerCreateEvent (event : Event) : Go σ (Except Error Unit) := do
  match ← u.relateToPodOrNode event with
  | .error err => return .error err
  | .ok event => return (← execute u.serveEvents (createObject namespacedScope (fun e => e) event)).1

/-- Go's `handleEventReport`.  The full list is not looked at. -/
def handleEventReport (b : List UInt8) : Go σ (Option String) :=
  match u.eventStatus b with
  | .error err => return some ("EventReportStatusDeserialize failed: " ++ err)
  | .ok status => do
      u.handleMap u.centerCreateEvent status.updateMap
      u.handleMap (fun e => execute u.serveEvents (deleteObject namespacedScope e)) status.delMap
      return none

/-! ## Cluster status -/

/-- Go's `UpdateClusterStatus`. -/
def updateClusterStatus (clusterName : String) (status : Option ClusterStatus) :
    Go σ (Except Error Unit) := do
  let status ← Go.deref status
  execute u.serveClusters
    (K8sClient.ClusterCRD.patchStatus ⟨⟨clusterName, clusterNamespace, none, "", "", none⟩, ⟨""⟩, status⟩)

/-- Go's `handleClusterStatusReport`.  In the format of the last error, `% s` is the verb for the name. -/
def handleClusterStatusReport (clusterName : String) (statusbody : List UInt8) : Go σ (Option String) :=
  match u.clusterStatus statusbody with
  | .error err => return some ("status body of cluster " ++ clusterName ++ " deserialize failed : " ++ err)
  | .ok status => do
      match ← u.updateClusterStatus clusterName (some status) with
      | .error err => return some ("update cluster " ++ clusterName ++ "tatus failed : " ++ err.message)
      | .ok _ => return none

/-! ## Reports -/

/-- One round of `processEdgeReport`; `err` is the error so far. -/
def processReport (clusterName : String) (err : Option String) (report : RawReport) : Go σ (Option String) :=
  match reportKind report.resourceType with
  | some (.resource .pod) => u.handlePodReport clusterName report.body
  | some (.resource .node) => u.handleNodeReport clusterName report.body
  | some .clusterStatus => u.handleClusterStatusReport clusterName report.body
  | some (.resource .deployment) => u.handleDeploymentReport clusterName report.body
  | some (.resource .daemonset) => u.handleDaemonsetReport clusterName report.body
  | some (.resource .service) => u.handleServiceReport clusterName report.body
  | some .event => u.handleEventReport report.body
  | none => return err

/-- The loop of `processEdgeReport`. -/
def processReports (clusterName : String) : Option String → List RawReport → Go σ (Option String)
  | err, [] => return err
  | err, report :: rest => do processReports clusterName (← u.processReport clusterName err report) rest

/-- Go's `processEdgeReport`. -/
def processEdgeReport (clusterName : String) (body : List UInt8) : Go σ (Option String) :=
  match u.reportDeserialize body with
  | .error err => return some err
  | .ok reports => u.processReports clusterName none reports

/-- Go's `HandleReceivedMessage`. -/
def handleReceivedMessage (data : List UInt8) : Go σ (Option String) :=
  match u.unmarshal data with
  | .error err => return some ("handleReceivedMessage failed " ++ err)
  | .ok msg =>
      match msg.head with
      | none => return some "handleReceivedMessage failed: message head is nil"
      | some head =>
          match head.command with
          | .edgeReport => u.processEdgeReport head.clusterName msg.body
          | command =>
              return some ("handleReceivedMessage failed: " ++ command.text ++ " command not supported")

/-! ## Reports without null entries -/

variable {u}

/-- The entries of a decoded map are the objects of `m`, ranged over in the same order. -/
def Agrees {S T : Type} (it it' : MapOrder String) :
    Option (RawMap S T) → Option (GoMap String (Object S T)) → Prop
  | none, none => True
  | some raw, some m => (∀ k, raw.get k = (m.get k).map some) ∧ it'.order m = it.order raw
  | _, _ => False

theorem run_execute {q : Type} {r : q → Type} {α : Type} (serve : σ → (x : q) → r x × σ) (p : Proc q r α)
    (s : σ) : (execute serve p).run s = .ok (Proc.run serve p s) := rfl

section Agrees

variable {S T : Type} {serve : σ → (x : Request S T) → x.Answer × σ}
  {handle : Object S T → Api S T (Except Error Unit)} {it : MapOrder String}

/-- The loop over a map without null entries is the one over its objects. -/
theorem run_handleMap {raw : Option (RawMap S T)} {m : Option (GoMap String (Object S T))}
    (h : Agrees u.it it raw m) (s : σ) :
    (u.handleMap (fun o => execute serve (handle o)) raw).run s =
      .ok ((), (Proc.run serve (handleIfPresent (ControllerManager.forEachUnique handle it) m) s).2) := by
  cases raw with
  | none =>
      cases m with
      | none => rfl
      | some m => exact h.elim
  | some raw =>
      cases m with
      | none => exact h.elim
      | some m =>
          obtain ⟨hget, horder⟩ := h
          rw [handleMap, handleIfPresent, ControllerManager.forEachUnique, horder]
          -- key by key
          generalize u.it.order raw = keys
          induction keys generalizing s with
          | nil => rfl
          | cons key rest ih =>
              rw [forEachUnique, Proc.forEach, Proc.run_bind, hget key]
              cases m.get key with
              | none => exact ih s
              | some o =>
                  simp only [Option.map_some, StateT.run_bind, Go.run_deref_some, Go.ok_bind]
                  cases uniqueResourceName o.metadata with
                  | error err => exact ih s
                  | ok metadata =>
                      simp only [StateT.run_bind, run_execute, Go.ok_bind, Proc.run_do, Proc.run_pure]
                      exact ih _

end Agrees

/-- A report without null entries is handled as the model of the decoded report says. -/
theorem run_handleResourceReport {t : ResourceType} {b : List UInt8} {raw : RawStatus t.Spec t.Status}
    (hraw : u.resourceStatus t b = .ok raw) {it : MapOrder String}
    {status : Reporter.ResourceStatus t.Spec t.Status} (hfull : raw.fullList = status.fullList)
    (hupdate : Agrees u.it it raw.updateMap status.updateMap) (hdel : Agrees u.it it raw.delMap status.delMap)
    (clusterName : String) (s : σ) :
    (u.handleResourceReport t clusterName b).run s =
      .ok (none, (Proc.run (u.serveObjects t) (handleReportOf t it clusterName status) s).2) := by
  rw [handleReportOf_eq, handleReport, handleResourceReport, hraw]
  simp only [StateT.run_bind, run_execute, Go.ok_bind, hfull, run_handleMap hupdate, run_handleMap hdel,
    Go.run_pure, Proc.run_do, handleUpdateMap, handleDelMap]

/-! ## Which reports panic -/

@[simp] theorem panics_execute {q : Type} {r : q → Type} {α : Type} (serve : σ → (x : q) → r x × σ)
    (p : Proc q r α) (s : σ) : (execute serve p).Panics s ↔ False :=
  iff_of_false (Go.not_panics_of_run (run_execute serve p s)) id

@[simp] theorem panics_bind_execute {q : Type} {r : q → Type} {α β : Type} (serve : σ → (x : q) → r x × σ)
    (p : Proc q r α) (f : α → Go σ β) (s : σ) :
    (execute serve p >>= f).Panics s ↔ (f (Proc.run serve p s).1).Panics (Proc.run serve p s).2 := Iff.rfl

/-- A map has an entry that is null. -/
def HasNull {S T : Type} (m : Option (RawMap S T)) : Prop := ∃ m' ∈ m, ∃ k, m'.get k = some none

/-- The loop over a map stops at an entry that is null, and nowhere else. -/
theorem forEachUnique_panics_iff {S T : Type} {handle : Object S T → Go σ (Except Error Unit)}
    (hhandle : ∀ o s, ¬ (handle o).Panics s) (m : RawMap S T) (keys : List String) (s : σ) :
    (forEachUnique handle m keys).Panics s ↔ ∃ k ∈ keys, m.get k = some none := by
  induction keys generalizing s with
  | nil => simp [forEachUnique]
  | cons key rest ih =>
      rw [forEachUnique]
      cases hget : m.get key with
      | none => simp [ih, hget]
      | some entry =>
          cases entry with
          | none => simp [hget]
          | some o =>
              simp only [Go.panics_bind_deref_some]
              split
              · simp [ih, hget]
              · rw [Go.panics_bind_iff (fun _ s => ih s)]
                simp [hhandle, hget]

theorem handleMap_panics_iff {S T : Type} {handle : Object S T → Go σ (Except Error Unit)}
    (hhandle : ∀ o s, ¬ (handle o).Panics s) (m : Option (RawMap S T)) (s : σ) :
    (u.handleMap handle m).Panics s ↔ HasNull m := by
  cases m with
  | none => simp [handleMap, HasNull]
  | some m =>
      rw [handleMap, forEachUnique_panics_iff hhandle]
      simp only [HasNull, Option.mem_def, Option.some.injEq, exists_eq_left']
      constructor
      · rintro ⟨k, -, hk⟩
        exact ⟨k, hk⟩
      · rintro ⟨k, hk⟩
        exact ⟨k, (u.it.mem_order m k).mpr (GoMap.mem_keys.mpr ⟨none, hk⟩), hk⟩

/-- The two maps of a report are handled one after the other. -/
theorem handleMaps_panics_iff {S T : Type} {update delete : Object S T → Go σ (Except Error Unit)}
    (hupdate : ∀ o s, ¬ (update o).Panics s) (hdelete : ∀ o s, ¬ (delete o).Panics s)
    (updateMap delMap : Option (RawMap S T)) (s : σ) :
    (do u.handleMap update updateMap
        u.handleMap delete delMap
        return none : Go σ (Option String)).Panics s ↔ HasNull updateMap ∨ HasNull delMap := by
  have hrest : ∀ (_ : Unit) s, (do u.handleMap delete delMap
                                   return none : Go σ (Option String)).Panics s ↔ HasNull delMap := by
    intro _ s
    rw [Go.panics_bind_iff (fun _ => Go.panics_pure _), handleMap_panics_iff hdelete, or_false]
  rw [Go.panics_bind_iff hrest, handleMap_panics_iff hupdate]

theorem handleResourceReport_panics_iff (t : ResourceType) (clusterName : String) (b : List UInt8) (s : σ) :
    (u.handleResourceReport t clusterName b).Panics s ↔
      ∃ status, u.resourceStatus t b = .ok status ∧ (HasNull status.updateMap ∨ HasNull status.delMap) := by
  unfold handleResourceReport
  cases hstatus : u.resourceStatus t b with
  | error err => simp
  | ok status =>
      rw [Go.panics_bind_iff fun _ => handleMaps_panics_iff (by simp) (by simp) _ _]
      simp

/-- An event is related to what is stored, or refused. -/
theorem not_panics_relateToPodOrNode (event : Event) (s : σ) : ¬ (u.relateToPodOrNode event).Panics s := by
  unfold relateToPodOrNode
  split
  · simp
  · dsimp only
    split
    · rw [panics_bind_execute]
      split
      · simp
      · split <;> simp
    · rw [panics_bind_execute]
      split
      · simp
      · split <;> simp
    · simp

theorem not_panics_centerCreateEvent (event : Event) (s : σ) : ¬ (u.centerCreateEvent event).Panics s := by
  have hrest : ∀ (related : Except Error Event) (s : σ), (match related with
      | .error err => return .error err
      | .ok event => do return (← execute u.serveEvents (createObject namespacedScope (fun e => e) event)).1 :
      Go σ (Except Error Unit)).Panics s ↔ False := by
    intro related s
    split <;> simp
  rw [centerCreateEvent, Go.panics_bind_iff hrest, or_false]
  exact not_panics_relateToPodOrNode event s

theorem handleEventReport_panics_iff (b : List UInt8) (s : σ) :
    (u.handleEventReport b).Panics s ↔
      ∃ status, u.eventStatus b = .ok status ∧ (HasNull status.updateMap ∨ HasNull status.delMap) := by
  unfold handleEventReport
  cases hstatus : u.eventStatus b with
  | error err => simp
  | ok status =>
      rw [handleMaps_panics_iff not_panics_centerCreateEvent (by simp)]
      simp

theorem not_panics_handleClusterStatusReport (clusterName : String) (b : List UInt8) (s : σ) :
    ¬ (u.handleClusterStatusReport clusterName b).Panics s := by
  unfold handleClusterStatusReport
  split
  · simp
  · rw [updateClusterStatus, bind_assoc, Go.panics_bind_deref_some, panics_bind_execute]
    split <;> simp

/-! ## Every report of a list -/

variable (u) in
/-- The report is of a kind with maps, and one of them has an entry that is null. -/
def Null (report : RawReport) : Prop :=
  match reportKind report.resourceType with
  | some (.resource t) => ∃ status, u.resourceStatus t report.body = .ok status ∧
      (HasNull status.updateMap ∨ HasNull status.delMap)
  | some .event => ∃ status, u.eventStatus report.body = .ok status ∧
      (HasNull status.updateMap ∨ HasNull status.delMap)
  | some .clusterStatus => False
  | none => False

theorem processReport_panics_iff (clusterName : String) (err : Option String) (report : RawReport) (s : σ) :
    (u.processReport clusterName err report).Panics s ↔ u.Null report := by
  unfold processReport Null
  cases reportKind report.resourceType with
  | none => simp
  | some kind =>
      cases kind with
      | resource t => cases t <;> exact handleResourceReport_panics_iff _ clusterName report.body s
      | clusterStatus =>
          exact iff_of_false (not_panics_handleClusterStatusReport clusterName report.body s) id
      | event => exact handleEventReport_panics_iff report.body s

theorem processReports_panics_iff (clusterName : String) (err : Option String) (reports : List RawReport)
    (s : σ) : (u.processReports clusterName err reports).Panics s ↔ ∃ report ∈ reports, u.Null report := by
  induction reports generalizing err s with
  | nil => simp [processReports]
  | cons report rest ih =>
      rw [processReports, Go.panics_bind_iff fun err s => ih err s, processReport_panics_iff]
      simp

variable (u) in
/-- The state after a report of the cluster has been handled. -/
def handled (clusterName : String) (s : σ) (report : RawReport) : σ :=
  match (u.processReport clusterName none report).run s with
  | .ok (_, s') => s'
  | .error _ => s

theorem handled_of_run {report : RawReport} {clusterName : String} {s s' : σ} {ret : Option String}
    (hrun : (u.processReport clusterName none report).run s = .ok (ret, s')) :
    u.handled clusterName s report = s' := by
  rw [handled, hrun]

/-- A report without a null entry is handled; the error so far plays no part in it. -/
theorem run_processReport {report : RawReport} (hnull : ¬ u.Null report) (clusterName : String)
    (err : Option String) (s : σ) :
    ∃ ret, (u.processReport clusterName err report).run s = .ok (ret, u.handled clusterName s report) := by
  rw [handled]
  cases hrun : (u.processReport clusterName none report).run s with
  | error e => exact absurd ⟨e, hrun⟩ (mt (processReport_panics_iff clusterName none report s).mp hnull)
  | ok r =>
      unfold processReport at hrun ⊢
      cases hkind : reportKind report.resourceType with
      | none =>
          rw [hkind] at hrun
          obtain rfl := Except.ok.inj hrun
          exact ⟨err, rfl⟩
      | some kind =>
          rw [hkind] at hrun
          cases kind with
          | resource t => cases t <;> exact ⟨r.1, hrun⟩
          | clusterStatus => exact ⟨r.1, hrun⟩
          | event => exact ⟨r.1, hrun⟩

/-- A list of them is handled to its end. -/
theorem run_processReports {reports : List RawReport} (hnull : ∀ report ∈ reports, ¬ u.Null report)
    (clusterName : String) (err : Option String) (s : σ) :
    ∃ ret, (u.processReports clusterName err reports).run s =
      .ok (ret, reports.foldl (u.handled clusterName) s) := by
  induction reports generalizing err s with
  | nil => exact ⟨err, rfl⟩
  | cons report rest ih =>
      obtain ⟨err', hrun⟩ := run_processReport (hnull report (by simp)) clusterName err s
      obtain ⟨ret, hrest⟩ := ih (fun r hr => hnull r (List.mem_cons_of_mem _ hr)) err'
        (u.handled clusterName s report)
      refine ⟨ret, ?_⟩
      rw [processReports, StateT.run_bind, hrun, Go.ok_bind, hrest, List.foldl_cons]

variable (u) in
/-- The report is of no kind that is supported, or its body does not decode. -/
def Malformed (report : RawReport) : Prop :=
  match reportKind report.resourceType with
  | some (.resource t) => ∃ err, u.resourceStatus t report.body = .error err
  | some .event => ∃ err, u.eventStatus report.body = .error err
  | some .clusterStatus => ∃ err, u.clusterStatus report.body = .error err
  | none => True

theorem run_processReport_of_malformed {report : RawReport} (h : u.Malformed report) (clusterName : String)
    (s : σ) : ∃ ret, (u.processReport clusterName none report).run s = .ok (ret, s) := by
  unfold Malformed at h
  unfold processReport
  cases hkind : reportKind report.resourceType with
  | none => exact ⟨none, rfl⟩
  | some kind =>
      rw [hkind] at h
      cases kind with
      | resource t =>
          obtain ⟨err, herr⟩ := h
          have hrun : (u.handleResourceReport t clusterName report.body).run s =
              .ok (some (deserializeFailed t ++ err), s) := by
            rw [handleResourceReport, herr]
            rfl
          cases t <;> exact ⟨_, hrun⟩
      | clusterStatus =>
          obtain ⟨err, herr⟩ := h
          dsimp only
          rw [handleClusterStatusReport, herr]
          exact ⟨_, rfl⟩
      | event =>
          obtain ⟨err, herr⟩ := h
          dsimp only
          rw [handleEventReport, herr]
          exact ⟨_, rfl⟩

/-- A malformed report changes nothing. -/
theorem handled_of_malformed {report : RawReport} (h : u.Malformed report) (clusterName : String) (s : σ) :
    u.handled clusterName s report = s := by
  obtain ⟨ret, hrun⟩ := run_processReport_of_malformed h clusterName s
  exact handled_of_run hrun

/-! ## Messages -/

variable (u) in
/-- The bytes are an edge report of the cluster, with these reports. -/
def Carries (data : List UInt8) (clusterName : String) (reports : List RawReport) : Prop :=
  ∃ msg head, u.unmarshal data = .ok msg ∧ msg.head = some head ∧ head.command = .edgeReport ∧
    head.clusterName = clusterName ∧ u.reportDeserialize msg.body = .ok reports

theorem handleReceivedMessage_of_carries {data : List UInt8} {clusterName : String} {reports : List RawReport}
    (h : u.Carries data clusterName reports) :
    u.handleReceivedMessage data = u.processReports clusterName none reports := by
  obtain ⟨msg, head, hdata, hhead, hcommand, rfl, hreports⟩ := h
  simp only [handleReceivedMessage, hdata, hhead, hcommand, processEdgeReport, hreports]

/-- Every other message is refused with an error. -/
theorem run_handleReceivedMessage_of_not_carries {data : List UInt8}
    (h : ¬ ∃ clusterName reports, u.Carries data clusterName reports) (s : σ) :
    ∃ err, (u.handleReceivedMessage data).run s = .ok (some err, s) := by
  unfold handleReceivedMessage
  cases hdata : u.unmarshal data with
  | error err => exact ⟨_, rfl⟩
  | ok msg =>
      cases hhead : msg.head with
      | none =>
          simp only [hhead]
          exact ⟨_, rfl⟩
      | some head =>
          simp only [hhead]
          split
          · rename_i hcommand
            rw [processEdgeReport]
            cases hreports : u.reportDeserialize msg.body with
            | error err => exact ⟨err, rfl⟩
            | ok reports => exact absurd ⟨_, reports, msg, head, hdata, hhead, hcommand, rfl, hreports⟩ h
          · exact ⟨_, rfl⟩

/-- For every byte string: the controller manager stops exactly if it is an edge report with a null entry in a
map of one of its reports.  Otherwise every report of the list is handled, one after the other, malformed ones
before it or not. -/
theorem edge_report_panics_iff (u : UpstreamProcessor σ) (data : List UInt8) (s : σ) :
    ((u.handleReceivedMessage data).Panics s ↔
      ∃ clusterName reports, u.Carries data clusterName reports ∧ ∃ report ∈ reports, u.Null report) ∧
    ∀ clusterName reports, u.Carries data clusterName reports → (∀ report ∈ reports, ¬ u.Null report) →
      ∃ ret, (u.handleReceivedMessage data).run s = .ok (ret, reports.foldl (u.handled clusterName) s) := by
  refine ⟨⟨?_, ?_⟩, ?_⟩
  · intro hpanics
    by_cases hcarries : ∃ clusterName reports, u.Carries data clusterName reports
    · obtain ⟨clusterName, reports, hreports⟩ := hcarries
      rw [handleReceivedMessage_of_carries hreports, processReports_panics_iff] at hpanics
      exact ⟨clusterName, reports, hreports, hpanics⟩
    · obtain ⟨err, hrun⟩ := run_handleReceivedMessage_of_not_carries hcarries s
      exact absurd hpanics (Go.not_panics_of_run hrun)
  · rintro ⟨clusterName, reports, hreports, hnull⟩
    rw [handleReceivedMessage_of_carries hreports, processReports_panics_iff]
    exact hnull
  · intro clusterName reports hreports hnull
    rw [handleReceivedMessage_of_carries hreports]
    exact run_processReports hnull clusterName none s

/-! ## A null entry -/

/-- A server that has nothing and takes nothing. -/
def refuse {S T : Type} : (x : Request S T) → x.Answer
  | .get _ => .error .notFound
  | .create _ _ => .error .badRequest
  | .update _ _ => .error .notFound
  | .updateStatus _ _ => .error .notFound
  | .delete _ => .error .notFound
  | .list _ _ => .error .badRequest

/-- A pod of the cluster `c1`. -/
def reportedPod : Object PodSpec PodStatus :=
  ⟨⟨"p", "default", some (GoMap.ofList [(clusterLabel, "c1")]), "", "", none⟩, ⟨[], "", [], [], none, ""⟩,
    ⟨"", [], ""⟩⟩

/-- A controller manager that gets these reports from `c1`, and counts its requests to the API server.  The
body `[0]` does not decode, `[1]` is `{"updateMap":{"default/p":null}}`, and `[2]` has the pod there. -/
def receiving (reports : List RawReport) : UpstreamProcessor ℕ where
  unmarshal _ := .ok ⟨some ⟨"", .edgeReport, "", "c1", ""⟩, []⟩
  reportDeserialize _ := .ok reports
  resourceStatus
    | .pod, [1] => .ok ⟨some (GoMap.ofList [("default/p", none)]), none, none⟩
    | .pod, [2] => .ok ⟨some (GoMap.ofList [("default/p", some reportedPod)]), none, none⟩
    | _, _ => .error "unexpected end of JSON input"
  eventStatus _ := .error "unexpected end of JSON input"
  clusterStatus _ := .error "unexpected end of JSON input"
  podReference _ := .error "nil"
  mirrorPodAnnotation _ := none
  nodeReference _ := .error "nil"
  serveObjects _ n x := (refuse x, n + 1)
  serveEvents n x := (refuse x, n + 1)
  serveClusters n _ := (.error .notFound, n + 1)
  it := MapOrder.sorted

/-- A null entry stops the controller manager before it comes to the next report. -/
theorem null_entry_crashes : ((receiving [⟨2, [1]⟩, ⟨2, [2]⟩]).handleReceivedMessage []).Panics 0 := by
  decide

/-- A report that does not decode does not keep the next one from being handled: the pod is looked for, and
created. -/
theorem edge_report_after_malformed :
    ∃ ret, ((receiving [⟨2, [0]⟩, ⟨2, [2]⟩]).handleReceivedMessage []).run 0 = .ok (ret, 2) := by
  have hcarries : (receiving [⟨2, [0]⟩, ⟨2, [2]⟩]).Carries [] "c1" [⟨2, [0]⟩, ⟨2, [2]⟩] :=
    ⟨_, _, rfl, rfl, rfl, rfl, rfl⟩
  have hreturns : ∀ report ∈ [⟨2, [0]⟩, ⟨2, [2]⟩],
      ¬ ((receiving [⟨2, [0]⟩, ⟨2, [2]⟩]).processReport "c1" none report).Panics 0 := by decide
  have hnull : ∀ report ∈ [⟨2, [0]⟩, ⟨2, [2]⟩], ¬ (receiving [⟨2, [0]⟩, ⟨2, [2]⟩]).Null report :=
    fun report hreport => mt (processReport_panics_iff "c1" none report 0).mpr (hreturns report hreport)
  have hstate : [⟨2, [0]⟩, ⟨2, [2]⟩].foldl ((receiving [⟨2, [0]⟩, ⟨2, [2]⟩]).handled "c1") 0 = 2 := by decide
  obtain ⟨ret, hrun⟩ := (edge_report_panics_iff _ [] 0).2 "c1" _ hcarries hnull
  exact ⟨ret, hstate ▸ hrun⟩

end UpstreamProcessor

end OteStack.ControllerManager
