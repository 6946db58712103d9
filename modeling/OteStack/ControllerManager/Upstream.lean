/-
# OteStack.ControllerManager.Upstream — what the centre does with an edge report.

`pkg/controllermanager`: `upstream_processor.go` and the processors of pods, nodes, deployments,
daemonsets and services.  A report names the objects that exist (full list), that were created or
changed, and that were deleted; at the centre an object of cluster `c` lives under `name-c`.

The processors are one text written five times, so the shared parts are definitions with parameters
(`updateAttempt`, `updateObject`, `createThenUpdate`, `handleFullList`, `handleUpdateMap`,
`handleDelMap`, `handleReport`) and every kind's function is such a definition at its own values.
Pods and nodes keep what is theirs: a pod with a deletion timestamp is deleted, the spec of an
existing pod is kept but for two fields, and a new node is not updated again.
-/
import Mathlib.Logic.Function.Basic
import OteStack.Lib.GoStrings
import OteStack.Reporter.Resource

namespace OteStack.ControllerManager

open OteStack.Lib (GoMap MapOrder Proc)
open OteStack.Lib.KubeApi
open OteStack.Lib.GoStrings (atoi)
open OteStack.Reporter (clusterLabel edgeVersionLabel ResourceType ResourceStatus PodSpec PodStatus
  NodeSpec NodeStatus DeploymentSpec DeploymentStatus DaemonsetSpec DaemonsetStatus ServiceSpec
  ServiceStatus)

/-! ## Names and versions -/

/-- The separator between the name at the edge and the cluster. -/
def uniqueResourceNameSeparator : String := "-"

/-- Go's `UniqueFullResourceName`. -/
def uniqueFullResourceName (name clusterName : String) : String :=
  name ++ uniqueResourceNameSeparator ++ clusterName

/-- Go's `UniqueResourceName`: an object without the cluster label is refused. -/
def uniqueResourceName (m : ObjectMeta) : Except Error ObjectMeta :=
  if m.label clusterLabel = "" then .error (.text "ClusterLabel is empty")
  else .ok { m with name := m.name ++ uniqueResourceNameSeparator ++ m.label clusterLabel }

/-- Go's `checkEdgeVersion`: the report is not older than what is stored. -/
def checkEdgeVersion (report stored : ObjectMeta) : Bool :=
  if report.labels = none || stored.labels = none then false
  else if report.label edgeVersionLabel = "" || stored.label edgeVersionLabel = "" then false
  else match atoi (report.label edgeVersionLabel), atoi (stored.label edgeVersionLabel) with
    | some edgeVersion, some storedVersion => !decide (edgeVersion < storedVersion)
    | _, _ => false

/-- Go's `adaptToCentralResource`. -/
def adaptToCentralResource (report stored : ObjectMeta) : ObjectMeta :=
  { report with resourceVersion := stored.resourceVersion, uid := stored.uid }

/-! ## Objects at the centre -/

/-- The namespaces of the clients a processor uses: the one to read, create and delete in, from the
namespace of the report, and the one to update in, from those of the report and of the stored object.
They are the same for an object that was read where it is kept. -/
structure Scope where
  ns : String → String
  updateNs : String → String → String
  agree : ∀ report stored, stored = ns report → updateNs report stored = ns report
  ns_ns : ∀ report, ns (ns report) = ns report

/-- Where the object of a report is kept. -/
def Scope.key (sc : Scope) (m : ObjectMeta) : ObjectKey := ⟨sc.ns m.namespace, m.name⟩

section Object

variable {S T : Type}

/-- One attempt of an update: read the stored object, compare versions, take over the server's
metadata, prepare the object (`prepare`) and send it.  The object is the caller's and stays changed
for the next attempt. -/
def updateAttempt (word : String) (sc : Scope)
    (prepare : Object S T → Object S T → Object S T)
    (send : String → Object S T → Api S T (Except ApiError (Object S T))) (o : Object S T) :
    Api S T (Except Error Unit × Object S T) := do
  let got ← Client.get (sc.key o.metadata)
  match asError got with
  | .error e => pure (.error e, o)
  | .ok stored =>
      if checkEdgeVersion o.metadata stored.metadata then
        let adapted : Object S T :=
          { o with metadata := adaptToCentralResource o.metadata stored.metadata }
        let sent := prepare adapted stored
        let res ← send (sc.updateNs o.metadata.namespace stored.metadata.namespace) sent
        pure ((asError res).map fun _ => (), sent)
      else
        pure (.error (.text ("check " ++ word ++ " edge version failed")), o)

/-- `UpdatePod`, `UpdateNode`, ...: the object without its status, then its status. -/
def updateObject (word : String) (sc : Scope)
    (prepare : Object S T → Object S T → Object S T) (o : Object S T) :
    Api S T (Except Error Unit) := do
  let first ← retryOnConflict
    (updateAttempt word sc prepare Client.update) defaultRetry o
  match first.1 with
  | .error e => pure (.error e)
  | .ok _ =>
      let second ← retryOnConflict
        (updateAttempt word sc (fun o _ => o) Client.updateStatus) defaultRetry first.2
      pure second.1

/-- `CreatePod`, `CreateNode`, ...: also returns the object as it was sent. -/
def createObject (sc : Scope) (prepare : Object S T → Object S T) (o : Object S T) :
    Api S T (Except Error Unit × Object S T) := do
  let sent := prepare { o with metadata := { o.metadata with resourceVersion := "" } }
  let res ← Client.create (sc.ns sent.metadata.namespace) sent
  pure ((asError res).map fun _ => (), sent)

/-- `DeletePod`, `DeleteNode`, ... -/
def deleteObject (sc : Scope) (o : Object S T) : Api S T (Except Error Unit) := do
  let res ← Client.delete (sc.key o.metadata)
  pure (asError res)

/-- `CreateOrUpdateDeployment` and its like: an absent object is created, and then updated. -/
def createThenUpdate (sc : Scope)
    (create : Object S T → Api S T (Except Error Unit × Object S T))
    (update : Object S T → Api S T (Except Error Unit)) (o : Object S T) :
    Api S T (Except Error Unit) := do
  let got ← Client.get (sc.key o.metadata)
  match asError got with
  | .error (.api .notFound) =>
      let res ← create o
      match res.1 with
      | .error e => pure (.error e)
      | .ok _ => update res.2
  | .error e => pure (.error e)
  | .ok _ => update o

/-! ## The three parts of a report -/

/-- The loop over a reported map: every object gets its unique name and is handled; one that has no
cluster label is skipped. -/
def forEachUnique (handle : Object S T → Api S T (Except Error Unit)) (it : MapOrder String)
    (m : GoMap String (Object S T)) : Api S T Unit :=
  Proc.forEach (fun key =>
    match m.get key with
    | none => pure ()
    | some o =>
        match uniqueResourceName o.metadata with
        | .error _ => pure ()
        | .ok metadata => do
            let _ ← handle { o with metadata := metadata }
            pure ()) (it.order m)

/-- `handlePodUpdateMap` and its like. -/
def handleUpdateMap (createOrUpdate : Object S T → Api S T (Except Error Unit)) :
    MapOrder String → GoMap String (Object S T) → Api S T Unit :=
  forEachUnique createOrUpdate

/-- `handlePodDelMap` and its like. -/
def handleDelMap (delete : Object S T → Api S T (Except Error Unit)) :
    MapOrder String → GoMap String (Object S T) → Api S T Unit :=
  forEachUnique delete

/-- `handlePodFullList` and its like: of the objects labelled with the cluster, delete those whose
key is not among the reported ones. -/
def handleFullList (delete : Object S T → Api S T (Except Error Unit)) (clusterName : String)
    (fullList : List String) : Api S T Unit := do
  let edgeList := fullList.map fun key => uniqueFullResourceName key clusterName
  let listed ← Client.list clusterLabel clusterName
  match asError listed with
  | .error _ => pure ()
  | .ok items =>
      Proc.forEach (fun o =>
        if metaNamespaceKey o.metadata ∈ edgeList then pure ()
        else do
          let _ ← delete o
          pure ()) items

/-- The part of a report handler for the full list, with the kind's test on it. -/
def handleIfTaken (delete : Object S T → Api S T (Except Error Unit))
    (takesList : List String → Bool) (clusterName : String) : Option (List String) → Api S T Unit
  | none => pure ()
  | some fullList =>
      if takesList fullList then handleFullList delete clusterName fullList else pure ()

/-- The part of a report handler for a map that may be nil. -/
def handleIfPresent (handle : GoMap String (Object S T) → Api S T Unit) :
    Option (GoMap String (Object S T)) → Api S T Unit
  | none => pure ()
  | some m => handle m

/-- `handlePodReport` and its like, for a body that decodes: full list, updates, deletes. -/
def handleReport (createOrUpdate delete : Object S T → Api S T (Except Error Unit))
    (takesList : List String → Bool) (it : MapOrder String) (clusterName : String)
    (status : ResourceStatus S T) : Api S T Unit := do
  handleIfTaken delete takesList clusterName status.fullList
  handleIfPresent (handleUpdateMap createOrUpdate it) status.updateMap
  handleIfPresent (handleDelMap delete it) status.delMap

end Object

/-! ## Pods -/

/-- `Pods(pod.Namespace)`, and `Pods(storedPod.Namespace)` to update. -/
def podScope : Scope := ⟨fun ns => ns, fun _ stored => stored, fun _ _ h => h, fun _ => rfl⟩

/-- The spec of an update: the stored one, with the two fields that may change. -/
def podUpdateSpec (stored reported : PodSpec) : PodSpec :=
  { stored with
    activeDeadlineSeconds := reported.activeDeadlineSeconds
    tolerations := reported.tolerations }

/-- Go's `CreatePod`. -/
def createPod : Object PodSpec PodStatus →
    Api PodSpec PodStatus (Except Error Unit × Object PodSpec PodStatus) :=
  createObject podScope fun pod =>
    { pod with spec := { pod.spec with serviceAccountName := "" } }

/-- Go's `UpdatePod`; `copyPod` is the pod as it was passed. -/
def updatePod (copyPod : Object PodSpec PodStatus) : Api PodSpec PodStatus (Except Error Unit) :=
  updateObject "pod" podScope
    (fun pod stored => { pod with spec := podUpdateSpec stored.spec copyPod.spec }) copyPod

/-- Go's `DeletePod`. -/
def deletePod : Object PodSpec PodStatus → Api PodSpec PodStatus (Except Error Unit) :=
  deleteObject podScope

/-- Go's `CreateOrUpdatePod`: a pod in "delete state" is deleted. -/
def createOrUpdatePod (pod : Object PodSpec PodStatus) :
    Api PodSpec PodStatus (Except Error Unit) :=
  if pod.metadata.deletionTimestamp ≠ none then deletePod pod
  else createThenUpdate podScope createPod updatePod pod

/-- Go's `handlePodReport`: an empty full list is ignored. -/
def handlePodReport : MapOrder String → String → ResourceStatus PodSpec PodStatus →
    Api PodSpec PodStatus Unit :=
  handleReport createOrUpdatePod deletePod fun fullList => !fullList.isEmpty

/-! ## Nodes -/

/-- `Nodes()`, which has no namespace. -/
def nodeScope : Scope := ⟨fun _ => "", fun _ _ => "", fun _ _ _ => rfl, fun _ => rfl⟩

/-- Go's `CreateNode`. -/
def createNode : Object NodeSpec NodeStatus →
    Api NodeSpec NodeStatus (Except Error Unit × Object NodeSpec NodeStatus) :=
  createObject nodeScope fun node => node

/-- Go's `UpdateNode`. -/
def updateNode : Object NodeSpec NodeStatus → Api NodeSpec NodeStatus (Except Error Unit) :=
  updateObject "node" nodeScope fun node _ => node

/-- Go's `DeleteNode`. -/
def deleteNode : Object NodeSpec NodeStatus → Api NodeSpec NodeStatus (Except Error Unit) :=
  deleteObject nodeScope

/-- Go's `CreateOrUpdateNode`: it returns after `CreateNode`. -/
def createOrUpdateNode (node : Object NodeSpec NodeStatus) :
    Api NodeSpec NodeStatus (Except Error Unit) := do
  let got ← Client.get (nodeScope.key node.metadata)
  match asError got with
  | .error (.api .notFound) => do
      let res ← createNode node
      pure res.1
  | .error e => pure (.error e)
  | .ok _ => updateNode node

/-- Go's `handleNodeReport`. -/
def handleNodeReport : MapOrder String → String → ResourceStatus NodeSpec NodeStatus →
    Api NodeSpec NodeStatus Unit :=
  handleReport createOrUpdateNode deleteNode fun _ => true

/-! ## Deployments, daemonsets and services -/

/-- `Deployments(deployment.Namespace)` and its like. -/
def namespacedScope : Scope := ⟨fun ns => ns, fun report _ => report, fun _ _ _ => rfl, fun _ => rfl⟩

/-- Go's `CreateDeployment`. -/
def createDeployment : Object DeploymentSpec DeploymentStatus →
    Api DeploymentSpec DeploymentStatus (Except Error Unit × Object DeploymentSpec DeploymentStatus) :=
  createObject namespacedScope fun deployment => deployment

/-- Go's `UpdateDeployment`. -/
def updateDeployment : Object DeploymentSpec DeploymentStatus →
    Api DeploymentSpec DeploymentStatus (Except Error Unit) :=
  updateObject "deployment" namespacedScope fun deployment _ => deployment

/-- Go's `DeleteDeployment`. -/
def deleteDeployment : Object DeploymentSpec DeploymentStatus →
    Api DeploymentSpec DeploymentStatus (Except Error Unit) :=
  deleteObject namespacedScope

/-- Go's `CreateOrUpdateDeployment`. -/
def createOrUpdateDeployment : Object DeploymentSpec DeploymentStatus →
    Api DeploymentSpec DeploymentStatus (Except Error Unit) :=
  createThenUpdate namespacedScope createDeployment updateDeployment

/-- Go's `handleDeploymentReport`. -/
def handleDeploymentReport : MapOrder String → String →
    ResourceStatus DeploymentSpec DeploymentStatus → Api DeploymentSpec DeploymentStatus Unit :=
  handleReport createOrUpdateDeployment deleteDeployment fun _ => true

/-- Go's `CreateDaemonset`. -/
def createDaemonset : Object DaemonsetSpec DaemonsetStatus →
    Api DaemonsetSpec DaemonsetStatus (Except Error Unit × Object DaemonsetSpec DaemonsetStatus) :=
  createObject namespacedScope fun daemonset => daemonset

/-- Go's `UpdateDaemonset`. -/
def updateDaemonset : Object DaemonsetSpec DaemonsetStatus →
    Api DaemonsetSpec DaemonsetStatus (Except Error Unit) :=
  updateObject "daemonset" namespacedScope fun daemonset _ => daemonset

/-- Go's `DeleteDaemonset`. -/
def deleteDaemonset : Object DaemonsetSpec DaemonsetStatus →
    Api DaemonsetSpec DaemonsetStatus (Except Error Unit) :=
  deleteObject namespacedScope

/-- Go's `CreateOrUpdateDaemonset`. -/
def createOrUpdateDaemonset : Object DaemonsetSpec DaemonsetStatus →
    Api DaemonsetSpec DaemonsetStatus (Except Error Unit) :=
  createThenUpdate namespacedScope createDaemonset updateDaemonset

/-- Go's `handleDaemonsetReport`. -/
def handleDaemonsetReport : MapOrder String → String →
    ResourceStatus DaemonsetSpec DaemonsetStatus → Api DaemonsetSpec DaemonsetStatus Unit :=
  handleReport createOrUpdateDaemonset deleteDaemonset fun _ => true

/-- Go's `CreateService`. -/
def createService : Object ServiceSpec ServiceStatus →
    Api ServiceSpec ServiceStatus (Except Error Unit × Object ServiceSpec ServiceStatus) :=
  createObject namespacedScope fun service => service

/-- Go's `UpdateService`. -/
def updateService : Object ServiceSpec ServiceStatus →
    Api ServiceSpec ServiceStatus (Except Error Unit) :=
  updateObject "service" namespacedScope fun service _ => service

/-- Go's `DeleteService`. -/
def deleteService : Object ServiceSpec ServiceStatus →
    Api ServiceSpec ServiceStatus (Except Error Unit) :=
  deleteObject namespacedScope

/-- Go's `CreateOrUpdateService`. -/
def createOrUpdateService : Object ServiceSpec ServiceStatus →
    Api ServiceSpec ServiceStatus (Except Error Unit) :=
  createThenUpdate namespacedScope createService updateService

/-- Go's `handleServiceReport`. -/
def handleServiceReport : MapOrder String → String → ResourceStatus ServiceSpec ServiceStatus →
    Api ServiceSpec ServiceStatus Unit :=
  handleReport createOrUpdateService deleteService fun _ => true

/-! ## The report of a cluster -/

/-- The clients of a kind. -/
def scopeOf : ResourceType → Scope
  | .pod => podScope
  | .node => nodeScope
  | .deployment => namespacedScope
  | .daemonset => namespacedScope
  | .service => namespacedScope

/-- The create-or-update of a kind. -/
def createOrUpdateOf : (t : ResourceType) → t.Obj → Api t.Spec t.Status (Except Error Unit)
  | .pod => createOrUpdatePod
  | .node => createOrUpdateNode
  | .deployment => createOrUpdateDeployment
  | .daemonset => createOrUpdateDaemonset
  | .service => createOrUpdateService

/-- The test on the full list of a kind. -/
def takesListOf : ResourceType → List String → Bool
  | .pod => fun fullList => !fullList.isEmpty
  | _ => fun _ => true

/-- The report handler of a kind. -/
def handleReportOf : (t : ResourceType) → MapOrder String → String →
    ResourceStatus t.Spec t.Status → Api t.Spec t.Status Unit
  | .pod => handlePodReport
  | .node => handleNodeReport
  | .deployment => handleDeploymentReport
  | .daemonset => handleDaemonsetReport
  | .service => handleServiceReport

/-- The handlers are one handler at the values of each kind. -/
theorem handleReportOf_eq (t : ResourceType) :
    handleReportOf t = handleReport (createOrUpdateOf t) (deleteObject (scopeOf t)) (takesListOf t) := by
  cases t <;> rfl

/-- One element of an edge report: a body of one of the five kinds, `none` when it does not decode, or
a resource type that none of their stores is concerned with. -/
inductive Report where
  | resource (t : ResourceType) (body : Option (ResourceStatus t.Spec t.Status))
  | elsewhere (resourceType : Int)

/-- The central stores of the five kinds. -/
abbrev Center := (t : ResourceType) → Store t.Spec t.Status

/-- One round of `processEdgeReport`, with the order in which the maps are ranged over. -/
def processReport (st : (t : ResourceType) → Strategy t.Status) (order : MapOrder ObjectKey)
    (clusterName : String) (center : Center) (report : MapOrder String × Report) : Center :=
  match report.2 with
  | .resource t (some body) => Function.update center t
      (Proc.run (serve (st t) order) (handleReportOf t report.1 clusterName body) (center t)).2
  | .resource _ none => center
  | .elsewhere _ => center

/-- Go's `processEdgeReport`, for reports that decode to a list. -/
def processEdgeReport (st : (t : ResourceType) → Strategy t.Status) (order : MapOrder ObjectKey)
    (clusterName : String) (center : Center) (reports : List (MapOrder String × Report)) : Center :=
  reports.foldl (processReport st order clusterName) center

end OteStack.ControllerManager
