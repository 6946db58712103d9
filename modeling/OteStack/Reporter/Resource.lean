/-
# OteStack.Reporter.Resource — the objects an edge cluster reports, and the message of one change.

`pkg/reporter`.  Before an object is reported, `addLabelToResource` writes the cluster's name and the
object's resource version at the edge into its labels; with lightweight reporting the object is then
cropped to the fields the centre shows.  The node, deployment, daemonset and service reporters send a
message for every change.  They differ in the crop only, so each is `sendUpdate` and `sendDelete` at
its own crop.  (Pods are collected first, see `OteStack.Reporter.PodReporter`.)

Of a Kubernetes type the fields are kept that some crop keeps, together with one that it drops.  Parts
that are only ever copied are their serialised text.
-/
import OteStack.Lib.KubeApi

namespace OteStack.Reporter

open OteStack.Lib (GoMap MapOrder)
open OteStack.Lib.KubeApi

/-! ## Labels -/

/-- The label that holds the name of the cluster an object comes from. -/
def clusterLabel : String := "ote-cluster"

/-- The label that holds the resource version of the object at the edge. -/
def edgeVersionLabel : String := "edge-version"

/-- The label that holds the node a pod runs on at the edge. -/
def edgeNodeName : String := "node-name"

/-- The switches and the name a reporter works with. -/
structure ReporterContext where
  clusterName : String
  isLightweightReport : Bool
  deriving DecidableEq, Repr

/-- Writing one label; a nil map is made first. -/
def setLabel (labels : Option Labels) (key value : String) : Option Labels :=
  some ((labels.getD ∅).set key value)

/-- Go's `addLabelToResource`. -/
def addLabelToResource (ctx : ReporterContext) (m : ObjectMeta) : ObjectMeta :=
  let labels := setLabel m.labels clusterLabel ctx.clusterName
  { m with labels := setLabel labels edgeVersionLabel m.resourceVersion }

/-- The metadata every crop keeps. -/
def lightWeightMeta (m : ObjectMeta) : ObjectMeta :=
  ⟨m.name, m.namespace, m.labels, "", "", none⟩

/-! ## The kinds -/

/-- A toleration of a pod. -/
structure Toleration where
  key : String
  operator : String
  effect : String
  tolerationSeconds : Option Int
  deriving DecidableEq, Repr

/-- The spec of a pod. -/
structure PodSpec where
  containers : List String
  nodeName : String
  volumes : List String
  tolerations : List Toleration
  activeDeadlineSeconds : Option Int
  serviceAccountName : String
  deriving DecidableEq, Repr

/-- The status of a pod. -/
structure PodStatus where
  phase : String
  containerStatuses : List String
  podIP : String
  deriving DecidableEq, Repr

/-- The spec of a node. -/
structure NodeSpec where
  podCIDR : String
  unschedulable : Bool
  deriving DecidableEq, Repr

/-- The status of a node. -/
structure NodeStatus where
  conditions : List (String × String)
  nodeInfo : String
  addresses : List String
  capacity : Option (GoMap String Int)
  allocatable : Option (GoMap String Int)
  images : List String
  deriving DecidableEq

/-- The spec of a deployment. -/
structure DeploymentSpec where
  template : String
  selector : String
  replicas : Option Int
  minReadySeconds : Int
  deriving DecidableEq, Repr

/-- The status of a deployment. -/
structure DeploymentStatus where
  replicas : Int
  updatedReplicas : Int
  availableReplicas : Int
  unavailableReplicas : Int
  deriving DecidableEq, Repr

/-- The spec of a daemonset. -/
structure DaemonsetSpec where
  selector : String
  template : String
  minReadySeconds : Int
  deriving DecidableEq, Repr

/-- The status of a daemonset. -/
structure DaemonsetStatus where
  currentNumberScheduled : Int
  desiredNumberScheduled : Int
  numberReady : Int
  updatedNumberScheduled : Int
  numberAvailable : Int
  numberMisscheduled : Int
  deriving DecidableEq, Repr

/-- The spec of a service. -/
structure ServiceSpec where
  clusterIP : String
  ports : List String
  externalName : String
  deriving DecidableEq, Repr

/-- The status of a service. -/
structure ServiceStatus where
  loadBalancer : String
  deriving DecidableEq, Repr

/-- The resource types that are reported as maps of objects. -/
inductive ResourceType where
  | pod
  | node
  | deployment
  | daemonset
  | service
  deriving DecidableEq, Repr

/-- The spec of a kind. -/
abbrev ResourceType.Spec : ResourceType → Type
  | .pod => PodSpec
  | .node => NodeSpec
  | .deployment => DeploymentSpec
  | .daemonset => DaemonsetSpec
  | .service => ServiceSpec

/-- The status of a kind. -/
abbrev ResourceType.Status : ResourceType → Type
  | .pod => PodStatus
  | .node => NodeStatus
  | .deployment => DeploymentStatus
  | .daemonset => DaemonsetStatus
  | .service => ServiceStatus

/-- The objects of a kind. -/
abbrev ResourceType.Obj (t : ResourceType) := Object t.Spec t.Status

/-- What a report says of one kind, nil maps and lists included. -/
structure ResourceStatus (S T : Type) where
  updateMap : Option (GoMap String (Object S T))
  delMap : Option (GoMap String (Object S T))
  fullList : Option (List String)

/-! ## Crops -/

/-- Go's `lightWeightPod`. -/
def lightWeightPod (pod : Object PodSpec PodStatus) : Object PodSpec PodStatus where
  metadata := lightWeightMeta pod.metadata
  spec := ⟨pod.spec.containers, pod.spec.nodeName, pod.spec.volumes, pod.spec.tolerations, none, ""⟩
  status := ⟨pod.status.phase, pod.status.containerStatuses, ""⟩

/-- Go's `lightWeightNode`. -/
def lightWeightNode (node : Object NodeSpec NodeStatus) : Object NodeSpec NodeStatus where
  metadata := lightWeightMeta node.metadata
  spec := ⟨"", false⟩
  status := { node.status with images := [] }

/-- Go's `lightWeightDeployment`. -/
def lightWeightDeployment (deployment : Object DeploymentSpec DeploymentStatus) :
    Object DeploymentSpec DeploymentStatus where
  metadata := lightWeightMeta deployment.metadata
  spec := { deployment.spec with minReadySeconds := 0 }
  status := { deployment.status with unavailableReplicas := 0 }

/-- Go's `lightWeightDaemonset`. -/
def lightWeightDaemonset (daemonset : Object DaemonsetSpec DaemonsetStatus) :
    Object DaemonsetSpec DaemonsetStatus where
  metadata := lightWeightMeta daemonset.metadata
  spec := { daemonset.spec with minReadySeconds := 0 }
  status := { daemonset.status with numberMisscheduled := 0 }

/-- Go's `lightWeightService`: the status is dropped. -/
def lightWeightService (service : Object ServiceSpec ServiceStatus) :
    Object ServiceSpec ServiceStatus where
  metadata := lightWeightMeta service.metadata
  spec := { service.spec with externalName := "" }
  status := ⟨""⟩

/-- The crop of a kind. -/
def lightWeight : (t : ResourceType) → t.Obj → t.Obj
  | .pod => lightWeightPod
  | .node => lightWeightNode
  | .deployment => lightWeightDeployment
  | .daemonset => lightWeightDaemonset
  | .service => lightWeightService

/-- A crop keeps the name, the namespace and the labels. -/
theorem lightWeight_metadata (t : ResourceType) (o : t.Obj) :
    (lightWeight t o).metadata = lightWeightMeta o.metadata := by
  cases t <;> rfl

/-! ## One message per change -/

/-- An object as it is reported. -/
def reported (t : ResourceType) (ctx : ReporterContext) (o : t.Obj) : t.Obj :=
  let labelled : t.Obj := { o with metadata := addLabelToResource ctx o.metadata }
  if ctx.isLightweightReport then lightWeight t labelled else labelled

/-- The report of a created or changed object. -/
def sendUpdate (t : ResourceType) (ctx : ReporterContext) (o : t.Obj) :
    ResourceStatus t.Spec t.Status :=
  let obj := reported t ctx o
  ⟨some (GoMap.ofList [(metaNamespaceKey obj.metadata, obj)]), none, none⟩

/-- The report of a deleted object. -/
def sendDelete (t : ResourceType) (ctx : ReporterContext) (o : t.Obj) :
    ResourceStatus t.Spec t.Status :=
  let obj := reported t ctx o
  ⟨none, some (GoMap.ofList [(metaNamespaceKey obj.metadata, obj)]), none⟩

/-- Go's `handleNode`. -/
def handleNode := sendUpdate .node
/-- Go's `deleteNode`. -/
def deleteNode := sendDelete .node
/-- Go's `handleDeployment`. -/
def handleDeployment := sendUpdate .deployment
/-- Go's `deleteDeployment`. -/
def deleteDeployment := sendDelete .deployment
/-- Go's `handleDaemonset`. -/
def handleDaemonset := sendUpdate .daemonset
/-- Go's `deleteDaemonset`. -/
def deleteDaemonset := sendDelete .daemonset
/-- Go's `handleService`. -/
def handleService := sendUpdate .service
/-- Go's `deleteService`. -/
def deleteService := sendDelete .service

section Reported

variable (t : ResourceType) (ctx : ReporterContext) (o : t.Obj)

@[simp] theorem reported_name : (reported t ctx o).metadata.name = o.metadata.name := by
  unfold reported
  split
  · rw [lightWeight_metadata]; rfl
  · rfl

@[simp] theorem reported_namespace :
    (reported t ctx o).metadata.namespace = o.metadata.namespace := by
  unfold reported
  split
  · rw [lightWeight_metadata]; rfl
  · rfl

/-- The labels of a reported object are those `addLabelToResource` leaves. -/
theorem reported_labels :
    (reported t ctx o).metadata.labels = (addLabelToResource ctx o.metadata).labels := by
  unfold reported
  split
  · rw [lightWeight_metadata]; rfl
  · rfl

/-- No report says of a live object that it is being deleted. -/
theorem reported_deletionTimestamp (h : o.metadata.deletionTimestamp = none) :
    (reported t ctx o).metadata.deletionTimestamp = none := by
  unfold reported
  split
  · rw [lightWeight_metadata]; rfl
  · exact h

end Reported

/-- The labels of a reported object hold its resource version at the edge. -/
theorem addLabelToResource_version (ctx : ReporterContext) (m : ObjectMeta) :
    (addLabelToResource ctx m).label edgeVersionLabel = m.resourceVersion := by
  simp [addLabelToResource, setLabel, ObjectMeta.label]

end OteStack.Reporter
