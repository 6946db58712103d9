/-
# OteStack.Reporter.PodReporter — pod changes collected between two flushes.

`pkg/reporter/pod_reporter.go`.  Notifications of the informer fill two maps under the pod's key: the
last reported form of a created or changed pod, and of a deleted one.  Every five seconds
`sendClusterMessageToSyncChan` sends what has been collected as one report and starts afresh.
-/
import Mathlib.Data.List.Basic
import OteStack.Reporter.Resource

namespace OteStack.Reporter

open OteStack.Lib (GoMap MapOrder)
open OteStack.Lib.KubeApi

/-- A pod. -/
abbrev Pod := Object PodSpec PodStatus

/-- What has been collected since the last flush. -/
structure PodResourceStatus where
  updateMap : GoMap String Pod
  delMap : GoMap String Pod
  fullList : List String

/-- A reporter that has just started, or flushed. -/
def emptyPodStatus : PodResourceStatus := ⟨∅, ∅, []⟩

/-- Go's `SetUpdateMap`. -/
def setUpdateMap (m : PodResourceStatus) (name : String) (pod : Pod) : PodResourceStatus :=
  { m with updateMap := m.updateMap.set name pod }

/-- Go's `SetDelMap`. -/
def setDelMap (m : PodResourceStatus) (name : String) (pod : Pod) : PodResourceStatus :=
  { m with updateMap := m.updateMap.delete name, delMap := m.delMap.set name pod }

/-- Go's `SetFullListMap`. -/
def setFullListMap (m : PodResourceStatus) (podList : List String) : PodResourceStatus :=
  { m with fullList := podList }

/-- Go's `reportFullListPod`, once the informer has synced: the keys of its cache, in any order. -/
def reportFullListPod (it : MapOrder String) (podCache : GoMap String Pod) (m : PodResourceStatus) :
    PodResourceStatus :=
  setFullListMap m (it.order podCache)

/-- Go's `resetPodSpecParameter`: the node goes into a label. -/
def resetPodSpecParameter (pod : Pod) : Pod :=
  { pod with metadata := { pod.metadata with
      labels := setLabel pod.metadata.labels edgeNodeName pod.spec.nodeName } }

/-- A pod as `handlePod` reports it. -/
def reportedPod (ctx : ReporterContext) (pod : Pod) : Pod :=
  reported .pod ctx (resetPodSpecParameter pod)

/-- Go's `handlePod`. -/
def handlePod (ctx : ReporterContext) (m : PodResourceStatus) (pod : Pod) : PodResourceStatus :=
  setUpdateMap m (metaNamespaceKey (reportedPod ctx pod).metadata) (reportedPod ctx pod)

/-- Go's `deletePod`; it does not call `resetPodSpecParameter`. -/
def deletePod (ctx : ReporterContext) (m : PodResourceStatus) (pod : Pod) : PodResourceStatus :=
  setDelMap m (metaNamespaceKey (reported .pod ctx pod).metadata) (reported .pod ctx pod)

/-- Go's `sendClusterMessageToSyncChan`: the report that is sent, if any, and what is left. -/
def sendClusterMessageToSyncChan (m : PodResourceStatus) :
    Option (ResourceStatus PodSpec PodStatus) × PodResourceStatus :=
  if m.updateMap.keys = ∅ ∧ m.delMap.keys = ∅ ∧ m.fullList = [] then (none, m)
  else (some ⟨some m.updateMap, some m.delMap, some m.fullList⟩, emptyPodStatus)

/-- A notification of the pod informer. -/
inductive PodEvent where
  | handle (pod : Pod)
  | delete (pod : Pod)

/-- The pod of a notification. -/
def PodEvent.pod : PodEvent → Pod
  | .handle pod => pod
  | .delete pod => pod

/-- The reporter's reaction to a notification. -/
def notify (ctx : ReporterContext) (m : PodResourceStatus) : PodEvent → PodResourceStatus
  | .handle pod => handlePod ctx m pod
  | .delete pod => deletePod ctx m pod

/-! ## Keys -/

/-- The key of an object as a string, as `cache.MetaNamespaceKeyFunc` builds it. -/
def keyString (k : ObjectKey) : String :=
  if k.namespace = "" then k.name else k.namespace ++ "/" ++ k.name

theorem metaNamespaceKey_eq (m : ObjectMeta) : metaNamespaceKey m = keyString m.key := rfl

/-- A namespace and a name without a slash, the namespace not empty. -/
def ValidKey (k : ObjectKey) : Prop :=
  k.namespace ≠ "" ∧ '/' ∉ k.namespace.toList ∧ '/' ∉ k.name.toList

instance (k : ObjectKey) : Decidable (ValidKey k) := inferInstanceAs (Decidable (_ ∧ _ ∧ _))

/-- Valid keys are told apart by their strings. -/
theorem keyString_inj {k k' : ObjectKey} (hk : ValidKey k) (hk' : ValidKey k')
    (h : keyString k = keyString k') : k = k' := by
  obtain ⟨hne, hns, hname⟩ := hk
  obtain ⟨hne', -, -⟩ := hk'
  rw [keyString, keyString, if_neg hne, if_neg hne'] at h
  have hlist := congrArg String.toList h
  simp only [String.toList_append, List.append_assoc] at hlist
  -- the slash of the key is the first one, and the only one
  obtain ⟨hspace, -, hrest⟩ := (List.append_cons_inj_of_notMem hns hname).mp hlist
  cases k
  cases k'
  simp only [ObjectKey.mk.injEq]
  exact ⟨String.toList_inj.mp hspace, String.toList_inj.mp hrest⟩

@[simp] theorem reportedPod_key (ctx : ReporterContext) (pod : Pod) :
    (reportedPod ctx pod).metadata.key = pod.metadata.key := by
  simp [reportedPod, ObjectMeta.key, resetPodSpecParameter]

@[simp] theorem reported_key (t : ResourceType) (ctx : ReporterContext) (o : t.Obj) :
    (reported t ctx o).metadata.key = o.metadata.key := by
  simp [ObjectMeta.key]

end OteStack.Reporter
