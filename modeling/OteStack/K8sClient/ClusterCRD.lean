/-
# OteStack.K8sClient.ClusterCRD — the Cluster custom resource and the client that writes its status.

`pkg/apis/ote/v1/types.go` and `pkg/k8sclient/cluster.go`.  `UpdateStatus` reads the object, checks that
the new status has a larger timestamp, and updates the object it has read.  `PatchStatus` does the same
check and sends a merge patch instead: the old object with the new status laid over it, both written
with the empty fields left out.

`Field` lists the places of a Cluster's document that hold a scalar.  `Reads d c` says that the document
`d` has there what the cluster `c` has, and a merge patch is an overlay field by field (`Reads.mergePatch`),
so a patch that reads as `b` makes of any stored `a` the cluster `overlay a b` (`decode_mergePatch`).
-/
import OteStack.Lib.CustomResource

namespace OteStack.K8sClient

open OteStack.Lib (Doc GoMap Proc)
open OteStack.Lib.KubeApi

/-! ## The resource -/

/-- The specification of a Cluster. -/
structure ClusterSpec where
  name : String
  deriving DecidableEq

/-- The status of a Cluster.  A quantity is its canonical text, and a nil map of quantities is an empty
one. -/
structure ClusterStatus where
  listen : String
  parentName : String
  status : String
  timestamp : Int
  capacity : GoMap String String
  allocatable : GoMap String String
  deriving DecidableEq

/-- A Cluster object. -/
abbrev Cluster := Object ClusterSpec ClusterStatus

/-- A cluster with another status. -/
def withStatus (c : Cluster) (status : ClusterStatus) : Cluster := { c with status := status }

/-- The namespace of all Cluster objects. -/
def clusterNamespace : String := "kube-system"

def clusterStatusOnline : String := "online"

def clusterStatusOffline : String := "offline"

/-! ## Its documents -/

/-- The scalars of a Cluster's document. -/
inductive Scalar where
  | str (s : String)
  | num (n : Int)
  | time (t : Int)
  deriving DecidableEq

/-- The text of a scalar. -/
def Scalar.text : Scalar → Option String
  | .str s => some s
  | _ => none

/-- A text that is left out when it is empty. -/
def textOf (s : String) : Option Scalar := if s = "" then none else some (.str s)

/-- A map that is left out when it is empty. -/
def mapOf (m : GoMap String String) : Option (Doc Scalar) :=
  if m.keys = ∅ then none else some (.ofMap .str m)

/-- The labels, nil or not. -/
def labelsOf (m : ObjectMeta) : Labels := m.labels.getD ∅

/-- The members of the metadata; empty ones are left out. -/
def metadataFields (m : ObjectMeta) : List (String × Option (Doc Scalar)) := [
  ("name", (textOf m.name).map .scalar),
  ("namespace", (textOf m.namespace).map .scalar),
  ("uid", (textOf m.uid).map .scalar),
  ("resourceVersion", (textOf m.resourceVersion).map .scalar),
  ("deletionTimestamp", (m.deletionTimestamp.map Scalar.time).map .scalar),
  ("labels", mapOf (labelsOf m))]

/-- The members of the status; empty ones but the timestamp are left out. -/
def statusFields (s : ClusterStatus) : List (String × Option (Doc Scalar)) := [
  ("listen", (textOf s.listen).map .scalar),
  ("parentName", (textOf s.parentName).map .scalar),
  ("status", (textOf s.status).map .scalar),
  ("timestamp", (some (Scalar.num s.timestamp)).map .scalar),
  ("capacity", mapOf s.capacity),
  ("allocatable", mapOf s.allocatable)]

/-- `json.Marshal` of a Cluster. -/
def encodeCluster (c : Cluster) : Doc Scalar :=
  .ofFields [
    ("metadata", some (.ofFields (metadataFields c.metadata))),
    ("spec", some (.ofFields [("name", (some (Scalar.str c.spec.name)).map .scalar)])),
    ("status", some (.ofFields (statusFields c.status)))]

/-- The places of a Cluster's document that hold a scalar. -/
inductive Field where
  | name
  | «namespace»
  | uid
  | resourceVersion
  | deletionTimestamp
  | label (n : String)
  | specName
  | listen
  | parentName
  | status
  | timestamp
  | capacity (n : String)
  | allocatable (n : String)

namespace Field

/-- Where the field stands. -/
def path : Field → List String
  | name => ["metadata", "name"]
  | «namespace» => ["metadata", "namespace"]
  | uid => ["metadata", "uid"]
  | resourceVersion => ["metadata", "resourceVersion"]
  | deletionTimestamp => ["metadata", "deletionTimestamp"]
  | label n => ["metadata", "labels", n]
  | specName => ["spec", "name"]
  | listen => ["status", "listen"]
  | parentName => ["status", "parentName"]
  | status => ["status", "status"]
  | timestamp => ["status", "timestamp"]
  | capacity n => ["status", "capacity", n]
  | allocatable n => ["status", "allocatable", n]

/-- What a cluster has there. -/
def value (c : Cluster) : Field → Option Scalar
  | name => textOf c.metadata.name
  | «namespace» => textOf c.metadata.namespace
  | uid => textOf c.metadata.uid
  | resourceVersion => textOf c.metadata.resourceVersion
  | deletionTimestamp => c.metadata.deletionTimestamp.map .time
  | label n => ((labelsOf c.metadata).get n).map .str
  | specName => some (.str c.spec.name)
  | listen => textOf c.status.listen
  | parentName => textOf c.status.parentName
  | status => textOf c.status.status
  | timestamp => some (.num c.status.timestamp)
  | capacity n => (c.status.capacity.get n).map .str
  | allocatable n => (c.status.allocatable.get n).map .str

/-- The text at a field; a missing one is empty. -/
def text (f : Field) (d : Doc Scalar) : Option String :=
  match d.read f.path with
  | some none => some ""
  | some (some (.str s)) => some s
  | _ => none

/-- The number at a field; a missing one is zero. -/
def number (f : Field) (d : Doc Scalar) : Option Int :=
  match d.read f.path with
  | some none => some 0
  | some (some (.num n)) => some n
  | _ => none

/-- The time at a field, which may be missing. -/
def time (f : Field) (d : Doc Scalar) : Option (Option Int) :=
  match d.read f.path with
  | some none => some none
  | some (some (.time t)) => some (some t)
  | _ => none

end Field

/-- A map, nil when it is empty. -/
def nilIfEmpty (l : Labels) : Option Labels := if l.keys = ∅ then none else some l

/-- `json.Unmarshal` into a Cluster. -/
def decodeCluster (d : Doc Scalar) : Option Cluster := do
  let name ← Field.name.text d
  let ns ← Field.namespace.text d
  let uid ← Field.uid.text d
  let resourceVersion ← Field.resourceVersion.text d
  let deletionTimestamp ← Field.deletionTimestamp.time d
  let labels ← d.readMap Scalar.text ["metadata", "labels"]
  let specName ← Field.specName.text d
  let listen ← Field.listen.text d
  let parentName ← Field.parentName.text d
  let status ← Field.status.text d
  let timestamp ← Field.timestamp.number d
  let capacity ← d.readMap Scalar.text ["status", "capacity"]
  let allocatable ← d.readMap Scalar.text ["status", "allocatable"]
  pure ⟨⟨name, ns, nilIfEmpty labels, resourceVersion, uid, deletionTimestamp⟩, ⟨specName⟩,
    ⟨listen, parentName, status, timestamp, capacity, allocatable⟩⟩

/-- The documents of the Cluster kind. -/
def clusterEncoding : Custom.Encoding ClusterSpec ClusterStatus Scalar := ⟨encodeCluster, decodeCluster⟩

/-! ## What a document reads as -/

/-- The document has at every field what the cluster has. -/
def Reads (d : Doc Scalar) (c : Cluster) : Prop := ∀ f : Field, d.read f.path = some (f.value c)

/-- The cluster as it comes back from its document: an empty map of labels is nil. -/
def normal (c : Cluster) : Cluster :=
  { c with metadata := { c.metadata with labels := nilIfEmpty (labelsOf c.metadata) } }

theorem readField_scalar (v : Option Scalar) : Doc.readField [] (v.map Doc.scalar) = some v := by
  rcases v with _ | a
  · rfl
  · rfl

theorem readField_mapOf (m : GoMap String String) (n : String) :
    Doc.readField [n] (mapOf m) = some ((m.get n).map .str) := by
  unfold mapOf
  by_cases hm : m.keys = ∅
  · have hn : m.get n = none := GoMap.notMem_keys.mp (by simp [hm])
    simp [hm, hn, Doc.readField]
  · rw [if_neg hm]
    exact Doc.read_ofMap Scalar.str m n

theorem reads_encodeCluster (c : Cluster) : Reads (encodeCluster c) c := by
  intro f
  cases f with
  | label n => exact (Doc.read_ofFields_ofFields rfl rfl [n]).trans (readField_mapOf _ n)
  | capacity n => exact (Doc.read_ofFields_ofFields rfl rfl [n]).trans (readField_mapOf _ n)
  | allocatable n => exact (Doc.read_ofFields_ofFields rfl rfl [n]).trans (readField_mapOf _ n)
  | _ => exact (Doc.read_ofFields_ofFields rfl rfl []).trans (readField_scalar _)

theorem Field.text_of_read {f : Field} {d : Doc Scalar} {s : String} (h : d.read f.path = some (textOf s)) :
    f.text d = some s := by
  unfold Field.text
  rw [h, textOf]
  by_cases hs : s = ""
  · simp [hs]
  · simp [hs]

theorem Field.time_of_read {f : Field} {d : Doc Scalar} {t : Option Int}
    (h : d.read f.path = some (t.map .time)) : f.time d = some t := by
  unfold Field.time
  rw [h]
  rcases t with _ | t
  · rfl
  · rfl

theorem decodeCluster_of_reads {d : Doc Scalar} {c : Cluster} (h : Reads d c) :
    decodeCluster d = some (normal c) := by
  have hlabels : d.readMap Scalar.text ["metadata", "labels"] = some (labelsOf c.metadata) :=
    Doc.readMap_eq (g := Scalar.str) (fun _ => rfl) fun n => h (.label n)
  have hcapacity : d.readMap Scalar.text ["status", "capacity"] = some c.status.capacity :=
    Doc.readMap_eq (g := Scalar.str) (fun _ => rfl) fun n => h (.capacity n)
  have hallocatable : d.readMap Scalar.text ["status", "allocatable"] = some c.status.allocatable :=
    Doc.readMap_eq (g := Scalar.str) (fun _ => rfl) fun n => h (.allocatable n)
  have hspec : Field.specName.text d = some c.spec.name := by
    unfold Field.text
    rw [h .specName]
    rfl
  have htimestamp : Field.timestamp.number d = some c.status.timestamp := by
    unfold Field.number
    rw [h .timestamp]
    rfl
  simp only [decodeCluster, Field.text_of_read (h .name), Field.text_of_read (h .namespace),
    Field.text_of_read (h .uid), Field.text_of_read (h .resourceVersion),
    Field.time_of_read (h .deletionTimestamp), hlabels, hspec,
    Field.text_of_read (h .listen), Field.text_of_read (h .parentName), Field.text_of_read (h .status),
    htimestamp, hcapacity, hallocatable]
  rfl

/-! ## Overlays -/

/-- A text laid over another one. -/
def overlayText (a b : String) : String := if b = "" then a else b

/-- A status laid over another one.  The timestamp is never left out. -/
def overlayStatus (a b : ClusterStatus) : ClusterStatus where
  listen := overlayText a.listen b.listen
  parentName := overlayText a.parentName b.parentName
  status := overlayText a.status b.status
  timestamp := b.timestamp
  capacity := a.capacity.overlay b.capacity
  allocatable := a.allocatable.overlay b.allocatable

/-- A cluster laid over another one. -/
def overlay (a b : Cluster) : Cluster where
  metadata := {
    name := overlayText a.metadata.name b.metadata.name
    «namespace» := overlayText a.metadata.namespace b.metadata.namespace
    labels := some ((labelsOf a.metadata).overlay (labelsOf b.metadata))
    resourceVersion := overlayText a.metadata.resourceVersion b.metadata.resourceVersion
    uid := overlayText a.metadata.uid b.metadata.uid
    deletionTimestamp := b.metadata.deletionTimestamp.or a.metadata.deletionTimestamp }
  spec := b.spec
  status := overlayStatus a.status b.status

theorem textOf_overlayText (a b : String) : textOf (overlayText a b) = (textOf b).or (textOf a) := by
  unfold overlayText
  by_cases hb : b = ""
  · simp [hb, textOf]
  · simp [hb, textOf]

theorem map_get_overlay (m m' : GoMap String String) (n : String) :
    ((m.overlay m').get n).map Scalar.str = ((m'.get n).map Scalar.str).or ((m.get n).map Scalar.str) := by
  rw [GoMap.get_overlay, Option.map_or]

/-- An overlay has the fields of the upper cluster, and where it has none those of the lower one. -/
theorem Field.value_overlay (a b : Cluster) (f : Field) :
    f.value (overlay a b) = (f.value b).or (f.value a) := by
  cases f with
  | deletionTimestamp => exact Option.map_or
  | specName => rfl
  | timestamp => rfl
  | label n => exact map_get_overlay _ _ n
  | capacity n => exact map_get_overlay _ _ n
  | allocatable n => exact map_get_overlay _ _ n
  | _ => exact textOf_overlayText _ _

/-- A merge patch lays one document over the other. -/
theorem Reads.mergePatch {d p : Doc Scalar} {a b : Cluster} (hd : Reads d a) (hp : Reads p b) :
    Reads (d.mergePatch p) (overlay a b) := by
  intro f
  rw [Doc.read_mergePatch (Or.inl (hd f)) (hp f), Field.value_overlay]

/-- What the server makes of a stored cluster by a merge patch. -/
theorem decode_mergePatch {doc : Doc Scalar} {b : Cluster} (hdoc : Reads doc b) (a : Cluster) :
    clusterEncoding.decode ((clusterEncoding.encode a).mergePatch doc) = some (normal (overlay a b)) :=
  decodeCluster_of_reads ((reads_encodeCluster a).mergePatch hdoc)

@[simp] theorem overlayText_self (a : String) : overlayText a a = a := by
  unfold overlayText
  split <;> rfl

@[simp] theorem overlayText_overlayText (a b : String) :
    overlayText a (overlayText a b) = overlayText a b := by
  unfold overlayText
  by_cases hb : b = ""
  · simp [hb]
  · simp [hb]

@[simp] theorem overlay_map_self (m : GoMap String String) : m.overlay m = m :=
  GoMap.ext fun n => by rw [GoMap.get_overlay, Option.or_self]

@[simp] theorem overlay_map_overlay (m m' : GoMap String String) :
    m.overlay (m.overlay m') = m.overlay m' :=
  GoMap.ext fun n => by
    rw [GoMap.get_overlay, GoMap.get_overlay, Option.or_assoc, Option.or_self]

/-- Laying a status over a cluster twice is laying it over it once, and nothing else changes. -/
theorem normal_overlay_status (old : Cluster) (status : ClusterStatus) :
    normal (overlay old (overlay old (withStatus old status))) =
      withStatus (normal old) (overlayStatus old.status status) := by
  simp [normal, overlay, overlayStatus, labelsOf, withStatus]

/-! ## The client -/

/-- A program against the server of Cluster objects. -/
abbrev ClusterApi := Custom.Api ClusterSpec ClusterStatus Scalar

/-- The server of Cluster objects. -/
abbrev serveClusters (s : Store ClusterSpec ClusterStatus) :=
  Custom.serve clusterEncoding s

/-- The new status is later than the stored one. -/
def updateClusterIsValid (newcluster oldcluster : Cluster) : Bool :=
  decide (newcluster.status.timestamp > oldcluster.status.timestamp)

/-- `getPatchBytes`: the new object laid over the old one. -/
def getPatchBytes (oldcluster newcluster : Cluster) : Doc Scalar :=
  (encodeCluster oldcluster).mergePatch (encodeCluster newcluster)

namespace ClusterCRD

/-- Go's `Get`, nil on an error. -/
def get (ns name : String) : ClusterApi (Option Cluster) := do
  match ← Custom.Client.get ⟨ns, name⟩ with
  | .ok cluster => pure (some cluster)
  | .error _ => pure none

/-- Go's `Create`, whose error is only logged. -/
def create (cluster : Cluster) : ClusterApi Unit := do
  let _ ← Custom.Client.create cluster.metadata.namespace cluster
  pure ()

/-- What both ways to write a status start with: the old object, if the new one is later. -/
def checked (newcluster : Cluster) (goOn : Cluster → ClusterApi (Except Error Unit)) :
    ClusterApi (Except Error Unit) := do
  match ← Custom.Client.get newcluster.metadata.key with
  | .error e =>
      pure (.error (.text ("get original cluster(" ++ newcluster.metadata.namespace ++ "-" ++
        newcluster.metadata.name ++ ") failed: " ++ e.reason)))
  | .ok oldcluster =>
      if updateClusterIsValid newcluster oldcluster then goOn oldcluster
      else pure (.error (.text ("check newcluster " ++ newcluster.metadata.name ++ " failed")))

/-- The function that `UpdateStatus` retries. -/
def updateAttempt (newcluster : Cluster) : ClusterApi (Except Error Unit) :=
  checked newcluster fun oldcluster => do
    let res ← Custom.Client.update oldcluster.metadata.namespace
      (withStatus oldcluster newcluster.status)
    pure ((asError res).map fun _ => ())

/-- Go's `UpdateStatus`. -/
def updateStatus (newcluster : Cluster) : ClusterApi (Except Error Unit) :=
  Custom.retryOnConflict (updateAttempt newcluster) defaultRetry

/-- Go's `PatchStatus`. -/
def patchStatus (newcluster : Cluster) : ClusterApi (Except Error Unit) :=
  checked newcluster fun oldcluster => do
    let update := withStatus oldcluster newcluster.status
    let res ← Custom.Client.patch oldcluster.metadata.key (getPatchBytes oldcluster update)
    pure ((asError res).map fun _ => ())

/-! ## Writing a status alone -/

variable {s : Store ClusterSpec ClusterStatus} {newcluster old : Cluster}

theorem run_get (ns name : String) :
    Proc.run serveClusters (get ns name) s = (s.get ⟨ns, name⟩, s) := by
  rcases h : s.get ⟨ns, name⟩ with _ | c
  · rw [get, Proc.run_do, Custom.Client.run_get_none h]
    rfl
  · rw [get, Proc.run_do, Custom.Client.run_get_some h]
    rfl

/-- The check leaves the store as it is. -/
theorem run_checked {goOn : Cluster → ClusterApi (Except Error Unit)}
    (h : s.get newcluster.metadata.key = some old) :
    Proc.run serveClusters (checked newcluster goOn) s =
      if old.status.timestamp < newcluster.status.timestamp then Proc.run serveClusters (goOn old) s
      else (.error (.text ("check newcluster " ++ newcluster.metadata.name ++ " failed")), s) := by
  rw [checked, Proc.run_do, Custom.Client.run_get_some h]
  by_cases hnew : old.status.timestamp < newcluster.status.timestamp
  · simp only [updateClusterIsValid, gt_iff_lt, hnew, decide_true, if_true]
  · simp only [updateClusterIsValid, gt_iff_lt, hnew, decide_false, if_false, Bool.false_eq_true]
    rfl

theorem staleFor_of_eq {o stored : Cluster}
    (hrv : o.metadata.resourceVersion = stored.metadata.resourceVersion)
    (huid : o.metadata.uid = stored.metadata.uid) : staleFor o stored = false := by
  simp [staleFor, hrv, huid]

/-- A write of what was read with another status: the server has nothing to put back. -/
theorem rewritten_withStatus (old : Cluster) (status : ClusterStatus) :
    Custom.rewritten (withStatus old status) old = withStatus old status := rfl

theorem rewritten_withStatus_normal (old : Cluster) (status : ClusterStatus) :
    Custom.rewritten (withStatus (normal old) status) old = withStatus (normal old) status := rfl

/-- `UpdateStatus` of a later status replaces the status, and otherwise is refused. -/
theorem run_updateStatus (hs : Stamped s) (h : s.get newcluster.metadata.key = some old) :
    Proc.run serveClusters (updateStatus newcluster) s =
      if old.status.timestamp < newcluster.status.timestamp then
        (.ok (), s.put newcluster.metadata.key (withStatus old newcluster.status))
      else (.error (.text ("check newcluster " ++ newcluster.metadata.name ++ " failed")), s) := by
  have hkey : old.metadata.key = newcluster.metadata.key := s.key_of_get h
  have hget : s.get ⟨old.metadata.namespace, (withStatus old newcluster.status).metadata.name⟩ =
      some old := by
    rw [← hkey] at h
    exact h
  have hrv : old.metadata.resourceVersion ≠ "" := hs.version_ne_empty h
  have hfresh : staleFor (withStatus old newcluster.status) old = false := staleFor_of_eq rfl rfl
  have hattempt : Proc.run serveClusters (updateAttempt newcluster) s =
      if old.status.timestamp < newcluster.status.timestamp then
        (.ok (), s.put newcluster.metadata.key (withStatus old newcluster.status))
      else (.error (.text ("check newcluster " ++ newcluster.metadata.name ++ " failed")), s) := by
    rw [updateAttempt, run_checked h, Proc.run_do, Custom.Client.run_update hget hrv hfresh,
      rewritten_withStatus, ← hkey]
    rfl
  rw [updateStatus, Custom.run_retryOnConflict _ (by rw [hattempt]; split <;> simp), hattempt]

/-- The patch for a status lays it over the status of the object that it was made from. -/
theorem run_patch_getPatchBytes (h : s.get old.metadata.key = some old) (status : ClusterStatus) :
    Proc.run serveClusters
        (Custom.Client.patch old.metadata.key (getPatchBytes old (withStatus old status))) s =
      (.ok (s.stamped old.metadata.key (withStatus (normal old) (overlayStatus old.status status))),
        s.put old.metadata.key (withStatus (normal old) (overlayStatus old.status status))) := by
  have hdecode : clusterEncoding.decode ((clusterEncoding.encode old).mergePatch
      (getPatchBytes old (withStatus old status))) =
        some (withStatus (normal old) (overlayStatus old.status status)) := by
    rw [← normal_overlay_status]
    exact decode_mergePatch ((reads_encodeCluster _).mergePatch (reads_encodeCluster _)) old
  rw [Custom.Client.run_patch h hdecode (staleFor_of_eq rfl rfl), rewritten_withStatus_normal]

/-- `PatchStatus` of a later status lays it over the stored one, and otherwise is refused. -/
theorem run_patchStatus (h : s.get newcluster.metadata.key = some old) :
    Proc.run serveClusters (patchStatus newcluster) s =
      if old.status.timestamp < newcluster.status.timestamp then
        (.ok (), s.put newcluster.metadata.key
          (withStatus (normal old) (overlayStatus old.status newcluster.status)))
      else (.error (.text ("check newcluster " ++ newcluster.metadata.name ++ " failed")), s) := by
  have hkey : old.metadata.key = newcluster.metadata.key := s.key_of_get h
  rw [patchStatus, run_checked h, Proc.run_do, run_patch_getPatchBytes (hkey ▸ h), hkey]
  rfl

end ClusterCRD

end OteStack.K8sClient
