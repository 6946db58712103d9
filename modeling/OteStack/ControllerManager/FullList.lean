/-
# OteStack.ControllerManager.FullList — what a full list removes from the centre.

A reporter sends the keys of all its objects when it starts, and the centre deletes what it has of the
cluster beyond them (`handlePodFullList` and its like in `pkg/controllermanager`).  The handlers go by label
and compare keys: the key of the object `name-c` at the centre is the key of `name` at the edge with `-c`
appended, whatever slashes and dashes are in them (`metaNamespaceKey_central`), so exactly the objects whose
originals are not in the list are deleted (`fullList_deletes_vanished`).

Pods get there by a longer way, since their reporter sends what it has collected from time to time.  A full
list without pods looks to it as if there were nothing to send, so `startUp_removes_stale_pods_iff` needs a
pod at the edge.
-/
import OteStack.ControllerManager.Isolation
import OteStack.Reporter.PodReporter

namespace OteStack.ControllerManager

open OteStack.Lib (GoMap MapOrder Proc)
open OteStack.Lib.KubeApi
open OteStack.Reporter (clusterLabel ResourceType ResourceStatus PodSpec PodStatus NodeSpec NodeStatus
  DeploymentSpec DeploymentStatus DaemonsetSpec DaemonsetStatus ServiceSpec ServiceStatus Pod
  emptyPodStatus reportFullListPod sendClusterMessageToSyncChan)

/-! ## The handlers -/

/-- Go's `handlePodFullList`. -/
def handlePodFullList : String → List String → Api PodSpec PodStatus Unit := handleFullList deletePod

/-- Go's `handleNodeFullList`. -/
def handleNodeFullList : String → List String → Api NodeSpec NodeStatus Unit := handleFullList deleteNode

/-- Go's `handleDeploymentFullList`. -/
def handleDeploymentFullList : String → List String → Api DeploymentSpec DeploymentStatus Unit :=
  handleFullList deleteDeployment

/-- Go's `handleDaemonsetFullList`. -/
def handleDaemonsetFullList : String → List String → Api DaemonsetSpec DaemonsetStatus Unit :=
  handleFullList deleteDaemonset

/-- Go's `handleServiceFullList`. -/
def handleServiceFullList : String → List String → Api ServiceSpec ServiceStatus Unit :=
  handleFullList deleteService

/-- The full-list handler of a kind. -/
def handleFullListOf : (t : ResourceType) → String → List String → Api t.Spec t.Status Unit
  | .pod => handlePodFullList
  | .node => handleNodeFullList
  | .deployment => handleDeploymentFullList
  | .daemonset => handleDaemonsetFullList
  | .service => handleServiceFullList

theorem handleFullListOf_eq (t : ResourceType) :
    handleFullListOf t = handleFullList (deleteObject (scopeOf t)) := by
  cases t <;> rfl

/-! ## Keys -/

/-- The key at the centre is the key at the edge with the cluster appended. -/
theorem metaNamespaceKey_central {S T : Type} (c : String) (e : Object S T) :
    metaNamespaceKey (central c e).metadata = uniqueFullResourceName (metaNamespaceKey e.metadata) c := by
  unfold metaNamespaceKey central uniqueFullResourceName
  dsimp only
  split
  · rfl
  · simp only [String.append_assoc]

theorem uniqueFullResourceName_inj {c a b : String}
    (h : uniqueFullResourceName a c = uniqueFullResourceName b c) : a = b := by
  have hlist := congrArg String.toList h
  simp only [uniqueFullResourceName, String.toList_append, List.append_cancel_right_eq] at hlist
  exact String.toList_inj.mp hlist

/-- The key of a central object is in the list of the handler if that of its original was reported. -/
theorem metaNamespaceKey_central_mem_iff {S T : Type} {c : String} {e : Object S T}
    {fullList : List String} :
    metaNamespaceKey (central c e).metadata ∈ (fullList.map fun key => uniqueFullResourceName key c) ↔
      metaNamespaceKey e.metadata ∈ fullList := by
  rw [metaNamespaceKey_central, List.mem_map]
  constructor
  · rintro ⟨key, hkey, heq⟩
    rw [← uniqueFullResourceName_inj heq]
    exact hkey
  · intro hmem
    exact ⟨_, hmem, rfl⟩

/-! ## Deletes -/

section Deletes

variable {t : ResourceType} {st : Strategy t.Status} {order : MapOrder ObjectKey} {c : String}
  {s : Store t.Spec t.Status} {fullList : List String}

/-- Objects that are not deleted stay. -/
theorem get_foldl_delete_of_ne {k : ObjectKey} : ∀ {l : List t.Obj} {s : Store t.Spec t.Status},
    (∀ o ∈ l, (scopeOf t).key o.metadata ≠ k) →
      (l.foldl (fun s o => (Proc.run (serve st order) (deleteObject (scopeOf t) o) s).2) s).get k = s.get k
  | [], _, _ => rfl
  | o :: l, s, h => by
      rw [List.foldl_cons, get_foldl_delete_of_ne fun o' ho' => h o' (List.mem_cons_of_mem o ho'),
        get_run_deleteObject, if_neg (Ne.symm (h o List.mem_cons_self))]

/-- Objects that are deleted are gone. -/
theorem get_foldl_delete_of_mem {o : t.Obj} : ∀ {l : List t.Obj} {s : Store t.Spec t.Status}, o ∈ l →
    (l.foldl (fun s o => (Proc.run (serve st order) (deleteObject (scopeOf t) o) s).2) s).get
      ((scopeOf t).key o.metadata) = none
  | o' :: l, s, h => by
      rw [List.foldl_cons]
      by_cases hlater : ∃ o'' ∈ l, (scopeOf t).key o''.metadata = (scopeOf t).key o.metadata
      · obtain ⟨o'', ho'', hkey⟩ := hlater
        rw [← hkey]
        exact get_foldl_delete_of_mem ho''
      · rw [get_foldl_delete_of_ne fun o'' ho'' hkey => hlater ⟨o'', ho'', hkey⟩, get_run_deleteObject]
        rcases List.mem_cons.mp h with rfl | hmem
        · exact if_pos rfl
        · exact absurd ⟨o, hmem, rfl⟩ hlater

theorem mem_vanished {o : t.Obj} :
    o ∈ vanished order s c fullList ↔ s.get o.metadata.key = some o ∧ labelledWith c o = true ∧
      metaNamespaceKey o.metadata ∉ fullList.map fun key => uniqueFullResourceName key c := by
  rw [vanished, List.mem_filter, Client.mem_labelled, labelledWith, beq_iff_eq, and_assoc,
    Bool.not_eq_true', decide_eq_false_iff_not]

/-- What the handler leaves under a key: an object of the cluster that the list does not name is deleted,
and everything else stays. -/
theorem get_run_handleFullListOf (hs : Scoped t s) (k : ObjectKey) :
    (Proc.run (serve st order) (handleFullListOf t c fullList) s).2.get k =
      (s.get k).filter fun o => !(labelledWith c o && !decide (metaNamespaceKey o.metadata ∈
        fullList.map fun key => uniqueFullResourceName key c)) := by
  rw [handleFullListOf_eq, run_handleFullList]
  cases hget : s.get k with
  | none =>
      rw [get_foldl_delete_of_ne, hget]
      · rfl
      · -- what is deleted was there
        intro o ho hkey
        have hkept := (of_mem_vanished hs ho).1
        rw [hkey, hget] at hkept
        cases hkept
  | some o =>
      have hkey : o.metadata.key = k := s.key_of_get hget
      have hscope : (scopeOf t).key o.metadata = k := by
        have hns := hs k o hget
        rw [← hkey] at hns ⊢
        exact congrArg (fun ns => (⟨ns, o.metadata.name⟩ : ObjectKey)) hns
      by_cases hdelete : labelledWith c o = true ∧ metaNamespaceKey o.metadata ∉
          fullList.map fun key => uniqueFullResourceName key c
      · have hmem : o ∈ vanished order s c fullList := mem_vanished.mpr ⟨by rw [hkey]; exact hget, hdelete⟩
        rw [← hscope, get_foldl_delete_of_mem hmem, Option.filter_some, if_neg]
        simp [hdelete.1, hdelete.2]
      · rw [get_foldl_delete_of_ne, hget, Option.filter_some, if_pos]
        · rw [Bool.not_eq_true', Bool.and_eq_false_iff]
          rcases not_and_or.mp hdelete with hlabel | hlisted
          · exact Or.inl (Bool.eq_false_iff.mpr hlabel)
          · exact Or.inr (by simpa using hlisted)
        · intro o' ho' hkey'
          obtain ⟨hkept, -⟩ := of_mem_vanished hs ho'
          rw [hkey', hget] at hkept
          obtain rfl := Option.some.inj hkept
          exact hdelete (mem_vanished.mp ho').2

end Deletes

/-- The full list of a cluster deletes, of the objects labelled with the cluster, those whose originals at the
edge are not in the list; the others, and all objects without the label, stay as they are. -/
theorem fullList_deletes_vanished (t : ResourceType) (st : Strategy t.Status) (order : MapOrder ObjectKey)
    (c : String) (fullList : List String) (s : Store t.Spec t.Status) (hs : Scoped t s)
    (hnames : ∀ k o, s.get k = some o → labelledWith c o = true → ∃ e : t.Obj, central c e = o) :
    (∀ k o, s.get k = some o → labelledWith c o = true → ∃ e : t.Obj, central c e = o ∧
      (Proc.run (serve st order) (handleFullListOf t c fullList) s).2.get k =
        if metaNamespaceKey e.metadata ∈ fullList then some o else none) ∧
    ∀ k, (∀ o, s.get k = some o → labelledWith c o = false) →
      (Proc.run (serve st order) (handleFullListOf t c fullList) s).2.get k = s.get k := by
  refine ⟨?_, ?_⟩
  · intro k o hget hlabel
    obtain ⟨e, rfl⟩ := hnames k o hget hlabel
    refine ⟨e, rfl, ?_⟩
    rw [get_run_handleFullListOf hs, hget, Option.filter_some]
    by_cases hlisted : metaNamespaceKey e.metadata ∈ fullList
    · simp [hlabel, metaNamespaceKey_central_mem_iff, hlisted]
    · simp [hlabel, metaNamespaceKey_central_mem_iff, hlisted]
  · intro k hother
    rw [get_run_handleFullListOf hs]
    cases hget : s.get k with
    | none => rfl
    | some o => simp [hother o hget]

/-! ## The start of a pod reporter -/

/-- The report that a pod reporter sends when it has just started, if it sends one: `reportFullListPod` has
set the full list, and nothing else has been collected. -/
def startUpReport (it : MapOrder String) (podCache : GoMap String Pod) :
    Option (ResourceStatus PodSpec PodStatus) :=
  (sendClusterMessageToSyncChan (reportFullListPod it podCache emptyPodStatus)).1

/-- The pods at the centre after `handlePodReport` has handled this report. -/
def afterStartUp (st : Strategy PodStatus) (order : MapOrder ObjectKey) (it : MapOrder String) (c : String)
    (podCache : GoMap String Pod) (s : Store PodSpec PodStatus) : Store PodSpec PodStatus :=
  match startUpReport it podCache with
  | none => s
  | some body => (Proc.run (serve st order) (handlePodReport it c body) s).2

section StartUp

variable {st : Strategy PodStatus} {order : MapOrder ObjectKey} {it : MapOrder String} {c : String}
  {podCache : GoMap String Pod} {s : Store PodSpec PodStatus}

/-- The report is sent if there are pods at the edge. -/
theorem startUpReport_eq (it : MapOrder String) (podCache : GoMap String Pod) :
    startUpReport it podCache =
      if podCache.keys = ∅ then none else some ⟨some ∅, some ∅, some (it.order podCache)⟩ := by
  rw [startUpReport, sendClusterMessageToSyncChan]
  by_cases h : podCache.keys = ∅
  · rw [if_pos h, if_pos]
    exact ⟨rfl, rfl, (it.order_eq_nil_iff podCache).mpr h⟩
  · rw [if_neg h, if_neg]
    · rfl
    · rintro ⟨-, -, hlist⟩
      exact h ((it.order_eq_nil_iff podCache).mp hlist)

/-- A report with a full list and empty maps is handled like the full list. -/
theorem run_handlePodReport_fullList {fullList : List String} (hne : fullList ≠ []) :
    (Proc.run (serve st order) (handlePodReport it c ⟨some ∅, some ∅, some fullList⟩) s).2 =
      (Proc.run (serve st order) (handleFullListOf .pod c fullList) s).2 := by
  have hmap : ∀ handle : Pod → Api PodSpec PodStatus (Except Error Unit),
      forEachUnique handle it ∅ = Proc.done () := by
    intro handle
    rw [forEachUnique, (it.order_eq_nil_iff _).mpr rfl, Proc.forEach]
  have htaken : handleIfTaken deletePod (fun fullList => !fullList.isEmpty) c (some fullList) =
      handlePodFullList c fullList := by
    rw [handleIfTaken, if_pos]
    · rfl
    · simp [hne]
  rw [handlePodReport, handleReport, Proc.run_do, Proc.run_do]
  simp only [htaken, handleIfPresent, handleUpdateMap, handleDelMap, hmap, Proc.run_done]
  rfl

/-- What is left of the cluster's pods: all of them, if there is none at the edge, and otherwise those whose
originals exist there. -/
theorem get_afterStartUp (k : ObjectKey) :
    (afterStartUp st order it c podCache s).get k =
      if podCache.keys = ∅ then s.get k
      else (s.get k).filter fun o => !(labelledWith c o && !decide (metaNamespaceKey o.metadata ∈
        (it.order podCache).map fun key => uniqueFullResourceName key c)) := by
  rw [afterStartUp, startUpReport_eq]
  by_cases h : podCache.keys = ∅
  · rw [if_pos h, if_pos h]
  · rw [if_neg h, if_neg h]
    dsimp only
    rw [run_handlePodReport_fullList fun hnil => h ((it.order_eq_nil_iff podCache).mp hnil)]
    exact get_run_handleFullListOf (fun _ _ _ => rfl) k

end StartUp

/-- Every pod at the centre that is labelled with the cluster has its original at the edge. -/
def NoStalePods (c : String) (podCache : GoMap String Pod) (s : Store PodSpec PodStatus) : Prop :=
  ∀ k o, s.get k = some o → labelledWith c o = true →
    ∃ key ∈ podCache.keys, metaNamespaceKey o.metadata = uniqueFullResourceName key c

/-- The report that a pod reporter sends when it starts rids the centre of stale pods, if and only if there is
a pod at the edge or the centre has no pods of the cluster. -/
theorem startUp_removes_stale_pods_iff (st : Strategy PodStatus) (order : MapOrder ObjectKey)
    (it : MapOrder String) (c : String) (podCache : GoMap String Pod) (s : Store PodSpec PodStatus) :
    NoStalePods c podCache (afterStartUp st order it c podCache s) ↔
      podCache.keys ≠ ∅ ∨ ∀ k o, s.get k = some o → labelledWith c o = false := by
  unfold NoStalePods
  simp only [get_afterStartUp]
  by_cases h : podCache.keys = ∅
  · simp only [h, if_true, ne_eq, not_true_eq_false, false_or]
    constructor
    · intro hall k o hget
      by_contra hlabel
      obtain ⟨key, hkey, -⟩ := hall k o hget (by simpa using hlabel)
      exact Finset.notMem_empty key hkey
    · intro hnone k o hget hlabel
      rw [hnone k o hget] at hlabel
      cases hlabel
  · refine iff_of_true ?_ (Or.inl h)
    intro k o hget hlabel
    rw [if_neg h, Option.filter_eq_some_iff] at hget
    obtain ⟨-, hkept⟩ := hget
    rw [hlabel, Bool.true_and, Bool.not_not, decide_eq_true_iff] at hkept
    obtain ⟨key, hkey, heq⟩ := List.mem_map.mp hkept
    exact ⟨key, (it.mem_order podCache key).mp hkey, heq.symm⟩

/-! ## A pod that has vanished -/

/-- The pod `web` of the cluster `c1`, as it is reported. -/
def webPod : Pod where
  metadata := ⟨"web", "default", some (GoMap.ofList [(clusterLabel, "c1")]), "", "", none⟩
  spec := ⟨[], "", [], [], none, ""⟩
  status := ⟨"Running", [], ""⟩

/-- A centre with this pod. -/
def centreOfWeb : Store PodSpec PodStatus := (∅ : Store PodSpec PodStatus).put ⟨"default", "web-c1"⟩ webPod

theorem get_centreOfWeb {k : ObjectKey} {o : Pod} (h : centreOfWeb.get k = some o) :
    k = ⟨"default", "web-c1"⟩ ∧ o = (∅ : Store PodSpec PodStatus).stamped ⟨"default", "web-c1"⟩ webPod := by
  rw [centreOfWeb, Store.get_put] at h
  split at h
  · exact ⟨‹_›, (Option.some.inj h).symm⟩
  · simp at h

/-- The full list `default/web` keeps the pod. -/
theorem fullList_keeps_web :
    ∃ e : Pod, central "c1" e = (∅ : Store PodSpec PodStatus).stamped ⟨"default", "web-c1"⟩ webPod ∧
      (Proc.run (serve ⟨id, true⟩ MapOrder.sorted) (handleFullListOf .pod "c1" ["default/web"])
        centreOfWeb).2.get ⟨"default", "web-c1"⟩ =
          if metaNamespaceKey e.metadata ∈ ["default/web"]
          then some ((∅ : Store PodSpec PodStatus).stamped ⟨"default", "web-c1"⟩ webPod) else none :=
  (fullList_deletes_vanished .pod ⟨id, true⟩ MapOrder.sorted "c1" ["default/web"] centreOfWeb
    (fun _ _ _ => rfl) (by
      intro k o hget _
      obtain ⟨-, rfl⟩ := get_centreOfWeb hget
      exact ⟨{ webPod with metadata := { webPod.metadata with resourceVersion := "1" } }, rfl⟩)).1
    ⟨"default", "web-c1"⟩ _ rfl rfl

/-- When the last pod of a cluster has vanished while its reporter was down, it stays at the centre. -/
theorem last_pod_stays :
    ¬ NoStalePods "c1" ∅ (afterStartUp ⟨id, true⟩ MapOrder.sorted MapOrder.sorted "c1" ∅ centreOfWeb) := by
  intro hclean
  have hget : (afterStartUp ⟨id, true⟩ MapOrder.sorted MapOrder.sorted "c1" ∅ centreOfWeb).get
      ⟨"default", "web-c1"⟩ = some ((∅ : Store PodSpec PodStatus).stamped ⟨"default", "web-c1"⟩ webPod) := by
    rw [get_afterStartUp, if_pos (show (∅ : GoMap String Pod).keys = ∅ from rfl)]
    rfl
  obtain ⟨key, hkey, -⟩ := hclean _ _ hget rfl
  exact Finset.notMem_empty key hkey

end OteStack.ControllerManager
