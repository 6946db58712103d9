/-
# OteStack.ControllerManager.PodUpdate — what the update of a pod writes.

`UpdatePod` of `pkg/controllermanager/pod_processor.go`, against any server: an attempt reads the stored pod
and writes the reported one, prepared with what it has read, and a conflict starts the next attempt with the
pod as the last one left it.  The attempts overwrite the pod's spec and its server metadata, but never its
name, namespace and labels (`SameReport`), and the fields of the spec that are kept come from a copy that was
made before the first attempt.  So every write is made from the read right before it and from the report
(`updatePod_writes`).
-/
import OteStack.ControllerManager.Upsert
import OteStack.Lib.Course
import OteStack.Reporter.PodReporter

namespace OteStack.ControllerManager

open OteStack.Lib (GoMap)
open OteStack.Lib.KubeApi
open OteStack.Lib.Proc (Course Preceded)
open OteStack.Reporter (PodSpec PodStatus Pod edgeVersionLabel)

/-! ## Attempts -/

section Attempts

variable {S T : Type} {word : String} {sc : Scope} {prepare : Object S T → Object S T → Object S T}
  {send : String → Object S T → Api S T (Except ApiError (Object S T))} {o : Object S T}
  {l : List ((x : Request S T) × x.Answer)}

/-- A call with its answer. -/
abbrev Exchange (S T : Type) := (x : Request S T) × x.Answer

/-- The call writes to the server. -/
def isWrite : Exchange S T → Bool
  | ⟨.get _, _⟩ => false
  | ⟨.list _ _, _⟩ => false
  | _ => true

/-- An attempt reads the stored object, and if the version of the report is not lower it sends the object
that it has prepared. -/
theorem course_updateAttempt {res : Except Error Unit × Object S T}
    (h : Course (updateAttempt word sc prepare send o) l res) :
    (res.2 = o ∧ ∃ got : Except ApiError (Object S T), l = [⟨.get (sc.key o.metadata), got⟩]) ∨
      ∃ stored : Object S T, checkEdgeVersion o.metadata stored.metadata = true ∧
        res.2 = prepare { o with metadata := adaptToCentralResource o.metadata stored.metadata } stored ∧
        ∃ ns l' ans, l = ⟨.get (sc.key o.metadata), .ok stored⟩ :: l' ∧ Course (send ns res.2) l' ans := by
  obtain ⟨l₁, l₂, got, rfl, hget, hrest⟩ := h.of_bind
  obtain rfl := hget.of_call
  cases got with
  | error e =>
      obtain ⟨rfl, rfl⟩ := hrest.of_pure
      exact Or.inl ⟨rfl, _, rfl⟩
  | ok stored =>
      dsimp only [asError] at hrest
      split at hrest
      · rename_i hok
        obtain ⟨l₃, l₄, ans, rfl, hsend, hdone⟩ := hrest.of_bind
        obtain ⟨rfl, rfl⟩ := hdone.of_pure
        refine Or.inr ⟨stored, hok, rfl, _, l₃, ans, ?_, hsend⟩
        rw [List.append_nil]
        rfl
      · obtain ⟨rfl, rfl⟩ := hrest.of_pure
        exact Or.inl ⟨rfl, _, rfl⟩

/-- What every attempt keeps, the attempts together keep. -/
theorem course_retryOnConflict {D : Type} {attempt : D → Api S T (Except Error Unit × D)}
    {permits : Exchange S T → Exchange S T → Prop} {needs : Exchange S T → Prop} {I : D → Prop}
    (hattempt : ∀ d l res, I d → Course (attempt d) l res → Preceded permits needs l ∧ I res.2)
    (more : ℕ) {d : D} {l : List (Exchange S T)} {res : Except Error Unit × D} (hd : I d)
    (h : Course (retryOnConflict attempt more d) l res) : Preceded permits needs l ∧ I res.2 := by
  induction more generalizing d l with
  | zero => exact hattempt d l res hd h
  | succ more ih =>
      obtain ⟨l₁, l₂, first, rfl, hfirst, hrest⟩ := h.of_bind
      obtain ⟨hpreceded, hI⟩ := hattempt d l₁ first hd hfirst
      split at hrest
      · obtain ⟨hpreceded', hI'⟩ := ih hI hrest
        exact ⟨hpreceded.append hpreceded', hI'⟩
      · obtain ⟨rfl, rfl⟩ := hrest.of_pure
        rw [List.append_nil]
        exact ⟨hpreceded, hI⟩

end Attempts

/-! ## The update of a pod -/

/-- The pod is still the reported one, but for its spec and what the server owns. -/
structure SameReport (pod d : Pod) : Prop where
  name : d.metadata.name = pod.metadata.name
  ns : d.metadata.namespace = pod.metadata.namespace
  labels : d.metadata.labels = pod.metadata.labels

/-- The pod that is sent is the reported one with the spec, the uid and the version of the stored one, but
for two fields of the spec. -/
structure Prepared (pod stored sent : Pod) : Prop where
  spec : sent.spec = { stored.spec with
    activeDeadlineSeconds := pod.spec.activeDeadlineSeconds
    tolerations := pod.spec.tolerations }
  uid : sent.metadata.uid = stored.metadata.uid
  resourceVersion : sent.metadata.resourceVersion = stored.metadata.resourceVersion
  labels : sent.metadata.labels = pod.metadata.labels

/-- The first call is a read that permits the second one: the version it has read is not higher than that of
the report, and an update sends what is prepared from it. -/
def Permits (pod : Pod) (d e : Exchange PodSpec PodStatus) : Prop :=
  ∃ stored : Pod, d = ⟨.get pod.metadata.key, .ok stored⟩ ∧
    checkEdgeVersion pod.metadata stored.metadata = true ∧
    ∀ ns sent, e.1 = .update ns sent → Prepared pod stored sent

section UpdatePod

variable {pod d : Pod} {l : List (Exchange PodSpec PodStatus)} {res : Except Error Unit × Pod}

theorem SameReport.key (h : SameReport pod d) : podScope.key d.metadata = pod.metadata.key := by
  rw [Scope.key, ObjectMeta.key, h.name, ← h.ns]
  rfl

theorem SameReport.checkEdgeVersion (h : SameReport pod d) (stored : ObjectMeta) :
    checkEdgeVersion d.metadata stored = checkEdgeVersion pod.metadata stored := by
  unfold ControllerManager.checkEdgeVersion ObjectMeta.label
  rw [h.labels]

/-- An attempt whose preparation keeps the report, and which sends one call. -/
theorem preceded_updateAttempt {prepare : Pod → Pod → Pod}
    {send : String → Pod → Api PodSpec PodStatus (Except ApiError Pod)}
    (hprepare : ∀ {d stored}, SameReport pod d → SameReport pod (prepare d stored))
    (hsend : ∀ ns d stored l ans, SameReport pod d →
      d.metadata.uid = stored.metadata.uid → d.metadata.resourceVersion = stored.metadata.resourceVersion →
      Course (send ns (prepare d stored)) l ans →
      ∃ e, l = [e] ∧ ∀ ns' sent, e.1 = .update ns' sent → Prepared pod stored sent)
    (hd : SameReport pod d) (h : Course (updateAttempt "pod" podScope prepare send d) l res) :
    Preceded (Permits pod) (fun e => isWrite e = true) l ∧ SameReport pod res.2 := by
  rcases course_updateAttempt h with ⟨hres, got, rfl⟩ | ⟨stored, hok, hres, ns, l', ans, rfl, hcourse⟩
  · rw [hres]
    exact ⟨.single (by simp [isWrite]), hd⟩
  · have hadapted : SameReport pod
        { d with metadata := adaptToCentralResource d.metadata stored.metadata } :=
      ⟨hd.name, hd.ns, hd.labels⟩
    rw [hres] at hcourse
    obtain ⟨e, rfl, hsent⟩ := hsend ns _ stored l' ans hadapted rfl rfl hcourse
    rw [hd.key, hres]
    refine ⟨.pair (by simp [isWrite]) ⟨stored, rfl, ?_, hsent⟩, hprepare hadapted⟩
    rw [← hd.checkEdgeVersion]
    exact hok

/-- An attempt of the first phase. -/
theorem preceded_updateAttempt_update (hd : SameReport pod d)
    (h : Course (updateAttempt "pod" podScope
      (fun pod' stored => { pod' with spec := podUpdateSpec stored.spec pod.spec }) Client.update d) l res) :
    Preceded (Permits pod) (fun e => isWrite e = true) l ∧ SameReport pod res.2 := by
  refine preceded_updateAttempt ?_ ?_ hd h
  · intro d stored hd
    exact ⟨hd.name, hd.ns, hd.labels⟩
  · intro ns d stored l ans hd huid hversion hcourse
    refine ⟨_, hcourse.of_call, ?_⟩
    intro ns' sent heq
    obtain ⟨-, rfl⟩ := Request.update.inj heq
    exact ⟨rfl, huid, hversion, hd.labels⟩

/-- An attempt of the second phase sends no update. -/
theorem preceded_updateAttempt_updateStatus (hd : SameReport pod d)
    (h : Course (updateAttempt "pod" podScope (fun pod' _ => pod') Client.updateStatus d) l res) :
    Preceded (Permits pod) (fun e => isWrite e = true) l ∧ SameReport pod res.2 := by
  refine preceded_updateAttempt ?_ ?_ hd h
  · intro d stored hd
    exact hd
  · intro ns d stored l ans _ _ _ hcourse
    refine ⟨_, hcourse.of_call, ?_⟩
    intro ns' sent heq
    cases heq

/-- Every write of both phases is made right after a read that permits it. -/
theorem preceded_updatePod {ret : Except Error Unit} (h : Course (updatePod pod) l ret) :
    Preceded (Permits pod) (fun e => isWrite e = true) l := by
  obtain ⟨l₁, l₂, first, rfl, hfirst, hrest⟩ := h.of_bind
  obtain ⟨hpreceded, hsame⟩ := course_retryOnConflict
    (fun _ _ _ hd h => preceded_updateAttempt_update hd h) defaultRetry ⟨rfl, rfl, rfl⟩ hfirst
  refine hpreceded.append ?_
  split at hrest
  · obtain ⟨rfl, -⟩ := hrest.of_pure
    exact .nil
  · obtain ⟨l₃, l₄, second, rfl, hsecond, hdone⟩ := hrest.of_bind
    obtain ⟨rfl, -⟩ := hdone.of_pure
    rw [List.append_nil]
    exact (course_retryOnConflict (fun _ _ _ hd h => preceded_updateAttempt_updateStatus hd h) defaultRetry
      hsame hsecond).1

end UpdatePod

/-- Whatever the reads of the attempts return, `UpdatePod` writes only right after a read, and only if the
version that was read is not higher than that of the report.  What the first phase writes has the spec of the
pod that was read, with the active deadline and the tolerations of the report, its uid and its resource
version, and the labels of the report. -/
theorem updatePod_writes (pod : Pod) {l : List (Exchange PodSpec PodStatus)} {ret : Except Error Unit}
    (h : Course (updatePod pod) l ret) (before after : List (Exchange PodSpec PodStatus))
    (e : Exchange PodSpec PodStatus) (hl : l = before ++ e :: after) (he : isWrite e = true) :
    ∃ earlier, ∃ stored : Pod, before = earlier ++ [⟨.get pod.metadata.key, .ok stored⟩] ∧
      (∃ v w, edgeVersion pod.metadata = some v ∧ edgeVersion stored.metadata = some w ∧ w ≤ v) ∧
      ∀ ns sent, e.1 = .update ns sent →
        sent.spec = { stored.spec with
          activeDeadlineSeconds := pod.spec.activeDeadlineSeconds
          tolerations := pod.spec.tolerations } ∧
        sent.metadata.uid = stored.metadata.uid ∧
        sent.metadata.resourceVersion = stored.metadata.resourceVersion ∧
        sent.metadata.labels = pod.metadata.labels := by
  obtain ⟨earlier, d, hbefore, stored, rfl, hok, hsent⟩ := preceded_updatePod h before e after hl he
  refine ⟨earlier, stored, hbefore, checkEdgeVersion_iff.mp hok, ?_⟩
  intro ns sent heq
  have hprepared := hsent ns sent heq
  exact ⟨hprepared.spec, hprepared.uid, hprepared.resourceVersion, hprepared.labels⟩

/-- The pod `web` of cluster `c`. -/
def webPodAt (image edgeVersion resourceVersion : String) (deadline : Option ℤ) : Pod where
  metadata := ⟨"web-c", "default", some (GoMap.ofList [(edgeVersionLabel, edgeVersion)]), resourceVersion,
    "u1", none⟩
  spec := ⟨[image], "", [], [], deadline, ""⟩
  status := ⟨"Running", [], ""⟩

/-- A first attempt that ends in a conflict, and a second one that reads a newer pod. -/
def webUpdate : List (Exchange PodSpec PodStatus) :=
  [⟨.get ⟨"default", "web-c"⟩, .ok (webPodAt "web:1" "1" "7" none)⟩,
   ⟨.update "default" (webPodAt "web:1" "3" "7" (some 60)), .error .conflict⟩,
   ⟨.get ⟨"default", "web-c"⟩, .ok (webPodAt "web:2" "2" "8" none)⟩,
   ⟨.update "default" (webPodAt "web:2" "3" "8" (some 60)), .error .notFound⟩]

theorem course_webUpdate :
    Course (updatePod (webPodAt "web:3" "3" "" (some 60))) webUpdate (.error (.api .notFound)) :=
  .call _ (.call _ (.call _ (.call _ (.done _))))

/-- The second update is prepared from the second read, and still has the deadline of the report. -/
theorem updatePod_writes_webUpdate :
    ∃ earlier, ∃ stored : Pod, webUpdate.take 3 = earlier ++ [⟨.get ⟨"default", "web-c"⟩, .ok stored⟩] ∧
      (∃ v w, edgeVersion (webPodAt "web:3" "3" "" (some 60)).metadata = some v ∧
        edgeVersion stored.metadata = some w ∧ w ≤ v) ∧
      (webPodAt "web:2" "3" "8" (some 60)).spec =
        { stored.spec with activeDeadlineSeconds := some 60, tolerations := [] } := by
  obtain ⟨earlier, stored, hbefore, hversions, hsent⟩ := updatePod_writes (webPodAt "web:3" "3" "" (some 60))
    course_webUpdate (webUpdate.take 3) []
    ⟨.update "default" (webPodAt "web:2" "3" "8" (some 60)), .error .notFound⟩ rfl rfl
  exact ⟨earlier, stored, hbefore, hversions, (hsent _ _ rfl).1⟩

end OteStack.ControllerManager
