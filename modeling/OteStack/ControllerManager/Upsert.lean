/-
# OteStack.ControllerManager.Upsert — the effect of one create-or-update and of one delete.

What the processors' programs do to the central store when nothing interferes, stated once for each
program: another key is never touched; a stored object that is newer than the report stays as it is;
otherwise the object under the report's key carries the labels of the report afterwards.  `Upserts`
packages this for the five kinds, and `podImage_createOrUpdatePod` adds what a pod's spec and status are.
-/
import OteStack.ControllerManager.Upstream

namespace OteStack.ControllerManager

open OteStack.Lib (GoMap MapOrder Proc)
open OteStack.Lib.KubeApi
open OteStack.Lib.GoStrings (atoi)
open OteStack.Reporter (clusterLabel edgeVersionLabel PodSpec PodStatus)

/-! ## Versions -/

/-- The version of the object at the edge, if its label holds a number. -/
def edgeVersion (m : ObjectMeta) : Option ℤ := atoi (m.label edgeVersionLabel)

theorem edgeVersion_congr {m m' : ObjectMeta} (h : m.labels = m'.labels) :
    edgeVersion m = edgeVersion m' := by
  rw [edgeVersion, edgeVersion, ObjectMeta.label, ObjectMeta.label, h]

/-- The check passes exactly when both versions are numbers and the report's is not smaller. -/
theorem checkEdgeVersion_iff {report stored : ObjectMeta} :
    checkEdgeVersion report stored = true ↔
      ∃ v w, edgeVersion report = some v ∧ edgeVersion stored = some w ∧ w ≤ v := by
  have hlabel : ∀ {m : ObjectMeta}, edgeVersion m ≠ none →
      m.labels ≠ none ∧ m.label edgeVersionLabel ≠ "" := by
    intro m hm
    have hne : m.label edgeVersionLabel ≠ "" := by
      intro hempty
      exact hm (by rw [edgeVersion, hempty, OteStack.Lib.GoStrings.atoi_empty])
    refine ⟨?_, hne⟩
    intro hnil
    exact hne (by simp [ObjectMeta.label, hnil])
  constructor
  · intro h
    unfold checkEdgeVersion at h
    split at h
    · cases h
    · split at h
      · cases h
      · split at h
        · rename_i v w hv hw
          exact ⟨v, w, hv, hw, by simpa using h⟩
        · cases h
  · rintro ⟨v, w, hv, hw, hle⟩
    obtain ⟨hr, hr'⟩ := hlabel (m := report) (by simp [hv])
    obtain ⟨hs, hs'⟩ := hlabel (m := stored) (by simp [hw])
    have hv' : atoi (report.label edgeVersionLabel) = some v := hv
    have hw' : atoi (stored.label edgeVersionLabel) = some w := hw
    simp [checkEdgeVersion, hr, hr', hs, hs', hv', hw', hle]

/-- An object with a version passes the check against itself. -/
theorem checkEdgeVersion_self {r x : ObjectMeta} (hr : edgeVersion r ≠ none)
    (h : r.labels = x.labels) : checkEdgeVersion r x = true := by
  obtain ⟨v, hv⟩ := Option.ne_none_iff_exists'.mp hr
  exact checkEdgeVersion_iff.mpr ⟨v, v, hv, by rw [← edgeVersion_congr h, hv], le_rfl⟩

/-! ## Updates -/

section Update

variable {S T : Type} {st : Strategy T} {order : MapOrder ObjectKey} {s : Store S T}
  {word : String} {sc : Scope} {prepare : Object S T → Object S T → Object S T}
  {send : String → Object S T → Api S T (Except ApiError (Object S T))} {o x : Object S T}

theorem run_updateAttempt_absent (h : s.get (sc.key o.metadata) = none) :
    Proc.run (serve st order) (updateAttempt word sc prepare send o) s =
      ((.error (.api .notFound), o), s) := by
  simp [updateAttempt, Client.run_get_none h, asError]

theorem run_updateAttempt_refused (h : s.get (sc.key o.metadata) = some x)
    (hold : checkEdgeVersion o.metadata x.metadata = false) :
    Proc.run (serve st order) (updateAttempt word sc prepare send o) s =
      ((.error (.text ("check " ++ word ++ " edge version failed")), o), s) := by
  simp [updateAttempt, Client.run_get_some h, asError, hold]

/-- The object an attempt sends for a stored one. -/
def toSend (prepare : Object S T → Object S T → Object S T) (o x : Object S T) : Object S T :=
  prepare { o with metadata := adaptToCentralResource o.metadata x.metadata } x

/-- An attempt that passes the check sends the prepared object to where the stored one is kept. -/
theorem run_updateAttempt_sent (h : s.get (sc.key o.metadata) = some x)
    (hok : checkEdgeVersion o.metadata x.metadata = true) :
    Proc.run (serve st order) (updateAttempt word sc prepare send o) s =
      (((asError (Proc.run (serve st order)
          (send (sc.ns o.metadata.namespace) (toSend prepare o x)) s).1).map fun _ => (),
        toSend prepare o x),
        (Proc.run (serve st order) (send (sc.ns o.metadata.namespace) (toSend prepare o x)) s).2) := by
  have hns : sc.updateNs o.metadata.namespace x.metadata.namespace = sc.ns o.metadata.namespace :=
    sc.agree _ _ (congrArg ObjectKey.namespace (s.key_of_get h))
  simp [updateAttempt, Client.run_get_some h, asError, hok, hns, toSend]

/-- `prepare` only works on the spec. -/
def KeepsMeta (prepare : Object S T → Object S T → Object S T) : Prop :=
  ∀ o x, (prepare o x).metadata = o.metadata ∧ (prepare o x).status = o.status

theorem staleFor_toSend (hp : KeepsMeta prepare) : staleFor (toSend prepare o x) x = false := by
  simp [staleFor, toSend, hp _ _, adaptToCentralResource]

theorem toSend_name (hp : KeepsMeta prepare) :
    (toSend prepare o x).metadata.name = o.metadata.name := by
  simp [toSend, hp _ _, adaptToCentralResource]

theorem toSend_namespace (hp : KeepsMeta prepare) :
    (toSend prepare o x).metadata.namespace = o.metadata.namespace := by
  simp [toSend, hp _ _, adaptToCentralResource]

theorem toSend_labels (hp : KeepsMeta prepare) :
    (toSend prepare o x).metadata.labels = o.metadata.labels := by
  simp [toSend, hp _ _, adaptToCentralResource]

theorem toSend_status (hp : KeepsMeta prepare) : (toSend prepare o x).status = o.status := by
  simp [toSend, hp _ _]

/-- The labels, the spec and the status of an object: what a report determines. -/
def content (o : Object S T) : Option Labels × S × T := (o.metadata.labels, o.spec, o.status)

theorem run_updateObject_absent (h : s.get (sc.key o.metadata) = none) :
    (Proc.run (serve st order) (updateObject word sc prepare o) s).2 = s := by
  have hfirst := run_retryOnConflict (serve st order)
    (updateAttempt word sc prepare Client.update) defaultRetry o s
    (by rw [run_updateAttempt_absent h]; simp)
  simp [updateObject, hfirst, run_updateAttempt_absent h]

theorem run_updateObject_refused (h : s.get (sc.key o.metadata) = some x)
    (hold : checkEdgeVersion o.metadata x.metadata = false) :
    (Proc.run (serve st order) (updateObject word sc prepare o) s).2 = s := by
  have hfirst := run_retryOnConflict (serve st order)
    (updateAttempt word sc prepare Client.update) defaultRetry o s
    (by rw [run_updateAttempt_refused h hold]; simp)
  simp [updateObject, hfirst, run_updateAttempt_refused h hold]

/-- The first phase of an update. -/
theorem run_firstPhase (hp : KeepsMeta prepare) (h : s.get (sc.key o.metadata) = some x)
    (hok : checkEdgeVersion o.metadata x.metadata = true) :
    Proc.run (serve st order) (updateAttempt word sc prepare Client.update o) s =
      ((.ok (), toSend prepare o x), s.put (sc.key o.metadata) (updated (toSend prepare o x) x)) := by
  have hget : s.get ⟨sc.ns o.metadata.namespace, (toSend prepare o x).metadata.name⟩ = some x := by
    rw [toSend_name hp]
    exact h
  rw [run_updateAttempt_sent h hok, Client.run_update hget (staleFor_toSend hp), toSend_name hp]
  rfl

/-- The second phase of an update. -/
theorem run_secondPhase (h : s.get (sc.key o.metadata) = some x)
    (hok : checkEdgeVersion o.metadata x.metadata = true) :
    Proc.run (serve st order) (updateAttempt word sc (fun o _ => o) Client.updateStatus o) s =
      ((.ok (), toSend (fun o _ => o) o x),
        s.put (sc.key o.metadata) (statusUpdated st (toSend (fun o _ => o) o x) x)) := by
  have hp : KeepsMeta (fun (o _ : Object S T) => o) := fun _ _ => ⟨rfl, rfl⟩
  have hget : s.get ⟨sc.ns o.metadata.namespace, (toSend (fun o _ => o) o x).metadata.name⟩ =
      some x := h
  rw [run_updateAttempt_sent h hok, Client.run_updateStatus hget (staleFor_toSend hp)]
  rfl

variable (st order word) in
/-- An update that passes the check: the stored object has the labels and the status of the report
and the spec that was prepared, and nothing else has changed. -/
theorem run_updateObject_ok (hp : KeepsMeta prepare) (h : s.get (sc.key o.metadata) = some x)
    (hok : checkEdgeVersion o.metadata x.metadata = true) :
    (∀ k, k ≠ sc.key o.metadata →
      (Proc.run (serve st order) (updateObject word sc prepare o) s).2.get k = s.get k) ∧
    ∃ x', (Proc.run (serve st order) (updateObject word sc prepare o) s).2.get
        (sc.key o.metadata) = some x' ∧
      content x' = (o.metadata.labels, (toSend prepare o x).spec, o.status) := by
  -- the state and the object after the first phase
  have hfirst := run_retryOnConflict (serve st order)
    (updateAttempt word sc prepare Client.update) defaultRetry o s
    (by rw [run_firstPhase hp h hok]; simp)
  rw [run_firstPhase hp h hok] at hfirst
  set o₁ := toSend prepare o x with ho₁
  set s₁ := s.put (sc.key o.metadata) (updated o₁ x) with hs₁
  set x₁ := s.stamped (sc.key o.metadata) (updated o₁ x) with hx₁
  have hkey : sc.key o₁.metadata = sc.key o.metadata := by
    rw [Scope.key, Scope.key, toSend_name hp, toSend_namespace hp]
  have hget₁ : s₁.get (sc.key o₁.metadata) = some x₁ := by rw [hkey, hs₁, Store.get_put_self]
  have hver : edgeVersion o₁.metadata ≠ none := by
    obtain ⟨v, w, hv, -, -⟩ := checkEdgeVersion_iff.mp hok
    rw [edgeVersion_congr (toSend_labels hp), hv]
    simp
  have hok₁ : checkEdgeVersion o₁.metadata x₁.metadata = true := checkEdgeVersion_self hver rfl
  have hsecond := run_retryOnConflict (serve st order)
    (updateAttempt word sc (fun o _ => o) Client.updateStatus) defaultRetry o₁ s₁
    (by rw [run_secondPhase hget₁ hok₁]; simp)
  rw [run_secondPhase hget₁ hok₁, hkey] at hsecond
  have hrun : (Proc.run (serve st order) (updateObject word sc prepare o) s).2 =
      s₁.put (sc.key o.metadata) (statusUpdated st (toSend (fun o _ => o) o₁ x₁) x₁) := by
    simp [updateObject, hfirst, hsecond]
  rw [hrun]
  refine ⟨?_, _, Store.get_put_self _ _ _, ?_⟩
  · intro k hk
    rw [Store.get_put_of_ne _ hk, hs₁, Store.get_put_of_ne _ hk]
  · have hlabels : o₁.metadata.labels = o.metadata.labels := toSend_labels hp
    have hstatus : o₁.status = o.status := toSend_status hp
    simp [content, Store.stamped, statusUpdated, updated, hx₁, toSend, adaptToCentralResource,
      hlabels, hstatus]

end Update

/-! ## Creating first -/

section Create

variable {S T : Type} {st : Strategy T} {order : MapOrder ObjectKey} {s : Store S T}
  {word : String} {sc : Scope} {prepareNew : Object S T → Object S T}
  {prepare : Object S T → Object S T → Object S T → Object S T} {o x : Object S T}

/-- What `createObject` sends. -/
def toCreate (prepareNew : Object S T → Object S T) (o : Object S T) : Object S T :=
  prepareNew { o with metadata := { o.metadata with resourceVersion := "" } }

/-- The preparation of a new object leaves the metadata and the status alone. -/
def KeepsNewMeta (prepareNew : Object S T → Object S T) : Prop :=
  ∀ o, (prepareNew o).metadata = o.metadata ∧ (prepareNew o).status = o.status

theorem toCreate_labels (hn : KeepsNewMeta prepareNew) :
    (toCreate prepareNew o).metadata.labels = o.metadata.labels := by
  simp [toCreate, hn _]

theorem toCreate_namespace (hn : KeepsNewMeta prepareNew) :
    (toCreate prepareNew o).metadata.namespace = o.metadata.namespace := by
  simp [toCreate, hn _]

theorem toCreate_resourceVersion (hn : KeepsNewMeta prepareNew) :
    (toCreate prepareNew o).metadata.resourceVersion = "" := by
  simp [toCreate, hn _]

theorem key_toCreate (hn : KeepsNewMeta prepareNew) :
    sc.key (toCreate prepareNew o).metadata = sc.key o.metadata := by
  simp [Scope.key, toCreate, hn _]

theorem run_createObject (hn : KeepsNewMeta prepareNew) (h : s.get (sc.key o.metadata) = none) :
    Proc.run (serve st order) (createObject sc prepareNew o) s =
      ((.ok (), toCreate prepareNew o),
        s.put (sc.key o.metadata) (created st s (toCreate prepareNew o))) := by
  have hcreate : Proc.run (serve st order)
      (Client.create (sc.ns (toCreate prepareNew o).metadata.namespace) (toCreate prepareNew o)) s =
      _ := Client.run_create (toCreate_resourceVersion hn) (by rw [← key_toCreate hn] at h; exact h)
  have hkey : (⟨sc.ns (toCreate prepareNew o).metadata.namespace,
      (toCreate prepareNew o).metadata.name⟩ : ObjectKey) = sc.key o.metadata := key_toCreate hn
  rw [hkey] at hcreate
  simp only [createObject, Proc.run_do, Proc.run_pure]
  change ((Except.map _ (asError (Proc.run (serve st order) (Client.create _ _) s).1), _),
    (Proc.run (serve st order) (Client.create _ _) s).2) = _
  rw [show prepareNew { o with metadata := { o.metadata with resourceVersion := "" } } =
    toCreate prepareNew o from rfl, hcreate]
  rfl

/-- An absent object is created, and then updated from what was sent. -/
theorem run_createThenUpdate_absent (hn : KeepsNewMeta prepareNew)
    (update : Object S T → Api S T (Except Error Unit)) (h : s.get (sc.key o.metadata) = none) :
    (Proc.run (serve st order) (createThenUpdate sc (createObject sc prepareNew) update o) s).2 =
      (Proc.run (serve st order) (update (toCreate prepareNew o))
        (s.put (sc.key o.metadata) (created st s (toCreate prepareNew o)))).2 := by
  simp [createThenUpdate, Client.run_get_none h, asError, run_createObject hn h]

theorem run_createThenUpdate_present (create : Object S T → Api S T (Except Error Unit × Object S T))
    (update : Object S T → Api S T (Except Error Unit)) (h : s.get (sc.key o.metadata) = some x) :
    (Proc.run (serve st order) (createThenUpdate sc create update o) s).2 =
      (Proc.run (serve st order) (update o) s).2 := by
  simp [createThenUpdate, Client.run_get_some h, asError]

end Create

/-! ## The five kinds -/

/-- What a create-or-update does to the store: nothing elsewhere, nothing to a newer object, and
otherwise the object under the report's key ends with the report's labels. -/
structure Upserts {S T : Type} (st : Strategy T) (order : MapOrder ObjectKey) (sc : Scope)
    (createOrUpdate : Object S T → Api S T (Except Error Unit)) : Prop where
  other : ∀ s o k, k ≠ sc.key o.metadata →
    (Proc.run (serve st order) (createOrUpdate o) s).2.get k = s.get k
  newer : ∀ s o x, s.get (sc.key o.metadata) = some x →
    checkEdgeVersion o.metadata x.metadata = false →
    (Proc.run (serve st order) (createOrUpdate o) s).2.get (sc.key o.metadata) = some x
  written : ∀ s o, (∀ x, s.get (sc.key o.metadata) = some x →
    checkEdgeVersion o.metadata x.metadata = true) →
    ∃ x', (Proc.run (serve st order) (createOrUpdate o) s).2.get (sc.key o.metadata) = some x' ∧
      x'.metadata.labels = o.metadata.labels

section Upserts

variable {S T : Type} {st : Strategy T} {order : MapOrder ObjectKey} {word : String} {sc : Scope}
  {prepareNew : Object S T → Object S T} {prepare : Object S T → Object S T → Object S T → Object S T}

variable (st order word sc) in
/-- An update as an upsert of a present object. -/
theorem updateObject_cases (hp : ∀ o, KeepsMeta (prepare o)) (s : Store S T) (o : Object S T) :
    (∀ k, k ≠ sc.key o.metadata →
      (Proc.run (serve st order) (updateObject word sc (prepare o) o) s).2.get k = s.get k) ∧
    ∀ x, s.get (sc.key o.metadata) = some x →
      (checkEdgeVersion o.metadata x.metadata = false →
        (Proc.run (serve st order) (updateObject word sc (prepare o) o) s).2.get
          (sc.key o.metadata) = some x) ∧
      (checkEdgeVersion o.metadata x.metadata = true →
        ∃ x', (Proc.run (serve st order) (updateObject word sc (prepare o) o) s).2.get
          (sc.key o.metadata) = some x' ∧ x'.metadata.labels = o.metadata.labels) := by
  cases h : s.get (sc.key o.metadata) with
  | none =>
      rw [run_updateObject_absent h]
      exact ⟨fun _ _ => rfl, fun x hx => absurd hx (by simp)⟩
  | some x =>
      cases hok : checkEdgeVersion o.metadata x.metadata with
      | false =>
          rw [run_updateObject_refused h hok]
          refine ⟨fun _ _ => rfl, ?_⟩
          rintro x' ⟨⟩
          exact ⟨fun _ => h, fun hnew => absurd (hok.symm.trans hnew) (by simp)⟩
      | true =>
          obtain ⟨hother, x', hx', hcontent⟩ := run_updateObject_ok st order word (hp o) h hok
          refine ⟨hother, ?_⟩
          rintro x'' ⟨⟩
          exact ⟨fun hold => absurd (hok.symm.trans hold) (by simp),
            fun _ => ⟨x', hx', congrArg Prod.fst hcontent⟩⟩

/-- Creating an absent object before updating it is an upsert. -/
theorem upserts_createThenUpdate (hn : KeepsNewMeta prepareNew) (hp : ∀ o, KeepsMeta (prepare o)) :
    Upserts st order sc (createThenUpdate sc (createObject sc prepareNew)
      fun o => updateObject word sc (prepare o) o) where
  other s o k hk := by
    cases h : s.get (sc.key o.metadata) with
    | none =>
        rw [run_createThenUpdate_absent hn _ h]
        rw [← key_toCreate hn] at hk
        rw [(updateObject_cases st order word sc hp _ _).1 k hk, Store.get_put_of_ne]
        rwa [key_toCreate hn] at hk
    | some x =>
        rw [run_createThenUpdate_present _ _ h]
        exact (updateObject_cases st order word sc hp s o).1 k hk
  newer s o x h hold := by
    rw [run_createThenUpdate_present _ _ h]
    exact ((updateObject_cases st order word sc hp s o).2 x h).1 hold
  written s o hok := by
    cases h : s.get (sc.key o.metadata) with
    | none =>
        rw [run_createThenUpdate_absent hn _ h]
        -- whatever the update makes of it, the new object already has the labels
        have hget := s.get_put_self (sc.key o.metadata) (created st s (toCreate prepareNew o))
        have hcases := (updateObject_cases st order word sc hp
          (s.put (sc.key o.metadata) (created st s (toCreate prepareNew o)))
          (toCreate prepareNew o)).2 _ (by rw [key_toCreate hn]; exact hget)
        rw [key_toCreate hn] at hcases
        cases hck : checkEdgeVersion (toCreate prepareNew o).metadata
            (s.stamped (sc.key o.metadata) (created st s (toCreate prepareNew o))).metadata with
        | false => exact ⟨_, hcases.1 hck, toCreate_labels hn⟩
        | true =>
            obtain ⟨x', hx', hlabels⟩ := hcases.2 hck
            exact ⟨x', hx', hlabels.trans (toCreate_labels hn)⟩
    | some x =>
        rw [run_createThenUpdate_present _ _ h]
        exact ((updateObject_cases st order word sc hp s o).2 x h).2 (hok x h)

end Upserts

section Kinds

variable {order : MapOrder ObjectKey}

theorem keepsMeta_id {S T : Type} : KeepsMeta (fun (o _ : Object S T) => o) :=
  fun _ _ => ⟨rfl, rfl⟩

theorem keepsNewMeta_id {S T : Type} : KeepsNewMeta (fun (o : Object S T) => o) :=
  fun _ => ⟨rfl, rfl⟩

theorem upserts_deployment (st) : Upserts st order namespacedScope createOrUpdateDeployment :=
  upserts_createThenUpdate keepsNewMeta_id fun _ => keepsMeta_id

theorem upserts_daemonset (st) : Upserts st order namespacedScope createOrUpdateDaemonset :=
  upserts_createThenUpdate keepsNewMeta_id fun _ => keepsMeta_id

theorem upserts_service (st) : Upserts st order namespacedScope createOrUpdateService :=
  upserts_createThenUpdate keepsNewMeta_id fun _ => keepsMeta_id

theorem keepsMeta_updatePod (copyPod : Object PodSpec PodStatus) :
    KeepsMeta fun (pod stored : Object PodSpec PodStatus) =>
      { pod with spec := podUpdateSpec stored.spec copyPod.spec } :=
  fun _ _ => ⟨rfl, rfl⟩

theorem keepsNewMeta_createPod :
    KeepsNewMeta fun (pod : Object PodSpec PodStatus) =>
      { pod with spec := { pod.spec with serviceAccountName := "" } } :=
  fun _ => ⟨rfl, rfl⟩

/-- A pod that is not in "delete state". -/
theorem upserts_pod (st) : Upserts st order podScope (createThenUpdate podScope createPod updatePod) :=
  upserts_createThenUpdate keepsNewMeta_createPod keepsMeta_updatePod

/-- A node is an upsert too, although a new one is not updated again. -/
theorem upserts_node (st) : Upserts st order nodeScope createOrUpdateNode where
  other s o k hk := by
    cases h : s.get (nodeScope.key o.metadata) with
    | none =>
        simp only [createOrUpdateNode, Proc.run_do, Client.run_get_none h, asError, createNode,
          run_createObject keepsNewMeta_id h, Proc.run_pure]
        exact Store.get_put_of_ne _ hk _
    | some x =>
        simp only [createOrUpdateNode, Proc.run_do, Client.run_get_some h, asError]
        exact (updateObject_cases st order "node" nodeScope (fun _ => keepsMeta_id) s o).1 k hk
  newer s o x h hold := by
    simp only [createOrUpdateNode, Proc.run_do, Client.run_get_some h, asError]
    exact ((updateObject_cases st order "node" nodeScope (fun _ => keepsMeta_id) s o).2 x h).1 hold
  written s o hok := by
    cases h : s.get (nodeScope.key o.metadata) with
    | none =>
        simp only [createOrUpdateNode, Proc.run_do, Client.run_get_none h, asError, createNode,
          run_createObject keepsNewMeta_id h, Proc.run_pure]
        exact ⟨_, Store.get_put_self _ _ _, rfl⟩
    | some x =>
        simp only [createOrUpdateNode, Proc.run_do, Client.run_get_some h, asError]
        exact ((updateObject_cases st order "node" nodeScope (fun _ => keepsMeta_id) s o).2 x h).2
          (hok x h)

/-- The central pod shows the report: its labels, its status and the two fields of its spec that may
change.  The rest of the spec stays as it was when the pod was created. -/
structure PodImage (report x : Object PodSpec PodStatus) : Prop where
  labels : x.metadata.labels = report.metadata.labels
  activeDeadlineSeconds : x.spec.activeDeadlineSeconds = report.spec.activeDeadlineSeconds
  tolerations : x.spec.tolerations = report.spec.tolerations
  status : x.status = report.status

theorem podImage_of_content {report x : Object PodSpec PodStatus} {spec : PodSpec}
    (h : content x = (report.metadata.labels, podUpdateSpec spec report.spec, report.status)) :
    PodImage report x := by
  obtain ⟨hl, hs, ht⟩ : x.metadata.labels = report.metadata.labels ∧
      x.spec = podUpdateSpec spec report.spec ∧ x.status = report.status := by
    simpa [content] using h
  exact ⟨hl, by rw [hs]; rfl, by rw [hs]; rfl, ht⟩

/-- A pod whose report has a version, and is not older than what is stored, ends up as the image of
the report. -/
theorem podImage_createOrUpdatePod (st) {s : Store PodSpec PodStatus} {o : Object PodSpec PodStatus}
    (hdel : o.metadata.deletionTimestamp = none) (hv : edgeVersion o.metadata ≠ none)
    (hok : ∀ x, s.get (podScope.key o.metadata) = some x →
      checkEdgeVersion o.metadata x.metadata = true) :
    ∃ x', (Proc.run (serve st order) (createOrUpdatePod o) s).2.get (podScope.key o.metadata) =
      some x' ∧ PodImage o x' := by
  have hrun : createOrUpdatePod o = createThenUpdate podScope createPod updatePod o := by
    simp [createOrUpdatePod, hdel]
  rw [hrun]
  cases h : s.get (podScope.key o.metadata) with
  | some x =>
      obtain ⟨-, x', hx', hcontent⟩ :=
        run_updateObject_ok st order "pod" (keepsMeta_updatePod o) h (hok x h)
      rw [run_createThenUpdate_present _ _ h]
      exact ⟨x', hx', podImage_of_content hcontent⟩
  | none =>
      -- the new pod is updated from what was sent, which differs in fields the image does not show
      set sent := toCreate (fun (pod : Object PodSpec PodStatus) =>
        { pod with spec := { pod.spec with serviceAccountName := "" } }) o with hsent
      have hkey : podScope.key sent.metadata = podScope.key o.metadata :=
        key_toCreate keepsNewMeta_createPod
      have hget := s.get_put_self (podScope.key o.metadata) (created st s sent)
      rw [← hkey] at hget
      obtain ⟨-, x', hx', hcontent⟩ :=
        run_updateObject_ok st order "pod" (keepsMeta_updatePod sent) hget
          (checkEdgeVersion_self hv rfl)
      rw [createPod, run_createThenUpdate_absent keepsNewMeta_createPod _ h, ← hsent, ← hkey]
      have himage : PodImage sent x' := podImage_of_content hcontent
      exact ⟨x', hx', himage.labels, himage.activeDeadlineSeconds, himage.tolerations, himage.status⟩

/-- A delete frees the key of the object and nothing else. -/
theorem get_run_deleteObject {S T : Type} {st : Strategy T} {sc : Scope} (s : Store S T)
    (o : Object S T) (k : ObjectKey) :
    (Proc.run (serve st order) (deleteObject sc o) s).2.get k =
      if k = sc.key o.metadata then none else s.get k := by
  simp only [deleteObject, Proc.run_do, Proc.run_pure]
  exact Client.get_run_delete _ _

end Kinds

end OteStack.ControllerManager
