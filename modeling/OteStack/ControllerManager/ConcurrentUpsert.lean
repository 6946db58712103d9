/-
# OteStack.ControllerManager.ConcurrentUpsert — create-or-update among other create-or-updates.

Every message of an edge is handled in its own goroutine, so the calls of several `CreateOrUpdate…`
for one central object interleave.  An update reads, compares the versions and writes what it has
decided with the `resourceVersion` it has read; hence the edge version of a stored object never
decreases (`edgeVersion_le_of_run`), whatever the schedule.

A create carries no such version.  Two handlers that both found the object missing both create it, and
the second one is answered `AlreadyExists` and gives up, even if its report is the newer one
(`newer_report_lost`).  Where that does not happen to the newest report, the centre ends up with it
(`latest_report_survives`).
-/
import Mathlib.Order.Bounds.Basic
import OteStack.Lib.Optimistic
import OteStack.ControllerManager.Upsert

namespace OteStack.ControllerManager

open OteStack.Lib (GoMap MapOrder Proc Sessions runSteps StepsMeet)
open OteStack.Lib.KubeApi
open OteStack.Reporter (ResourceType clusterLabel edgeVersionLabel DeploymentSpec DeploymentStatus)

/-! ## The five create-or-updates as one program -/

/-- What differs between the create-or-updates of the five kinds. -/
structure Kind (S T : Type) where
  word : String
  scope : Scope
  prepareNew : Object S T → Object S T
  prepare : Object S T → Object S T → Object S T → Object S T
  updatesNew : Bool
  keepsNew : KeepsNewMeta prepareNew
  keeps : ∀ o, KeepsMeta (prepare o)

namespace Kind

variable {S T : Type} (K : Kind S T) (more : ℕ)

/-- `updateObject`, with a bound on the retries. -/
def update (o : Object S T) : Api S T (Except Error Unit) := do
  let first ← retryOnConflict (updateAttempt K.word K.scope (K.prepare o) Client.update) more o
  match first.1 with
  | .error e => pure (.error e)
  | .ok _ =>
      let second ← retryOnConflict
        (updateAttempt K.word K.scope (fun o _ => o) Client.updateStatus) more first.2
      pure second.1

/-- What a create-or-update does after `Create`. -/
def afterCreate (res : Except Error Unit × Object S T) : Api S T (Except Error Unit) :=
  if K.updatesNew then
    match res.1 with
    | .error e => pure (.error e)
    | .ok _ => K.update more res.2
  else pure res.1

/-- A create-or-update, with a bound on the retries. -/
def createOrUpdate (o : Object S T) : Api S T (Except Error Unit) := do
  let got ← Client.get (K.scope.key o.metadata)
  match asError got with
  | .error (.api .notFound) => do
      let res ← createObject K.scope K.prepareNew o
      K.afterCreate more res
  | .error e => pure (.error e)
  | .ok _ => K.update more o

end Kind

/-- The five kinds. -/
def kindOf : (t : ResourceType) → Kind t.Spec t.Status
  | .pod => ⟨"pod", podScope, fun pod => { pod with spec := { pod.spec with serviceAccountName := "" } },
      fun copyPod pod stored => { pod with spec := podUpdateSpec stored.spec copyPod.spec }, true,
      keepsNewMeta_createPod, keepsMeta_updatePod⟩
  | .node => ⟨"node", nodeScope, fun node => node, fun _ node _ => node, false, keepsNewMeta_id,
      fun _ => keepsMeta_id⟩
  | .deployment => ⟨"deployment", namespacedScope, fun deployment => deployment,
      fun _ deployment _ => deployment, true, keepsNewMeta_id, fun _ => keepsMeta_id⟩
  | .daemonset => ⟨"daemonset", namespacedScope, fun daemonset => daemonset,
      fun _ daemonset _ => daemonset, true, keepsNewMeta_id, fun _ => keepsMeta_id⟩
  | .service => ⟨"service", namespacedScope, fun service => service, fun _ service _ => service, true,
      keepsNewMeta_id, fun _ => keepsMeta_id⟩

/-- `CreateOrUpdate…` of a kind, with a bound on the retries. -/
def createOrUpdateWithin (more : ℕ) (t : ResourceType) (o : t.Obj) :
    Api t.Spec t.Status (Except Error Unit) :=
  if t = .pod ∧ o.metadata.deletionTimestamp ≠ none then deleteObject (scopeOf t) o
  else (kindOf t).createOrUpdate more o

theorem createOrUpdateWithin_defaultRetry (t : ResourceType) :
    createOrUpdateWithin defaultRetry t = createOrUpdateOf t := by
  funext o
  cases t with
  | pod =>
      by_cases h : o.metadata.deletionTimestamp = none
      · simp [createOrUpdateWithin, createOrUpdateOf, createOrUpdatePod, h]
        rfl
      · simp [createOrUpdateWithin, createOrUpdateOf, createOrUpdatePod, h]
        rfl
  | node =>
      refine congrArg (Client.get (nodeScope.key o.metadata) >>= ·) (funext fun got => ?_)
      rcases got with e | x
      · rcases e <;> rfl
      · rfl
  | deployment => rfl
  | daemonset => rfl
  | service => rfl

/-! ## Moving forward -/

section Forward

variable {S T : Type}

/-- Both have a version, and the second one is not smaller. -/
def NotOlder (x x' : Object S T) : Prop :=
  ∃ w w', edgeVersion x.metadata = some w ∧ edgeVersion x'.metadata = some w' ∧ w ≤ w'

theorem NotOlder.trans {x y z : Object S T} (h : NotOlder x y) (h' : NotOlder y z) : NotOlder x z := by
  obtain ⟨w, v, hx, hy, hle⟩ := h
  obtain ⟨v', u, hy', hz, hle'⟩ := h'
  obtain rfl : v = v' := Option.some.inj (hy.symm.trans hy')
  exact ⟨w, u, hx, hz, hle.trans hle'⟩

/-- The versions of the stored objects are among the given ones. -/
def VersionsIn (V : ObjectKey → Set (Option ℤ)) (s : Store S T) : Prop :=
  ∀ k x, s.get k = some x → edgeVersion x.metadata ∈ V k

/-- What create-or-updates do to the store: versions never decrease, and none but the given appear. -/
structure Forward (V : ObjectKey → Set (Option ℤ)) (s s' : Store S T) : Prop where
  advances : Advances NotOlder s s'
  versionsIn : VersionsIn V s → VersionsIn V s'

variable {V : ObjectKey → Set (Option ℤ)}

theorem Forward.refl (s : Store S T) : Forward V s s := ⟨.refl s, id⟩

theorem Forward.trans (s s' s'' : Store S T) (h : Forward V s s') (h' : Forward V s' s'') :
    Forward V s s'' :=
  ⟨h.advances.trans (fun _ _ _ => NotOlder.trans) h'.advances, h'.versionsIn ∘ h.versionsIn⟩

theorem edgeVersion_stamped (s : Store S T) (k : ObjectKey) (o : Object S T) :
    edgeVersion (s.stamped k o).metadata = edgeVersion o.metadata :=
  edgeVersion_congr rfl

/-- Writing an object with an admitted version that is not smaller than the stored one. -/
theorem Forward.put {s : Store S T} {k : ObjectKey} {o : Object S T} (hV : edgeVersion o.metadata ∈ V k)
    (h : ∀ x, s.get k = some x → NotOlder x o) : Forward V s (s.put k o) := by
  refine ⟨.put ?_, ?_⟩
  · intro x hx
    obtain ⟨w, w', hw, hw', hle⟩ := h x hx
    exact ⟨w, w', hw, by rw [edgeVersion_stamped]; exact hw', hle⟩
  · intro hs k' x hx
    rw [Store.get_put] at hx
    split at hx
    · rename_i hk
      obtain rfl := Option.some.inj hx
      rw [edgeVersion_stamped, hk]
      exact hV
    · exact hs k' x hx

/-- Writing, after the check, an object with the labels of the report or with those that are stored. -/
theorem Forward.put_checked {s : Store S T} {k : ObjectKey} {o x z : Object S T} (hx : s.get k = some x)
    (hok : checkEdgeVersion o.metadata x.metadata = true) (hs : VersionsIn V s)
    (hV : edgeVersion o.metadata ∈ V k)
    (hz : z.metadata.labels = o.metadata.labels ∨ z.metadata.labels = x.metadata.labels) :
    Forward V s (s.put k z) := by
  obtain ⟨v, w, hv, hw, hle⟩ := checkEdgeVersion_iff.mp hok
  have hversion : edgeVersion z.metadata = some v ∨ edgeVersion z.metadata = some w :=
    hz.imp (fun h => (edgeVersion_congr h).trans hv) fun h => (edgeVersion_congr h).trans hw
  refine .put ?_ ?_
  · rcases hversion with hzv | hzw
    · rw [hzv, ← hv]
      exact hV
    · rw [hzw, ← hw]
      exact hs k x hx
  · intro y hy
    obtain rfl : y = x := Option.some.inj (hy.symm.trans hx)
    rcases hversion with hzv | hzw
    · exact ⟨w, v, hw, hzv, hle⟩
    · exact ⟨w, w, hw, hzw, le_refl w⟩

/-- The stored object is at least as new as the report. -/
def Covers (o : Object S T) (k : ObjectKey) (s : Store S T) : Prop :=
  ∀ v, edgeVersion o.metadata = some v →
    ∃ x w, s.get k = some x ∧ edgeVersion x.metadata = some w ∧ v ≤ w

theorem Covers.mono {o : Object S T} {k : ObjectKey} (s s' : Store S T) (h : Forward V s s')
    (hc : Covers o k s) : Covers o k s' := by
  intro v hv
  obtain ⟨x, w, hx, hw, hle⟩ := hc v hv
  obtain ⟨x', hx', hsame⟩ := h.advances.object k x hx
  rcases hsame with rfl | ⟨-, w₀, w', hw₀, hw', hle'⟩
  · exact ⟨x', w, hx', hw, hle⟩
  · obtain rfl : w₀ = w := Option.some.inj (hw₀.symm.trans hw)
    exact ⟨x', w', hx', hw', hle.trans hle'⟩

theorem covers_or_mono (W : Prop) {o : Object S T} {k : ObjectKey} (s s' : Store S T)
    (h : Forward V s s') (hc : Covers o k s ∨ W) : Covers o k s' ∨ W :=
  hc.imp_left (Covers.mono s s' h)

theorem covers_of_labels {o x : Object S T} {k : ObjectKey} {s : Store S T} (hx : s.get k = some x)
    (h : x.metadata.labels = o.metadata.labels) : Covers o k s := by
  intro v hv
  exact ⟨x, v, hx, (edgeVersion_congr h).trans hv, le_refl v⟩

/-- A report that fails the check against an object with a version is covered by it. -/
theorem covers_of_refused {o x : Object S T} {k : ObjectKey} {s : Store S T} (hx : s.get k = some x)
    (hversion : edgeVersion x.metadata ≠ none)
    (h : checkEdgeVersion o.metadata x.metadata = false) : Covers o k s := by
  intro v hv
  obtain ⟨w, hw⟩ := Option.ne_none_iff_exists'.mp hversion
  refine ⟨x, w, hx, hw, ?_⟩
  by_contra hlt
  have hok := checkEdgeVersion_iff.mpr ⟨v, w, hv, hw, le_of_not_ge hlt⟩
  rw [hok] at h
  exact absurd h (by simp)

end Forward

/-! ## One handler among others -/

section Handler

variable {S T : Type} {st : Strategy T} {order : MapOrder ObjectKey} {V : ObjectKey → Set (Option ℤ)}
  {ok : Store S T → Request S T → Prop} {W : Prop} {sc : Scope} {o₀ o : Object S T} {s : Store S T}

/-- A handler of the report `o₀` holds `o`, a copy with other server metadata, of an object that is
stored. -/
structure Ready (V : ObjectKey → Set (Option ℤ)) (sc : Scope) (o₀ o : Object S T) (s : Store S T) :
    Prop where
  stamped : Stamped s
  versionsIn : VersionsIn V s
  present : ∃ x, s.get (sc.key o₀.metadata) = some x
  admitted : edgeVersion o₀.metadata ∈ V (sc.key o₀.metadata)
  key : sc.key o.metadata = sc.key o₀.metadata
  labels : o.metadata.labels = o₀.metadata.labels

theorem Ready.mono {s' : Store S T} (h : Ready V sc o₀ o s) (hf : Forward V s s') :
    Ready V sc o₀ o s' := by
  obtain ⟨x, hx⟩ := h.present
  exact ⟨hf.advances.stamped h.stamped, hf.versionsIn h.versionsIn, hf.advances.isSome hx, h.admitted,
    h.key, h.labels⟩

/-- A handler has ended because of a conflict, or its report is covered, or it need not be (`W`). -/
def Settles (W : Prop) (o : Object S T) (k : ObjectKey) (res : Except Error Unit) (s : Store S T) : Prop :=
  res = .error (.api .conflict) ∨ Covers o k s ∨ W

/-- What is sent of a copy is a copy, too. -/
theorem Ready.toSend {prepare : Object S T → Object S T → Object S T} (hp : KeepsMeta prepare)
    (h : Ready V sc o₀ o s) (x : Object S T) : Ready V sc o₀ (toSend prepare o x) s :=
  { h with
    key := by rw [← h.key, Scope.key, Scope.key, toSend_name hp, toSend_namespace hp]
    labels := by rw [toSend_labels hp, h.labels] }

/-- A report that fails the check is covered by the stored object, if that has a version. -/
theorem Ready.covers_of_refused {x : Object S T} (h : Ready V sc o₀ o s)
    (hV : W ∨ none ∉ V (sc.key o₀.metadata)) (hx : s.get (sc.key o₀.metadata) = some x)
    (hrefused : checkEdgeVersion o.metadata x.metadata = false) :
    Covers o₀ (sc.key o₀.metadata) s ∨ W := by
  rcases hV with hW | hnone
  · exact Or.inr hW
  · left
    have hversion : edgeVersion x.metadata ≠ none := by
      intro hx0
      exact hnone (hx0 ▸ h.versionsIn _ _ hx)
    intro v hv
    exact ControllerManager.covers_of_refused hx hversion hrefused v
      ((edgeVersion_congr h.labels).trans hv)

/-- A conditional write, after the check, of an object with the labels of the report. -/
theorem Ready.safe_write {p : Api S T (Except ApiError (Object S T))} {o' x : Object S T}
    {write : Object S T → Object S T} (h : Ready V sc o₀ o' s) (hx : s.get (sc.key o₀.metadata) = some x)
    (hok : checkEdgeVersion o'.metadata x.metadata = true)
    (hwrite : (write x).metadata.labels = o'.metadata.labels ∨
      W ∧ (write x).metadata.labels = x.metadata.labels)
    (hp : ConditionalWrite (serve st order) (Forward V) ok p (sc.key o₀.metadata)
      x.metadata.resourceVersion write (· = .conflict)) :
    Proc.Safe (serve st order) (Forward V) ok
      (fun res t => Ready V sc o₀ res.2 t ∧ Settles W o₀ (sc.key o₀.metadata) res.1 t)
      (p >>= fun res => pure ((asError res).map fun _ => (), o')) s := by
  refine hp.of_read Forward.advances h.stamped hx ?_ ?_
  · rintro t e ht rfl
    exact Proc.Safe.pure fun t' ht' => ⟨(h.mono ht).mono ht', Or.inl rfl⟩
  · intro t ht hxt
    have hput : Forward V t (t.put (sc.key o₀.metadata) (write x)) := by
      refine .put_checked hxt hok (h.mono ht).versionsIn ?_ (hwrite.imp_right And.right)
      rw [edgeVersion_congr h.labels]
      exact h.admitted
    refine ⟨hput, Proc.Safe.pure fun t' ht' => ⟨((h.mono ht).mono hput).mono ht', Or.inr ?_⟩⟩
    rcases hwrite with hnew | ⟨hW, -⟩
    · refine Or.inl (Covers.mono _ _ ht' (covers_of_labels (Store.get_put_self _ _ _) ?_))
      exact hnew.trans h.labels
    · exact Or.inr hW

section Phase

variable {word : String} {prepare : Object S T → Object S T → Object S T}
  {send : String → Object S T → Api S T (Except ApiError (Object S T))}
  {write : Object S T → Object S T → Object S T} (hp : KeepsMeta prepare)
  (hwrite : ∀ o x, (write o x).metadata.labels = o.metadata.labels ∨
    W ∧ (write o x).metadata.labels = x.metadata.labels)
  (hsend : ∀ ns (o : Object S T), o.metadata.resourceVersion ≠ "" →
    ConditionalWrite (serve st order) (Forward V) ok (send ns o) ⟨ns, o.metadata.name⟩
      o.metadata.resourceVersion (write o) (· = .conflict))
  (hV : W ∨ none ∉ V (sc.key o₀.metadata))
include hp hwrite hsend hV

/-- An attempt of an update replaces the object it has compared with, or leaves the store alone. -/
theorem safe_updateAttempt (h : Ready V sc o₀ o s) :
    Proc.Safe (serve st order) (Forward V) ok
      (fun res t => Ready V sc o₀ res.2 t ∧ Settles W o₀ (sc.key o₀.metadata) res.1 t)
      (updateAttempt word sc prepare send o) s := by
  refine Client.safe_get Forward.refl ?_ ?_
  · intro t ht hnone
    obtain ⟨x, hx⟩ := (h.mono ht).present
    rw [h.key, hx] at hnone
    exact absurd hnone (by simp)
  · intro t x ht hx
    have hready := h.mono ht
    have hns : sc.updateNs o.metadata.namespace x.metadata.namespace = sc.ns o.metadata.namespace :=
      sc.agree _ _ (congrArg ObjectKey.namespace (t.key_of_get hx))
    rw [h.key] at hx
    show Proc.Safe _ _ _ _ (if checkEdgeVersion o.metadata x.metadata then _ else _) t
    by_cases hok : checkEdgeVersion o.metadata x.metadata = true
    · rw [if_pos hok]
      -- what is sent has the version that was read
      have hrv : (toSend prepare o x).metadata.resourceVersion = x.metadata.resourceVersion := by
        rw [toSend, (hp _ _).1]
        rfl
      have hkey : (⟨sc.updateNs o.metadata.namespace x.metadata.namespace,
          (toSend prepare o x).metadata.name⟩ : ObjectKey) = sc.key o₀.metadata := by
        rw [hns, toSend_name hp, ← h.key, Scope.key]
      have hcw := hsend (sc.updateNs o.metadata.namespace x.metadata.namespace) (toSend prepare o x)
        (by rw [hrv]; exact hready.stamped.version_ne_empty hx)
      rw [hkey, hrv] at hcw
      have hchecked : checkEdgeVersion (toSend prepare o x).metadata x.metadata = true := by
        rw [checkEdgeVersion_iff, edgeVersion_congr (toSend_labels hp)]
        exact checkEdgeVersion_iff.mp hok
      exact (hready.toSend hp x).safe_write hx hchecked (hwrite (toSend prepare o x) x) hcw
    · rw [if_neg hok]
      refine Proc.Safe.pure fun u hu => ⟨hready.mono hu, Or.inr ?_⟩
      exact covers_or_mono W t u hu (hready.covers_of_refused hV hx (by simpa using hok))

/-- A phase of an update: attempts until there is no conflict. -/
theorem safe_phase (more : ℕ) (h : Ready V sc o₀ o s) :
    Proc.Safe (serve st order) (Forward V) ok
      (fun res t => Ready V sc o₀ res.2 t ∧ Settles W o₀ (sc.key o₀.metadata) res.1 t)
      (retryOnConflict (updateAttempt word sc prepare send) more o) s := by
  refine safe_retryOnConflict Forward.trans Forward.refl ?_ more h
  intro d t hd
  exact (safe_updateAttempt hp hwrite hsend hV hd).imp fun _ _ hres => ⟨fun _ => hres.1, hres⟩

end Phase

/-- `Kind.update` of an object that is stored. -/
theorem safe_update {K : Kind S T} (more : ℕ) (hV : W ∨ none ∉ V (K.scope.key o₀.metadata))
    (h : Ready V K.scope o₀ o s) :
    Proc.Safe (serve st order) (Forward V) ok (Settles W o₀ (K.scope.key o₀.metadata))
      (K.update more o) s := by
  have hwrite : ∀ o x : Object S T, (updated o x).metadata.labels = o.metadata.labels ∨
      W ∧ (updated o x).metadata.labels = x.metadata.labels := fun _ _ => Or.inl rfl
  refine Proc.Safe.bind Forward.refl (((safe_phase (K.keeps o) hwrite
    (fun _ _ => Client.conditionalWrite_update Forward.refl) hV more h).stable Forward.trans).imp ?_)
  rintro ⟨first, o₁⟩ t hres
  obtain ⟨hready, hsettles⟩ := hres t (Forward.refl t)
  rcases first with e | u
  · exact Proc.Safe.pure fun t' ht' => (hres t' ht').2
  · -- the status endpoint may keep the labels; the report is covered since the first phase
    have hkept : Covers o₀ (K.scope.key o₀.metadata) t ∨ W := by
      rcases hsettles with hconflict | hkept
      · exact absurd hconflict (by simp)
      · exact hkept
    have hwriteStatus : ∀ o x : Object S T, (statusUpdated st o x).metadata.labels = o.metadata.labels ∨
        True ∧ (statusUpdated st o x).metadata.labels = x.metadata.labels := by
      intro o x
      by_cases hw : st.statusWritesLabels = true
      · exact Or.inl (by simp [statusUpdated, hw])
      · exact Or.inr ⟨trivial, by simp [statusUpdated, hw]⟩
    refine Proc.Safe.bind Forward.refl ((((safe_phase keepsMeta_id hwriteStatus
      (fun _ _ => Client.conditionalWrite_updateStatus Forward.refl) (Or.inl trivial) more
      hready).frame (covers_or_mono W) hkept).stable Forward.trans).imp ?_)
    intro res t' hres'
    exact Proc.Safe.pure fun u hu => Or.inr (hres' u hu).2

/-- `createObject`: the object is new, or it is there already. -/
theorem safe_createObject {K : Kind S T} (hs : Stamped s) (hin : VersionsIn V s)
    (hadmitted : edgeVersion o.metadata ∈ V (K.scope.key o.metadata))
    (hpresent : ∀ t x, ok t (.create (K.scope.ns o.metadata.namespace) (toCreate K.prepareNew o)) →
      t.get (K.scope.key o.metadata) = some x → Covers o (K.scope.key o.metadata) t ∨ W) :
    Proc.Safe (serve st order) (Forward V) ok
      (fun res t => (res.1 = .ok () → Ready V K.scope o res.2 t) ∧
        (Covers o (K.scope.key o.metadata) t ∨ W))
      (createObject K.scope K.prepareNew o) s := by
  have hkey : (⟨K.scope.ns (toCreate K.prepareNew o).metadata.namespace,
      (toCreate K.prepareNew o).metadata.name⟩ : ObjectKey) = K.scope.key o.metadata :=
    key_toCreate K.keepsNew
  have hlabels : (toCreate K.prepareNew o).metadata.labels = o.metadata.labels :=
    toCreate_labels K.keepsNew
  show Proc.Safe _ _ _ _ (Client.create (K.scope.ns (toCreate K.prepareNew o).metadata.namespace)
    (toCreate K.prepareNew o) >>= _) s
  refine Client.safe_create Forward.refl (toCreate_resourceVersion K.keepsNew) ?_ ?_
  · -- `AlreadyExists`: another handler was faster, and this one gives up
    intro t x ht hok hx
    rw [hkey] at hx
    rw [toCreate_namespace K.keepsNew] at hok
    refine Proc.Safe.pure fun t' ht' => ⟨?_, covers_or_mono W t t' ht' (hpresent t x hok hx)⟩
    intro herr
    exact absurd herr (by simp [asError, Except.map])
  · intro t ht hnone
    rw [hkey] at hnone ⊢
    have hversion : edgeVersion (created st t (toCreate K.prepareNew o)).metadata =
        edgeVersion o.metadata := edgeVersion_congr hlabels
    have hput : Forward V t
        (t.put (K.scope.key o.metadata) (created st t (toCreate K.prepareNew o))) := by
      refine .put (hversion ▸ hadmitted) ?_
      intro x hx
      exact absurd (hnone.symm.trans hx) (by simp)
    have hforward := Forward.trans _ _ _ ht hput
    have hget := t.get_put_self (K.scope.key o.metadata) (created st t (toCreate K.prepareNew o))
    have hready : Ready V K.scope o (toCreate K.prepareNew o)
        (t.put (K.scope.key o.metadata) (created st t (toCreate K.prepareNew o))) :=
      ⟨hforward.advances.stamped hs, hforward.versionsIn hin, ⟨_, hget⟩, hadmitted, hkey, hlabels⟩
    refine ⟨hput, Proc.Safe.pure fun t' ht' => ⟨fun _ => hready.mono ht', ?_⟩⟩
    exact covers_or_mono W _ t' ht' (Or.inl (covers_of_labels hget hlabels))

/-- `Kind.createOrUpdate`. -/
theorem safe_createOrUpdate {K : Kind S T} (more : ℕ) (hV : W ∨ none ∉ V (K.scope.key o.metadata))
    (hs : Stamped s) (hin : VersionsIn V s)
    (hadmitted : edgeVersion o.metadata ∈ V (K.scope.key o.metadata))
    (hpresent : ∀ t x, ok t (.create (K.scope.ns o.metadata.namespace) (toCreate K.prepareNew o)) →
      t.get (K.scope.key o.metadata) = some x → Covers o (K.scope.key o.metadata) t ∨ W) :
    Proc.Safe (serve st order) (Forward V) ok (Settles W o (K.scope.key o.metadata))
      (K.createOrUpdate more o) s := by
  refine Client.safe_get Forward.refl ?_ ?_
  · intro t ht _
    refine Proc.Safe.bind Forward.refl (((safe_createObject (ht.advances.stamped hs)
      (ht.versionsIn hin) hadmitted hpresent).stable Forward.trans).imp ?_)
    rintro ⟨res, sent⟩ t' hres
    obtain ⟨hready, hcovers⟩ := hres t' (Forward.refl t')
    show Proc.Safe _ _ _ _ (if K.updatesNew then _ else _) t'
    by_cases hnew : K.updatesNew = true
    · rw [if_pos hnew]
      rcases res with e | u
      · exact Proc.Safe.pure fun u hu => Or.inr (hres u hu).2
      · exact safe_update more hV (hready rfl)
    · rw [if_neg hnew]
      exact Proc.Safe.pure fun u hu => Or.inr (hres u hu).2
  · intro t x ht hx
    exact safe_update more hV
      ⟨ht.advances.stamped hs, ht.versionsIn hin, ⟨x, hx⟩, hadmitted, rfl, rfl⟩

end Handler

theorem kindOf_scope (t : ResourceType) : (kindOf t).scope = scopeOf t := by
  cases t <;> rfl

/-- `CreateOrUpdate…` of a kind; a pod in "delete state" must find nothing to delete. -/
theorem safe_createOrUpdateWithin {t : ResourceType} {st : Strategy t.Status} {order : MapOrder ObjectKey}
    {V : ObjectKey → Set (Option ℤ)} {ok : Store t.Spec t.Status → Request t.Spec t.Status → Prop}
    {W : Prop} {o : t.Obj} {s : Store t.Spec t.Status} (more : ℕ)
    (hV : W ∨ none ∉ V ((scopeOf t).key o.metadata)) (hs : Stamped s) (hin : VersionsIn V s)
    (hadmitted : edgeVersion o.metadata ∈ V ((scopeOf t).key o.metadata))
    (hdelete : t = .pod → o.metadata.deletionTimestamp ≠ none →
      W ∧ ∀ u k, ok u (.delete k) → u.get k = none)
    (hpresent : ∀ (u : Store t.Spec t.Status) ns (o' x : t.Obj), ok u (.create ns o') →
      o'.metadata.labels = o.metadata.labels → u.get ⟨ns, o'.metadata.name⟩ = some x →
      (⟨ns, o'.metadata.name⟩ : ObjectKey) = (scopeOf t).key o.metadata →
      Covers o ((scopeOf t).key o.metadata) u ∨ W) :
    Proc.Safe (serve st order) (Forward V) ok (Settles W o ((scopeOf t).key o.metadata))
      (createOrUpdateWithin more t o) s := by
  unfold createOrUpdateWithin
  by_cases hdel : t = .pod ∧ o.metadata.deletionTimestamp ≠ none
  · rw [if_pos hdel]
    obtain ⟨hW, hnone⟩ := hdelete hdel.1 hdel.2
    refine Client.safe_delete Forward.refl (fun u => hnone u _) ?_
    intro u _
    exact Proc.Safe.pure fun _ _ => Or.inr (Or.inr hW)
  · rw [if_neg hdel]
    rw [← kindOf_scope t] at hV hadmitted hpresent ⊢
    refine safe_createOrUpdate more hV hs hin hadmitted ?_
    intro u x hok hx
    have hkey : (⟨(kindOf t).scope.ns o.metadata.namespace,
        (toCreate (kindOf t).prepareNew o).metadata.name⟩ : ObjectKey) =
          (kindOf t).scope.key o.metadata := by
      rw [← toCreate_namespace (kindOf t).keepsNew]
      exact key_toCreate (kindOf t).keepsNew
    exact hpresent u _ _ x hok (toCreate_labels (kindOf t).keepsNew) (by rw [hkey]; exact hx) hkey

/-! ## Versions never decrease -/

/-- A delete is only served when there is nothing to delete. -/
def DeletesNothing {S T : Type} (s : Store S T) : Request S T → Prop
  | .delete k => s.get k = none
  | _ => True

instance {S T : Type} (s : Store S T) (x : Request S T) : Decidable (DeletesNothing s x) := by
  cases x <;> unfold DeletesNothing <;> infer_instance

/-- Handlers of any reports, interleaved in any way without deleting an object: the numeric edge
version of a stored object never decreases. -/
theorem edgeVersion_le_of_run (t : ResourceType) (st : Strategy t.Status) (order : MapOrder ObjectKey)
    {s : Store t.Spec t.Status} (hs : Stamped s) (reports : List t.Obj) {is js : List ℕ}
    {w₁ w₂ : Sessions (Store t.Spec t.Status) (Request t.Spec t.Status) Request.Answer
      (Except Error Unit)}
    (hkept : StepsMeet (Sessions.step (serve st order)) (Sessions.Permits DeletesNothing)
      ⟨s, reports.map (createOrUpdateOf t)⟩ (is ++ js))
    (h₁ : runSteps (Sessions.step (serve st order)) ⟨s, reports.map (createOrUpdateOf t)⟩ is = some w₁)
    (h₂ : runSteps (Sessions.step (serve st order)) w₁ js = some w₂)
    {k : ObjectKey} {x : t.Obj} {v : ℤ} (hx : w₁.server.get k = some x)
    (hv : edgeVersion x.metadata = some v) :
    ∃ x' v', w₂.server.get k = some x' ∧ edgeVersion x'.metadata = some v' ∧ v ≤ v' := by
  have hsafe : Sessions.AllSafe (serve st order) (Forward fun _ => Set.univ) DeletesNothing
      (fun _ _ _ => True) ⟨s, reports.map (createOrUpdateOf t)⟩ := by
    -- all versions may appear and no report need be covered: only the order of versions is of interest
    intro i p hp
    rw [← createOrUpdateWithin_defaultRetry] at hp
    rw [List.getElem?_map, Option.map_eq_some_iff] at hp
    obtain ⟨o, -, rfl⟩ := hp
    refine (safe_createOrUpdateWithin (W := True) defaultRetry (Or.inl trivial) hs
      (fun _ _ _ => Set.mem_univ _) (Set.mem_univ _) ?_ ?_).imp fun _ _ _ => trivial
    · intro _ _
      exact ⟨trivial, fun _ _ hok => hok⟩
    · intro _ _ _ _ _ _ _ _
      exact Or.inr trivial
  obtain ⟨hkept₁, hkept₂⟩ := OteStack.Lib.stepsMeet_append hkept h₁
  obtain ⟨-, hsafe₁⟩ := Sessions.safe_run Forward.trans Forward.refl hsafe hkept₁ h₁
  obtain ⟨hforward, -⟩ := Sessions.safe_run Forward.trans Forward.refl hsafe₁ hkept₂ h₂
  obtain ⟨x', hx', hsame⟩ := hforward.advances.object k x hx
  rcases hsame with rfl | ⟨-, w, w', hw, hw', hle⟩
  · exact ⟨x', v, hx', hv, le_refl v⟩
  · obtain rfl : w = v := Option.some.inj (hw.symm.trans hv)
    exact ⟨x', w', hx', hw', hle⟩

/-- A report of the deployment `web` of cluster `c`. -/
def webReport (version : String) : Object DeploymentSpec DeploymentStatus where
  metadata := ⟨"web-c", "default", some (GoMap.ofList [(clusterLabel, "c"), (edgeVersionLabel, version)]),
    "", "", none⟩
  spec := ⟨"web:" ++ version, "app=web", none, 0⟩
  status := ⟨0, 0, 0, 0⟩

/-- Two reports of an object that is missing: it has version 1 when the first handler has created it, and
version 2 when both have ended. -/
theorem edgeVersion_le_two_reports :
    ∃ w₁ w₂ x x' v', runSteps (Sessions.step (serve ⟨id, true⟩ MapOrder.sorted))
        ⟨∅, [webReport "1", webReport "2"].map (createOrUpdateOf .deployment)⟩ [0, 0] = some w₁ ∧
      runSteps (Sessions.step (serve ⟨id, true⟩ MapOrder.sorted)) w₁ [1, 1, 0, 1, 0, 1, 1, 0] = some w₂ ∧
      w₁.server.get ⟨"default", "web-c"⟩ = some x ∧ edgeVersion x.metadata = some 1 ∧
      w₂.server.get ⟨"default", "web-c"⟩ = some x' ∧ edgeVersion x'.metadata = some v' ∧ 1 ≤ v' := by
  have hsome : (runSteps (Sessions.step (serve ⟨id, true⟩ MapOrder.sorted))
      ⟨∅, [webReport "1", webReport "2"].map (createOrUpdateOf .deployment)⟩ [0, 0]).isSome := by decide
  obtain ⟨w₁, h₁⟩ := Option.isSome_iff_exists.mp hsome
  have hsome' : ((runSteps (Sessions.step (serve ⟨id, true⟩ MapOrder.sorted))
      ⟨∅, [webReport "1", webReport "2"].map (createOrUpdateOf .deployment)⟩ [0, 0]).bind fun w =>
        runSteps (Sessions.step (serve ⟨id, true⟩ MapOrder.sorted)) w [1, 1, 0, 1, 0, 1, 1, 0]).isSome := by
    decide
  obtain ⟨w₂, h₂⟩ := Option.isSome_iff_exists.mp hsome'
  rw [h₁] at h₂
  have hversion : ((runSteps (Sessions.step (serve ⟨id, true⟩ MapOrder.sorted))
      ⟨∅, [webReport "1", webReport "2"].map (createOrUpdateOf .deployment)⟩ [0, 0]).bind fun w =>
        w.server.get ⟨"default", "web-c"⟩).map (fun x => edgeVersion x.metadata) = some (some 1) := by
    decide
  rw [h₁] at hversion
  obtain ⟨x, hx, hv⟩ := Option.map_eq_some_iff.mp hversion
  obtain ⟨x', v', hx', hv', hle⟩ := edgeVersion_le_of_run .deployment ⟨id, true⟩ MapOrder.sorted
    stamped_empty [webReport "1", webReport "2"] (by decide) h₁ h₂ hx hv
  exact ⟨w₁, w₂, x, x', v', h₁, h₂, hx, hv, hx', hv', hle⟩

/-! ## The newest report -/

/-- A create with the version `m` is only served when no older object is stored. -/
def CreatesLatest {S T : Type} (m : ℤ) (s : Store S T) : Request S T → Prop
  | .create ns o => edgeVersion o.metadata = some m →
      ∀ y ∈ s.get ⟨ns, o.metadata.name⟩, checkEdgeVersion y.metadata o.metadata = true
  | _ => True

instance {S T : Type} (m : ℤ) (s : Store S T) (x : Request S T) : Decidable (CreatesLatest m s x) := by
  cases x <;> unfold CreatesLatest <;> infer_instance

/-- The versions of the reports. -/
def reportedVersions {S T : Type} (reports : List (Object S T)) : Set ℤ :=
  {v | ∃ o ∈ reports, edgeVersion o.metadata = some v}

/-- The version of the stored object. -/
def storedVersion {S T : Type} (s : Store S T) (k : ObjectKey) : Set ℤ :=
  {v | ∃ x, s.get k = some x ∧ edgeVersion x.metadata = some v}

/-- The handlers of the reports of one object. -/
def handlers (more : ℕ) (t : ResourceType) (s : Store t.Spec t.Status) (reports : List t.Obj) :
    Sessions (Store t.Spec t.Status) (Request t.Spec t.Status) Request.Answer (Except Error Unit) :=
  ⟨s, reports.map (createOrUpdateWithin more t)⟩

/-- The versions that can appear under the key of the reports. -/
def possibleVersions {S T : Type} (s : Store S T) (reports : List (Object S T)) (k k' : ObjectKey) :
    Set (Option ℤ) :=
  {u | k' = k → ∃ v ∈ reportedVersions reports ∪ storedVersion s k, u = some v}

theorem versionsIn_possibleVersions {S T : Type} {s : Store S T} {reports : List (Object S T)}
    {k : ObjectKey} (h : ∀ x, s.get k = some x → edgeVersion x.metadata ≠ none) :
    VersionsIn (possibleVersions s reports k) s := by
  rintro k' x hx rfl
  obtain ⟨v, hv⟩ := Option.ne_none_iff_exists'.mp (h x hx)
  exact ⟨v, Or.inr ⟨x, hx, hv⟩, hv⟩

/-- Every handler is safe, and the one of a report with version `m` covers it unless it ends in a
conflict. -/
theorem allSafe_handlers (more : ℕ) (t : ResourceType) (st : Strategy t.Status)
    (order : MapOrder ObjectKey) {s : Store t.Spec t.Status} (hs : Stamped s) {k : ObjectKey}
    {reports : List t.Obj} (hkey : ∀ o ∈ reports, (scopeOf t).key o.metadata = k)
    (hlive : ∀ o ∈ reports, t = .pod → o.metadata.deletionTimestamp = none)
    (hreports : ∀ o ∈ reports, edgeVersion o.metadata ≠ none)
    (hinit : ∀ x, s.get k = some x → edgeVersion x.metadata ≠ none) (m : ℤ) :
    Sessions.AllSafe (serve st order) (Forward (possibleVersions s reports k)) (CreatesLatest m)
      (fun i res u => ∀ o, reports[i]? = some o → Settles (edgeVersion o.metadata ≠ some m) o k res u)
      (handlers more t s reports) := by
  intro i p hp
  rw [handlers, List.getElem?_map, Option.map_eq_some_iff] at hp
  obtain ⟨o, hi, rfl⟩ := hp
  have ho : o ∈ reports := List.mem_of_getElem? hi
  refine (safe_createOrUpdateWithin (W := edgeVersion o.metadata ≠ some m) more (Or.inr ?_) hs
    (versionsIn_possibleVersions hinit) ?_ ?_ ?_).imp ?_
  · intro hnone
    obtain ⟨v, -, hv⟩ := hnone (hkey o ho)
    exact absurd hv (by simp)
  · intro _
    obtain ⟨v, hv⟩ := Option.ne_none_iff_exists'.mp (hreports o ho)
    exact ⟨v, Or.inl ⟨o, ho, hv⟩, hv⟩
  · intro hpod hdel
    exact absurd (hlive o ho hpod) hdel
  · intro u ns o' x hok hlabels hx hkey'
    by_cases hm : edgeVersion o.metadata = some m
    · -- the create of a report with version `m` finds nothing older
      have hcheck := hok ((edgeVersion_congr hlabels).trans hm) x hx
      obtain ⟨w, v, hw, hv, hle⟩ := checkEdgeVersion_iff.mp hcheck
      refine Or.inl ?_
      intro v' hv'
      obtain rfl : v = v' :=
        Option.some.inj (hv.symm.trans ((edgeVersion_congr hlabels).trans hv'))
      exact ⟨x, w, by rw [← hkey']; exact hx, hw, hle⟩
    · exact Or.inr hm
  · intro res u hres o' ho'
    obtain rfl : o = o' := Option.some.inj (hi.symm.trans ho')
    rw [← hkey o ho]
    exact hres

/-- Reports of one object, handled concurrently, conflicts being retried until they are gone: if the
newest report is never created over an older object, then the stored object has the newest version of all. -/
theorem latest_report_survives (more : ℕ) (t : ResourceType) (st : Strategy t.Status)
    (order : MapOrder ObjectKey) {s : Store t.Spec t.Status} (hs : Stamped s) {k : ObjectKey}
    {reports : List t.Obj} (hkey : ∀ o ∈ reports, (scopeOf t).key o.metadata = k)
    (hlive : ∀ o ∈ reports, t = .pod → o.metadata.deletionTimestamp = none)
    (hreports : ∀ o ∈ reports, edgeVersion o.metadata ≠ none)
    (hinit : ∀ x, s.get k = some x → edgeVersion x.metadata ≠ none)
    {m : ℤ} (hm : IsGreatest (reportedVersions reports) m) {is : List ℕ}
    {w : Sessions (Store t.Spec t.Status) (Request t.Spec t.Status) Request.Answer (Except Error Unit)}
    (hok : StepsMeet (Sessions.step (serve st order)) (Sessions.Permits (CreatesLatest m))
      (handlers more t s reports) is)
    (hrun : runSteps (Sessions.step (serve st order)) (handlers more t s reports) is = some w)
    (hdone : ∀ a ∈ w.results, ∃ res, a = some res ∧ res ≠ .error (.api .conflict)) :
    ∃ x v, w.server.get k = some x ∧ edgeVersion x.metadata = some v ∧
      IsGreatest (reportedVersions reports ∪ storedVersion s k) v := by
  obtain ⟨hforward, hsafe⟩ := Sessions.safe_run Forward.trans Forward.refl
    (allSafe_handlers more t st order hs hkey hlive hreports hinit m) hok hrun
  -- the handler of the newest report has ended and covers it
  obtain ⟨⟨o, ho, hom⟩, hmax⟩ := hm
  obtain ⟨i, hi⟩ := List.getElem?_of_mem ho
  have hlen : w.results.length = reports.length := by
    rw [Sessions.results, List.length_map, Sessions.length_procs_run hrun, handlers, List.length_map]
  have hlt : i < w.results.length := by
    rw [hlen]
    exact (List.getElem?_eq_some_iff.mp hi).1
  obtain ⟨res, hres, hconflict⟩ := hdone _ (List.getElem_mem hlt)
  have hcovers : Covers o k w.server := by
    have hresult : w.results[i]? = some (some res) := by rw [List.getElem?_eq_getElem hlt, hres]
    rcases hsafe.result Forward.refl hresult o hi with hc | hc | hc
    · exact absurd hc hconflict
    · exact hc
    · exact absurd hom hc
  obtain ⟨x, v, hx, hv, hle⟩ := hcovers m hom
  refine ⟨x, v, hx, hv, ?_, ?_⟩
  · obtain ⟨v', hv', heq⟩ := hforward.versionsIn (versionsIn_possibleVersions hinit) k x hx rfl
    obtain rfl : v = v' := Option.some.inj (hv.symm.trans heq)
    exact hv'
  · rintro u (hu | ⟨x₀, hx₀, hu⟩)
    · exact (hmax hu).trans hle
    · obtain ⟨x', hx', hsame⟩ := hforward.advances.object k x₀ hx₀
      obtain rfl : x = x' := Option.some.inj (hx.symm.trans hx')
      rcases hsame with rfl | ⟨-, u', v', hu', hv', hle'⟩
      · exact (Option.some.inj (hu.symm.trans hv)).le
      · obtain rfl : u = u' := Option.some.inj (hu.symm.trans hu')
        obtain rfl : v = v' := Option.some.inj (hv.symm.trans hv')
        exact hle'

/-- Both handlers find the object missing, the older report is created first, and the newer one is
answered `AlreadyExists`: no handler is left, and the centre keeps version 1. -/
theorem newer_report_lost :
    ∃ w x, runSteps (Sessions.step (serve ⟨id, true⟩ MapOrder.sorted))
        ⟨∅, [webReport "1", webReport "2"].map (createOrUpdateOf .deployment)⟩
        [0, 1, 0, 1, 0, 0, 0, 0] = some w ∧
      w.results = [some (.ok ()), some (.error (.api .alreadyExists))] ∧
      w.server.get ⟨"default", "web-c"⟩ = some x ∧ edgeVersion x.metadata = some 1 := by
  have hrun : (runSteps (Sessions.step (serve ⟨id, true⟩ MapOrder.sorted))
      ⟨∅, [webReport "1", webReport "2"].map (createOrUpdateOf .deployment)⟩
      [0, 1, 0, 1, 0, 0, 0, 0]).map (fun w => (w.results,
        (w.server.get ⟨"default", "web-c"⟩).map fun x => edgeVersion x.metadata)) =
      some ([some (.ok ()), some (.error (.api .alreadyExists))], some (some 1)) := by decide
  obtain ⟨w, hw, hview⟩ := Option.map_eq_some_iff.mp hrun
  obtain ⟨hresults, hversion⟩ := Prod.mk.inj hview
  obtain ⟨x, hx, hv⟩ := Option.map_eq_some_iff.mp hversion
  exact ⟨w, x, hw, hresults, hx, hv⟩

/-- The same two reports; the second handler starts when the object is there, and the first one is
refused after a conflict. -/
theorem latest_report_survives_two_reports :
    ∃ w x v, runSteps (Sessions.step (serve ⟨id, true⟩ MapOrder.sorted))
        (handlers defaultRetry .deployment ∅ [webReport "1", webReport "2"])
        [0, 0, 1, 1, 0, 1, 0, 1, 1, 0] = some w ∧
      w.server.get ⟨"default", "web-c"⟩ = some x ∧ edgeVersion x.metadata = some v ∧
      IsGreatest (reportedVersions [webReport "1", webReport "2"] ∪
        storedVersion (∅ : Store DeploymentSpec DeploymentStatus) ⟨"default", "web-c"⟩) v := by
  have hrun : (runSteps (Sessions.step (serve ⟨id, true⟩ MapOrder.sorted))
      (handlers defaultRetry .deployment ∅ [webReport "1", webReport "2"])
      [0, 0, 1, 1, 0, 1, 0, 1, 1, 0]).map Sessions.results =
      some [some (.error (.text "check deployment edge version failed")), some (.ok ())] := by decide
  obtain ⟨w, hw, hresults⟩ := Option.map_eq_some_iff.mp hrun
  have hmem : ∀ {P : Object DeploymentSpec DeploymentStatus → Prop}, P (webReport "1") →
      P (webReport "2") → ∀ o ∈ [webReport "1", webReport "2"], P o := by
    intro P h1 h2 o ho
    rcases List.mem_pair.mp ho with rfl | rfl
    · exact h1
    · exact h2
  have hgreatest : IsGreatest (reportedVersions [webReport "1", webReport "2"]) 2 := by
    refine ⟨⟨webReport "2", by simp, by decide⟩, ?_⟩
    rintro v ⟨o, ho, hv⟩
    rcases List.mem_pair.mp ho with rfl | rfl
    · have hv1 : edgeVersion (webReport "1").metadata = some 1 := by decide
      rw [hv1] at hv
      rw [← Option.some.inj hv]
      omega
    · have hv2 : edgeVersion (webReport "2").metadata = some 2 := by decide
      rw [hv2] at hv
      rw [← Option.some.inj hv]
  obtain ⟨x, v, hx, hv, hmax⟩ := latest_report_survives defaultRetry .deployment ⟨id, true⟩
    MapOrder.sorted stamped_empty (k := ⟨"default", "web-c"⟩) (hmem rfl rfl) (hmem (by simp) (by simp))
    (hmem (by decide) (by decide)) (by simp) hgreatest (by decide) hw (by
      rw [hresults]
      intro a ha
      rcases List.mem_pair.mp ha with rfl | rfl
      · exact ⟨_, rfl, by simp⟩
      · exact ⟨_, rfl, by simp⟩)
  exact ⟨w, x, v, hw, hx, hv, hmax⟩

end OteStack.ControllerManager
