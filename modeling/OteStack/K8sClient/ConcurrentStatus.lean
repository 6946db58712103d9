/-
# OteStack.K8sClient.ConcurrentStatus — concurrent writers of one cluster status.

The handlers of register and unregister messages and of status reports run in goroutines of their own,
and each of them reads the Cluster object, compares timestamps and writes.  The comparison is made on a
copy that may be old by the time of the write.

The write carries the version of that copy: `UpdateStatus` in the object, `PatchStatus` in the patch
document, which has all of the old object's metadata in it (`reads_getPatchBytes`).  So a write goes
through only over the very object that the timestamps were compared with, and every write that goes
through makes the timestamp larger (`timestamp_lt_of_write`).
-/
import OteStack.K8sClient.ClusterCRD

namespace OteStack.K8sClient

open OteStack.Lib (Doc Proc Sessions StepsMeet runSteps stepsMeet_of_forall)
open OteStack.Lib.KubeApi

/-! ## The version a patch carries -/

/-- The patch reads as the old object with the new status laid over it. -/
theorem reads_getPatchBytes (oldcluster newcluster : Cluster) :
    Reads (getPatchBytes oldcluster newcluster) (overlay oldcluster newcluster) :=
  (reads_encodeCluster oldcluster).mergePatch (reads_encodeCluster newcluster)

/-- What the server makes of a stored object by the patch for `old` and a status. -/
def patchOutcome (old : Cluster) (status : ClusterStatus) (stored : Cluster) : Cluster :=
  normal (overlay stored (overlay old (withStatus old status)))

theorem decode_patch (old : Cluster) (status : ClusterStatus) (stored : Cluster) :
    clusterEncoding.decode
        ((clusterEncoding.encode stored).mergePatch (getPatchBytes old (withStatus old status))) =
      some (patchOutcome old status stored) :=
  decode_mergePatch (reads_getPatchBytes old (withStatus old status)) stored

/-- Whatever the patch is applied to, the outcome has the version of the object that was read. -/
theorem resourceVersion_patchOutcome {old : Cluster} (hrv : old.metadata.resourceVersion ≠ "")
    (status : ClusterStatus) (stored : Cluster) :
    (patchOutcome old status stored).metadata.resourceVersion = old.metadata.resourceVersion := by
  show overlayText _ (overlayText _ _) = _
  simp [overlayText, withStatus, hrv]

/-! ## One writer among others -/

/-- The later of two states of a cluster. -/
def Later (x x' : Cluster) : Prop := x.status.timestamp < x'.status.timestamp

theorem Later.trans (x y z : Cluster) (h : Later x y) (h' : Later y z) : Later x z := by
  unfold Later at *
  omega

/-- How the store moves: no cluster is lost, and one that changes gets a larger timestamp. -/
abbrev Moves := Advances (S := ClusterSpec) (T := ClusterStatus) Later

theorem Moves.trans (s s' s'' : Store ClusterSpec ClusterStatus) (h : Moves s s') (h' : Moves s' s'') :
    Moves s s'' :=
  Advances.trans Later.trans h h'

/-- The calls are not restricted. -/
abbrev anyCall (_ : Store ClusterSpec ClusterStatus)
    (_ : Custom.Request ClusterSpec ClusterStatus Scalar) : Prop := True

/-- A program that only moves the store forward, wherever the others have moved it. -/
abbrev Forwards (p : ClusterApi (Except Error Unit)) (s : Store ClusterSpec ClusterStatus) : Prop :=
  Proc.Safe serveClusters Moves anyCall (fun _ _ => True) p s

namespace ClusterCRD

variable {s : Store ClusterSpec ClusterStatus} {newcluster : Cluster}

/-- Both ways to write a status go on with an object that was stored when it was read, and was older. -/
theorem forwards_checked {goOn : Cluster → ClusterApi (Except Error Unit)} (hs : Stamped s)
    (hgoOn : ∀ t old, Stamped t → t.get old.metadata.key = some old →
      old.status.timestamp < newcluster.status.timestamp → Forwards (goOn old) t) :
    Forwards (checked newcluster goOn) s := by
  refine Custom.Client.safe_get Advances.refl ?_ ?_
  · intro t _ _
    exact Proc.Safe.pure fun _ _ => trivial
  · intro t old ht hold
    show Forwards (if updateClusterIsValid newcluster old then goOn old else _) t
    split
    · rename_i hvalid
      have hkey := t.key_of_get hold
      have hlt : old.status.timestamp < newcluster.status.timestamp := by
        simpa [updateClusterIsValid] using hvalid
      exact hgoOn t old (ht.stamped hs) (by rw [hkey]; exact hold) hlt
    · exact Proc.Safe.pure fun _ _ => trivial

/-- A write that carries the version of an older object that was read. -/
theorem forwards_write {p : ClusterApi (Except ApiError Cluster)} {old : Cluster} {write : Cluster → Cluster}
    (hwrite : ConditionalWrite serveClusters Moves anyCall p old.metadata.key old.metadata.resourceVersion
      write (· = .conflict))
    (hlater : old.status.timestamp < (write old).status.timestamp) (hs : Stamped s)
    (hold : s.get old.metadata.key = some old) :
    Forwards (p >>= fun res => pure ((asError res).map fun _ => ())) s := by
  refine hwrite.of_read id hs hold ?_ ?_
  · intro t e _ _
    exact Proc.Safe.pure fun _ _ => trivial
  · intro t _ ht
    refine ⟨Advances.put fun x hx => ?_, Proc.Safe.pure fun _ _ => trivial⟩
    obtain rfl : x = old := Option.some.inj (hx.symm.trans ht)
    exact hlater

theorem forwards_updateAttempt (hs : Stamped s) : Forwards (updateAttempt newcluster) s := by
  refine forwards_checked hs ?_
  intro t old ht hold hlt
  have hrv : old.metadata.resourceVersion ≠ "" := ht.version_ne_empty hold
  have hwrite : ConditionalWrite serveClusters Moves anyCall
      (Custom.Client.update old.metadata.namespace (withStatus old newcluster.status)) old.metadata.key
      old.metadata.resourceVersion (Custom.rewritten (withStatus old newcluster.status)) (· = .conflict) :=
    Custom.Client.conditionalWrite_update Advances.refl hrv
  exact forwards_write hwrite hlt ht hold

theorem forwards_updateStatus (hs : Stamped s) : Forwards (updateStatus newcluster) s :=
  Custom.safe_retryOnConflict Advances.refl (fun _ _ h hs => h.stamped hs)
    (fun _ => forwards_updateAttempt) defaultRetry hs

theorem forwards_patchStatus (hs : Stamped s) : Forwards (patchStatus newcluster) s := by
  refine forwards_checked hs ?_
  intro t old ht hold hlt
  have hrv := ht.version_ne_empty hold
  exact forwards_write
    (Custom.Client.conditionalWrite_patch Advances.refl (decode_patch old newcluster.status)
      (resourceVersion_patchOutcome hrv newcluster.status) hrv) hlt ht hold

end ClusterCRD

/-! ## All writers together -/

/-- A call of one of the two ways to write a status. -/
inductive StatusCall where
  | updateStatus (newcluster : Cluster)
  | patchStatus (newcluster : Cluster)

/-- The program of a call. -/
def StatusCall.program : StatusCall → ClusterApi (Except Error Unit)
  | updateStatus newcluster => ClusterCRD.updateStatus newcluster
  | patchStatus newcluster => ClusterCRD.patchStatus newcluster

/-- Writers of cluster status at work. -/
abbrev StatusSessions := Sessions (Store ClusterSpec ClusterStatus)
  (Custom.Request ClusterSpec ClusterStatus Scalar) (fun _ => Except ApiError Cluster) (Except Error Unit)

/-- Writers that start on a store. -/
def statusWriters (s : Store ClusterSpec ClusterStatus) (calls : List StatusCall) : StatusSessions :=
  ⟨s, calls.map StatusCall.program⟩

theorem allSafe_statusWriters {s : Store ClusterSpec ClusterStatus} (hs : Stamped s)
    (calls : List StatusCall) :
    Sessions.AllSafe serveClusters Moves anyCall (fun _ _ _ => True) (statusWriters s calls) := by
  intro i p hp
  rw [statusWriters, List.getElem?_map, Option.map_eq_some_iff] at hp
  obtain ⟨call, -, rfl⟩ := hp
  cases call with
  | updateStatus newcluster => exact ClusterCRD.forwards_updateStatus hs
  | patchStatus newcluster => exact ClusterCRD.forwards_patchStatus hs

/-- In every run of the writers the store moves forward, and so it does in the next step. -/
theorem moves_of_run {s : Store ClusterSpec ClusterStatus} (hs : Stamped s) {calls : List StatusCall}
    {is : List ℕ} {w : StatusSessions}
    (hrun : runSteps (Sessions.step serveClusters) (statusWriters s calls) is = some w) :
    Moves s w.server ∧ ∀ i w', Sessions.step serveClusters w i = some w' → Moves w.server w'.server := by
  have hpermits : ∀ (v : StatusSessions) (i : ℕ), Sessions.Permits anyCall v i := by
    intro v i
    unfold Sessions.Permits
    split <;> trivial
  obtain ⟨hmoved, hsafe⟩ := Sessions.safe_run Moves.trans Advances.refl
    (allSafe_statusWriters hs calls) (stepsMeet_of_forall (fun i _ v => hpermits v i) _) hrun
  refine ⟨hmoved, ?_⟩
  intro i w' hstep
  exact (hsafe.step Moves.trans Advances.refl (hpermits w i) hstep).1

/-- The stored timestamp never goes back.  In every interleaving of the calls of any number of writers,
every cluster that was there is still there with a timestamp that is not smaller, and the next write that
goes through replaces a stored object with a smaller timestamp. -/
theorem timestamp_lt_of_write {s : Store ClusterSpec ClusterStatus} (hs : Stamped s)
    (calls : List StatusCall) {is : List ℕ} {w : StatusSessions}
    (hrun : runSteps (Sessions.step serveClusters) (statusWriters s calls) is = some w) :
    (∀ k x, s.get k = some x →
      ∃ x', w.server.get k = some x' ∧ x.status.timestamp ≤ x'.status.timestamp) ∧
    ∀ (i : ℕ) request goOn k x' t, w.procs[i]? = some (Proc.call request goOn) →
      request.target = some k → serveClusters w.server request = (.ok x', t) →
      ∃ x, w.server.get k = some x ∧ t.get k = some x' ∧ x.status.timestamp < x'.status.timestamp := by
  obtain ⟨hmoved, hnext⟩ := moves_of_run hs hrun
  constructor
  · intro k x hx
    obtain ⟨x', hx', hsame⟩ := hmoved.object k x hx
    refine ⟨x', hx', ?_⟩
    rcases hsame with rfl | ⟨-, hlater⟩
    · exact le_refl _
    · exact le_of_lt hlater
  · intro i request goOn k x' t hi htarget hserve
    obtain ⟨⟨x, hx⟩, hx', hrv⟩ := Custom.get_of_serve_ok htarget hserve
    have hstep : Sessions.step serveClusters w i = some ⟨t, w.procs.set i (goOn (.ok x'))⟩ := by
      rw [Sessions.step, hi]
      simp only [hserve]
    obtain ⟨y, hy, hsame⟩ := (hnext i _ hstep).object k x hx
    obtain rfl : y = x' := Option.some.inj (hy.symm.trans hx')
    refine ⟨x, hx, hx', ?_⟩
    rcases hsame with rfl | ⟨-, hlater⟩
    · -- an object that is still the same would have a version that was given out before
      obtain ⟨n, hn, hold⟩ := (hmoved.stamped hs) k y hx
      have := toString_nat_inj (hold.symm.trans hrv)
      omega
    · exact hlater

/-- A cluster `c1` with a status and a timestamp. -/
def statusOfC1 (status : String) (timestamp : Int) : Cluster where
  metadata := ⟨"c1", clusterNamespace, none, "", "", none⟩
  spec := ⟨"edge"⟩
  status := ⟨"", "", status, timestamp, ∅, ∅⟩

/-- A store that has the cluster `c1` with timestamp 3. -/
def storeOfC1 : Store ClusterSpec ClusterStatus :=
  (∅ : Store ClusterSpec ClusterStatus).put ⟨clusterNamespace, "c1"⟩ (statusOfC1 clusterStatusOffline 3)

/-- Two writers have read the same object; the patch of the first one goes through. -/
theorem timestamp_lt_of_patch :
    ∃ w request goOn x x' t, runSteps (Sessions.step serveClusters) (statusWriters storeOfC1
        [.patchStatus (statusOfC1 clusterStatusOnline 5), .updateStatus (statusOfC1 clusterStatusOffline 7)])
        [0, 1] = some w ∧
      w.procs[0]? = some (Proc.call request goOn) ∧ serveClusters w.server request = (.ok x', t) ∧
      w.server.get ⟨clusterNamespace, "c1"⟩ = some x ∧ t.get ⟨clusterNamespace, "c1"⟩ = some x' ∧
      x.status.timestamp < x'.status.timestamp := by
  obtain ⟨w, request, goOn, x', t, hrun, hnext, htarget, hserve⟩ : ∃ w request goOn x' t,
      runSteps (Sessions.step serveClusters) (statusWriters storeOfC1
        [.patchStatus (statusOfC1 clusterStatusOnline 5), .updateStatus (statusOfC1 clusterStatusOffline 7)])
        [0, 1] = some w ∧
      w.procs[0]? = some (Proc.call request goOn) ∧
      request.target = some ⟨clusterNamespace, "c1"⟩ ∧ serveClusters w.server request = (.ok x', t) :=
    ⟨_, _, _, _, _, rfl, rfl, rfl, rfl⟩
  obtain ⟨x, hx, hx', hlt⟩ := (timestamp_lt_of_write (stamped_empty.put _ _) _ hrun).2 0 request goOn _ x' t
    hnext htarget hserve
  exact ⟨w, request, goOn, x, x', t, hrun, hnext, hserve, hx, hx', hlt⟩

end OteStack.K8sClient
