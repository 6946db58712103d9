/-
# OteStack.ControllerManager.Convergence — one object's reports, handled in any order.

The node, deployment, daemonset and service reporters send a message for every step in the life of an
object.  Every message travels and is handled in a goroutine of its own, so the centre may handle them
in any order.  The version check makes an update ignore what is newer; a delete is not checked, and
nothing remembers it.

Seen through the version it shows, the central object is a `VersionRegister` (`shows_processMessage`,
`shows_processMessages`): updates write, deletes reset.  `converges_iff` reads off for which orders the
centre ends up with what the edge has.
-/
import OteStack.Lib.VersionRegister
import OteStack.ControllerManager.Isolation

namespace OteStack.ControllerManager

open OteStack.Lib (GoMap MapOrder Proc VersionOp)
open OteStack.Lib.KubeApi
open OteStack.Lib.GoStrings (atoi)
open OteStack.Reporter (clusterLabel edgeVersionLabel ResourceType ResourceStatus ReporterContext
  reported reported_labels reported_name reported_namespace sendUpdate sendDelete)

/-! ## The life of an object -/

/-- A step in the life of an object at the edge, with the object as the informer delivers it. -/
inductive EdgeStep (t : ResourceType) where
  | create (o : t.Obj)
  | update (o : t.Obj)
  | delete (o : t.Obj)

namespace EdgeStep

variable {t : ResourceType}

/-- The object of a step. -/
def obj : EdgeStep t → t.Obj
  | .create o => o
  | .update o => o
  | .delete o => o

/-- The step ends the life of the object. -/
def isDelete : EdgeStep t → Bool
  | .delete _ => true
  | _ => false

/-- The resource version of a step as a number. -/
def version (x : EdgeStep t) : ℤ := (atoi x.obj.metadata.resourceVersion).getD 0

/-- The message the reporter of the kind sends for a step. -/
def message (ctx : ReporterContext) : EdgeStep t → ResourceStatus t.Spec t.Status
  | .create o => sendUpdate t ctx o
  | .update o => sendUpdate t ctx o
  | .delete o => sendDelete t ctx o

/-- A step as an operation on the version at the centre. -/
def op (x : EdgeStep t) : VersionOp ℤ := if x.isDelete then .reset else .write x.version

/-- Objects are created when there is none, and changed or deleted when there is one. -/
def Follows : Bool → List (EdgeStep t) → Prop
  | _, [] => True
  | false, .create _ :: l => Follows true l
  | true, .update _ :: l => Follows true l
  | true, .delete _ :: l => Follows false l
  | _, _ => False

/-- Whether the object exists after the steps. -/
def existsAfter (l : List (EdgeStep t)) : Bool :=
  match l.getLast? with
  | some x => !x.isDelete
  | none => false

end EdgeStep

/-- The history of one edge object: steps under one name that follow each other, with strictly
increasing resource versions. -/
structure History (t : ResourceType) where
  steps : List (EdgeStep t)
  key : ObjectKey
  follows : EdgeStep.Follows false steps
  named : ∀ x ∈ steps, x.obj.metadata.key = key
  numbered : ∀ x ∈ steps, atoi x.obj.metadata.resourceVersion ≠ none
  increasing : steps.Pairwise fun x y => x.version < y.version

/-- Where the centre keeps an object of the cluster. -/
def centralKey (t : ResourceType) (c : String) (k : ObjectKey) : ObjectKey :=
  ⟨(scopeOf t).ns k.namespace, uniqueFullResourceName k.name c⟩

/-- Handling the message of one step. -/
def processMessage {t : ResourceType} (st : (t : ResourceType) → Strategy t.Status)
    (order : MapOrder ObjectKey) (ctx : ReporterContext) (center : Center)
    (m : MapOrder String × EdgeStep t) : Center :=
  processEdgeReport st order ctx.clusterName center [(m.1, .resource t (some (m.2.message ctx)))]

/-! ## The centre as a register of versions -/

section Register

variable {t : ResourceType} {st : (t : ResourceType) → Strategy t.Status}
  {order : MapOrder ObjectKey} {ctx : ReporterContext} {center : Center}

/-- The object under the key shows the version `a`; `none` when there is no object. -/
def Shows (s : Store t.Spec t.Status) (k : ObjectKey) (a : Option ℤ) : Prop :=
  (s.get k).map (fun o => edgeVersion o.metadata) = a.map some

/-- The kinds whose changes are reported one by one. -/
theorem upserts_createOrUpdateOf (ht : t ≠ .pod) (st : Strategy t.Status) :
    Upserts st order (scopeOf t) (createOrUpdateOf t) := by
  cases t with
  | pod => exact absurd rfl ht
  | node => exact upserts_node st
  | deployment => exact upserts_deployment st
  | daemonset => exact upserts_daemonset st
  | service => exact upserts_service st

/-- A map with one entry is ranged over once. -/
theorem entries_singleton (it : MapOrder String) (key : String) (o : t.Obj) :
    entries it (some (GoMap.ofList [(key, o)])) = [o] := by
  have horder : it.order (GoMap.ofList [(key, o)]) = [key] := it.order_set_empty key o
  have hget : (GoMap.ofList [(key, o)]).get key = some o := GoMap.get_set_self ∅ key o
  simp [entries, horder, hget]

theorem edgeVersion_reported (c : String) (o : t.Obj) :
    edgeVersion (central c (reported t ctx o)).metadata = atoi o.metadata.resourceVersion := by
  rw [edgeVersion]
  have hlabel : (central c (reported t ctx o)).metadata.label edgeVersionLabel =
      (Reporter.addLabelToResource ctx o.metadata).label edgeVersionLabel := by
    rw [ObjectMeta.label, ObjectMeta.label]
    exact congrArg (fun l => ((l.bind fun l => GoMap.get l edgeVersionLabel).getD ""))
      (reported_labels t ctx o)
  rw [hlabel, Reporter.addLabelToResource_version]

theorem key_central_reported (c : String) (o : t.Obj) :
    (scopeOf t).key (central c (reported t ctx o)).metadata = centralKey t c o.metadata.key := by
  simp [Scope.key, central, centralKey, ObjectMeta.key]

/-- Handling the report of one changed object is one create-or-update. -/
theorem run_sendUpdate (st : Strategy t.Status) (hc : ctx.clusterName ≠ "") (it : MapOrder String)
    (o : t.Obj) (s : Store t.Spec t.Status) :
    (Proc.run (serve st order) (handleReportOf t it ctx.clusterName (sendUpdate t ctx o)) s).2 =
      (Proc.run (serve st order)
        (createOrUpdateOf t (central ctx.clusterName (reported t ctx o))) s).2 := by
  rw [run_handleReportOf
    (fun o' ho => by rw [updates_sendUpdate.mp ho]; exact labelledWith_reported)
    fun o' ho => absurd ho not_deletes_sendUpdate]
  simp [sendUpdate, listWrites, mapWrites, hc, entries_singleton, updateWrite]

/-- Handling the report of one deleted object is one delete. -/
theorem run_sendDelete (st : Strategy t.Status) (hc : ctx.clusterName ≠ "") (it : MapOrder String)
    (o : t.Obj) (s : Store t.Spec t.Status) :
    (Proc.run (serve st order) (handleReportOf t it ctx.clusterName (sendDelete t ctx o)) s).2 =
      (Proc.run (serve st order)
        (deleteObject (scopeOf t) (central ctx.clusterName (reported t ctx o))) s).2 := by
  rw [run_handleReportOf (fun o' ho => absurd ho not_updates_sendDelete)
    fun o' ho => by rw [deletes_sendDelete.mp ho]; exact labelledWith_reported]
  simp [sendDelete, listWrites, mapWrites, hc, entries_singleton, deleteWrite]

/-- An update writes its version. -/
theorem shows_sendUpdate (ht : t ≠ .pod) (st : Strategy t.Status) (hc : ctx.clusterName ≠ "")
    (it : MapOrder String) {o : t.Obj} {v : ℤ} (hv : atoi o.metadata.resourceVersion = some v)
    {s : Store t.Spec t.Status} {a : Option ℤ}
    (h : Shows s (centralKey t ctx.clusterName o.metadata.key) a) :
    Shows (Proc.run (serve st order) (handleReportOf t it ctx.clusterName (sendUpdate t ctx o)) s).2
      (centralKey t ctx.clusterName o.metadata.key) (VersionOp.apply a (.write v)) := by
  have hup : Upserts st order (scopeOf t) (createOrUpdateOf t) := upserts_createOrUpdateOf ht st
  set r := central ctx.clusterName (reported t ctx o) with hr
  have hkey : (scopeOf t).key r.metadata = centralKey t ctx.clusterName o.metadata.key :=
    key_central_reported ctx.clusterName o
  have hrv : edgeVersion r.metadata = some v := (edgeVersion_reported ctx.clusterName o).trans hv
  rw [run_sendUpdate st hc, Shows, ← hkey]
  rw [Shows, ← hkey] at h
  -- a written object has the labels of the report, so it shows its version
  have hwritten : (∀ x, s.get ((scopeOf t).key r.metadata) = some x →
      checkEdgeVersion r.metadata x.metadata = true) →
      ((Proc.run (serve st order) (createOrUpdateOf t r) s).2.get ((scopeOf t).key r.metadata)).map
        (fun o => edgeVersion o.metadata) = some (some v) := by
    intro hok
    obtain ⟨x', hx', hlabels⟩ := hup.written s r hok
    rw [hx', Option.map_some, edgeVersion_congr hlabels, hrv]
  cases hx : s.get ((scopeOf t).key r.metadata) with
  | none =>
      obtain rfl : a = none := by
        cases a with
        | none => rfl
        | some w => simp [hx] at h
      exact hwritten fun x hx' => absurd (hx.symm.trans hx') (by simp)
  | some x =>
      obtain ⟨w, rfl, hw⟩ : ∃ w, a = some w ∧ edgeVersion x.metadata = some w := by
        cases a with
        | none => simp [hx] at h
        | some w => exact ⟨w, rfl, by simpa [hx] using h⟩
      show _ = some (some (max w v))
      rcases le_or_gt w v with hle | hlt
      · rw [max_eq_right hle]
        apply hwritten
        intro x' hx'
        obtain rfl : x = x' := Option.some.inj (hx.symm.trans hx')
        exact checkEdgeVersion_iff.mpr ⟨v, w, hrv, hw, hle⟩
      · have hold : checkEdgeVersion r.metadata x.metadata = false := by
          rw [Bool.eq_false_iff, Ne, checkEdgeVersion_iff]
          rintro ⟨v', w', hv', hw', hle⟩
          obtain rfl : v = v' := Option.some.inj (hrv.symm.trans hv')
          obtain rfl : w = w' := Option.some.inj (hw.symm.trans hw')
          omega
        rw [hup.newer s r x hx hold, Option.map_some, hw, max_eq_left hlt.le]

/-- A delete resets. -/
theorem shows_sendDelete (st : Strategy t.Status) (hc : ctx.clusterName ≠ "")
    (it : MapOrder String) (o : t.Obj) (s : Store t.Spec t.Status) :
    Shows (Proc.run (serve st order) (handleReportOf t it ctx.clusterName (sendDelete t ctx o)) s).2
      (centralKey t ctx.clusterName o.metadata.key) none := by
  rw [run_sendDelete st hc, Shows, get_run_deleteObject, key_central_reported, if_pos rfl]
  rfl

/-- Handling the message of a step is the step's operation on the version. -/
theorem shows_processMessage (ht : t ≠ .pod) (hc : ctx.clusterName ≠ "") {x : EdgeStep t}
    (hx : atoi x.obj.metadata.resourceVersion ≠ none) (it : MapOrder String) {a : Option ℤ}
    (h : Shows (center t) (centralKey t ctx.clusterName x.obj.metadata.key) a) :
    Shows (processMessage st order ctx center (it, x) t)
      (centralKey t ctx.clusterName x.obj.metadata.key) (VersionOp.apply a x.op) := by
  have hself : processMessage st order ctx center (it, x) t =
      (Proc.run (serve (st t) order) (handleReportOf t it ctx.clusterName (x.message ctx))
        (center t)).2 := Function.update_self t _ center
  obtain ⟨v, hv⟩ := Option.ne_none_iff_exists'.mp hx
  have hver : x.version = v := by rw [EdgeStep.version, hv, Option.getD_some]
  rw [hself, EdgeStep.op, hver]
  cases x with
  | create o => exact shows_sendUpdate ht (st t) hc it hv h
  | update o => exact shows_sendUpdate ht (st t) hc it hv h
  | delete o =>
      have hreset : VersionOp.apply a .reset = none := by cases a <;> rfl
      show Shows _ _ (VersionOp.apply a .reset)
      rw [hreset]
      exact shows_sendDelete (st t) hc it o (center t)

/-- Handling messages about one object is the run of their operations. -/
theorem shows_processMessages (ht : t ≠ .pod) (hc : ctx.clusterName ≠ "") {k : ObjectKey} :
    ∀ {msgs : List (MapOrder String × EdgeStep t)} {center : Center} {a : Option ℤ},
      (∀ m ∈ msgs, m.2.obj.metadata.key = k ∧ atoi m.2.obj.metadata.resourceVersion ≠ none) →
      Shows (center t) (centralKey t ctx.clusterName k) a →
      Shows (msgs.foldl (processMessage st order ctx) center t) (centralKey t ctx.clusterName k)
        ((msgs.map fun m => m.2.op).foldl VersionOp.apply a)
  | [], _, _, _, h => h
  | m :: msgs, center, a, hm, h => by
      obtain ⟨rfl, hv⟩ := hm m (by simp)
      rw [List.foldl_cons, List.map_cons, List.foldl_cons]
      exact shows_processMessages ht hc (fun m' hm' => hm m' (List.mem_cons_of_mem m hm'))
        (shows_processMessage ht hc hv m.1 h)

end Register

/-! ## Convergence -/

/-- The central object is what the history says: present iff it exists at the end, and then at its
last version. -/
def Converged {t : ResourceType} (h : History t) (s : Store t.Spec t.Status) (k : ObjectKey) : Prop :=
  (s.get k ≠ none ↔ EdgeStep.existsAfter h.steps = true) ∧
    ∀ o, s.get k = some o → ∀ x, h.steps.getLast? = some x → edgeVersion o.metadata = some x.version

/-- The order of handling does no harm: the last step of the history, if the object exists after it,
is handled after every delete; otherwise a delete is handled last. -/
def DeletesSettled {t : ResourceType} (steps handled : List (EdgeStep t)) : Prop :=
  if EdgeStep.existsAfter steps = true then
    ∃ x pre post, steps.getLast? = some x ∧ handled = pre ++ x :: post ∧
      ∀ y ∈ post, y.isDelete = false
  else ∀ y, handled.getLast? = some y → y.isDelete = true

section Converges

variable {t : ResourceType}

theorem shows_none {s : Store t.Spec t.Status} {k : ObjectKey} {a : Option ℤ} (h : Shows s k a) :
    s.get k = none ↔ a = none := by
  rw [Shows] at h
  cases hs : s.get k with
  | none => cases a <;> simp_all
  | some o => cases a <;> simp_all

theorem shows_some {s : Store t.Spec t.Status} {k : ObjectKey} {a : Option ℤ} (h : Shows s k a)
    {o : t.Obj} (ho : s.get k = some o) : edgeVersion o.metadata = a := by
  rw [Shows, ho] at h
  cases a with
  | none => cases h
  | some v => exact Option.some.inj h

theorem op_eq_reset {x : EdgeStep t} : x.op = .reset ↔ x.isDelete = true := by
  unfold EdgeStep.op
  cases x.isDelete <;> simp

theorem op_eq_write {x : EdgeStep t} {v : ℤ} :
    x.op = .write v ↔ x.isDelete = false ∧ x.version = v := by
  unfold EdgeStep.op
  cases x.isDelete <;> simp

/-- The last step has the highest version. -/
theorem History.version_le_last (h : History t) {x y : EdgeStep t}
    (hx : h.steps.getLast? = some x) (hy : y ∈ h.steps) : y.version ≤ x.version := by
  obtain ⟨l, hl⟩ := List.getLast?_eq_some_iff.mp hx
  have hinc := h.increasing
  rw [hl, List.pairwise_append] at hinc
  rw [hl, List.mem_append, List.mem_singleton] at hy
  rcases hy with hy | rfl
  · exact (hinc.2.2 y hy x (by simp)).le
  · exact le_rfl

/-- No two steps have the same version. -/
theorem History.eq_of_version (h : History t) {x y : EdgeStep t} (hx : x ∈ h.steps)
    (hy : y ∈ h.steps) (hv : x.version = y.version) : x = y := by
  have hnodup : (h.steps.map EdgeStep.version).Nodup :=
    List.pairwise_map.mpr (h.increasing.imp fun hlt => hlt.ne)
  exact List.inj_on_of_nodup_map hnodup hx hy hv

/-- The highest version is held at the end exactly when the last step is handled after every
delete. -/
theorem run_ops_eq_last_iff (h : History t) {handled : List (EdgeStep t)}
    (hperm : handled.Perm h.steps) {x : EdgeStep t} (hx : h.steps.getLast? = some x)
    (hlive : x.isDelete = false) :
    VersionOp.run (handled.map EdgeStep.op) = some x.version ↔
      ∃ pre post, handled = pre ++ x :: post ∧ ∀ y ∈ post, y.isDelete = false := by
  have hmax : ∀ w, .write w ∈ handled.map EdgeStep.op → w ≤ x.version := by
    intro w hw
    obtain ⟨y, hy, hyw⟩ := List.mem_map.mp hw
    rw [← (op_eq_write.mp hyw).2]
    exact h.version_le_last hx (hperm.mem_iff.mp hy)
  rw [VersionOp.run_eq_highest_iff hmax]
  constructor
  · rintro ⟨pre, post, hops, hpost⟩
    obtain ⟨pre', rest, rfl, rfl, hrest⟩ := List.map_eq_append_iff.mp hops
    obtain ⟨y, post', rfl, hy, rfl⟩ := List.map_eq_cons_iff.mp hrest
    -- no other step has the version of the last one
    have hyx : y = x := h.eq_of_version (hperm.mem_iff.mp (by simp))
      (List.mem_of_getLast? hx) (op_eq_write.mp hy).2
    refine ⟨pre', post', by rw [hyx], ?_⟩
    intro z hz
    rw [← Bool.not_eq_true, ← op_eq_reset]
    intro hreset
    exact hpost (hreset ▸ List.mem_map_of_mem hz)
  · rintro ⟨pre, post, rfl, hpost⟩
    refine ⟨pre.map EdgeStep.op, post.map EdgeStep.op, ?_, ?_⟩
    · rw [List.map_append, List.map_cons, op_eq_write.mpr ⟨hlive, rfl⟩]
    · intro hreset
      obtain ⟨y, hy, hyop⟩ := List.mem_map.mp hreset
      rw [op_eq_reset, hpost y hy] at hyop
      cases hyop

/-- Nothing is held at the end exactly when a delete is handled last. -/
theorem run_ops_eq_none_iff (handled : List (EdgeStep t)) :
    VersionOp.run (handled.map EdgeStep.op) = none ↔
      ∀ y, handled.getLast? = some y → y.isDelete = true := by
  rw [VersionOp.run_eq_none_iff, List.getLast?_map]
  constructor
  · intro hall y hy
    exact op_eq_reset.mp (hall y.op (by rw [hy, Option.map_some]))
  · intro hall op hop
    obtain ⟨y, hy, rfl⟩ := Option.map_eq_some_iff.mp hop
    exact op_eq_reset.mpr (hall y hy)

end Converges

/-- Handled one at a time in any order, the messages of a history leave the centre with what the edge
has, if and only if the order settles the deletes. -/
theorem converges_iff {t : ResourceType} (ht : t ≠ .pod)
    (st : (t : ResourceType) → Strategy t.Status) (order : MapOrder ObjectKey)
    {ctx : ReporterContext} (hc : ctx.clusterName ≠ "") (h : History t)
    {msgs : List (MapOrder String × EdgeStep t)} (hperm : (msgs.map Prod.snd).Perm h.steps)
    {center : Center} (habsent : (center t).get (centralKey t ctx.clusterName h.key) = none) :
    Converged h (msgs.foldl (processMessage st order ctx) center t)
        (centralKey t ctx.clusterName h.key) ↔
      DeletesSettled h.steps (msgs.map Prod.snd) := by
  have hshows : Shows (msgs.foldl (processMessage st order ctx) center t)
      (centralKey t ctx.clusterName h.key) (VersionOp.run ((msgs.map Prod.snd).map EdgeStep.op)) := by
    rw [List.map_map]
    refine shows_processMessages ht hc ?_ (by rw [Shows, habsent]; rfl)
    intro m hm
    have hmem : m.2 ∈ h.steps := hperm.mem_iff.mp (List.mem_map_of_mem hm)
    exact ⟨h.named _ hmem, h.numbered _ hmem⟩
  cases hex : EdgeStep.existsAfter h.steps with
  | false =>
      -- the object is gone at the end
      rw [DeletesSettled, if_neg (by simp [hex]), ← run_ops_eq_none_iff, ← shows_none hshows,
        Converged, hex]
      constructor
      · rintro ⟨hpresent, -⟩
        simpa using hpresent
      · intro hnone
        exact ⟨by simp [hnone], fun o ho => absurd (hnone.symm.trans ho) (by simp)⟩
  | true =>
      obtain ⟨x, hx, hlive⟩ : ∃ x, h.steps.getLast? = some x ∧ x.isDelete = false := by
        unfold EdgeStep.existsAfter at hex
        split at hex
        · exact ⟨_, ‹_›, by simpa using hex⟩
        · cases hex
      have hsettled : DeletesSettled h.steps (msgs.map Prod.snd) ↔
          VersionOp.run ((msgs.map Prod.snd).map EdgeStep.op) = some x.version := by
        rw [run_ops_eq_last_iff h hperm hx hlive, DeletesSettled, if_pos hex, hx]
        simp
      rw [hsettled, Converged, hex, hx]
      constructor
      · rintro ⟨hpresent, hversion⟩
        obtain ⟨o, ho⟩ := Option.ne_none_iff_exists'.mp (hpresent.mpr rfl)
        rw [← shows_some hshows ho]
        exact hversion o ho x rfl
      · intro hrun
        rw [hrun] at hshows
        refine ⟨iff_of_true ?_ rfl, ?_⟩
        · rw [Ne, shows_none hshows]
          simp
        · rintro o ho y ⟨⟩
          exact shows_some hshows ho

/-- The deployment `web`, created and deleted. -/
def webHistory : History .deployment where
  steps := [.create (edgeDeployment "web" "1"), .delete (edgeDeployment "web" "2")]
  key := ⟨"default", "web"⟩
  follows := trivial
  named := by simp [EdgeStep.obj, edgeDeployment, ObjectMeta.key]
  numbered := by
    intro x hx
    rcases List.mem_pair.mp hx with rfl | rfl
    · decide
    · decide
  increasing := by
    rw [List.pairwise_pair]
    decide

/-- The delete overtakes the create, and the centre keeps a deployment that no longer exists. -/
theorem overtaken_create_stays :
    let msgs := [((MapOrder.sorted : MapOrder String), EdgeStep.delete (edgeDeployment "web" "2")),
      (MapOrder.sorted, EdgeStep.create (edgeDeployment "web" "1"))]
    (msgs.map Prod.snd).Perm webHistory.steps ∧
      ¬ Converged webHistory (msgs.foldl (processMessage plainStrategy MapOrder.sorted ⟨"c", false⟩)
        (fun _ => ∅) .deployment) (centralKey .deployment "c" webHistory.key) := by
  refine ⟨List.Perm.swap _ _ _, ?_⟩
  rintro ⟨hpresent, -⟩
  have hgone : EdgeStep.existsAfter webHistory.steps = false := rfl
  rw [hgone] at hpresent
  exact absurd (hpresent.mp (by decide)) (by simp)

/-- In the order of the history the deployment ends up deleted. -/
theorem converges_in_order :
    let msgs := [((MapOrder.sorted : MapOrder String), EdgeStep.create (edgeDeployment "web" "1")),
      (MapOrder.sorted, EdgeStep.delete (edgeDeployment "web" "2"))]
    Converged webHistory (msgs.foldl (processMessage plainStrategy MapOrder.sorted ⟨"c", false⟩)
      (fun _ => ∅) .deployment) (centralKey .deployment "c" webHistory.key) := by
  refine (converges_iff (by decide) plainStrategy MapOrder.sorted (by decide) webHistory
    (List.Perm.refl _) (Store.get_empty _)).mpr ?_
  rintro y ⟨⟩
  rfl

end OteStack.ControllerManager
