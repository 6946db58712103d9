/-
# OteStack.ClusterController.RootResults — whose results a root with a shim of its own records.

The way back of `OteStack.ClusterController.RootCluster`: `handleRespFromShimClient` gives every message of
the shim the name of the root, and `handleMessageFromChild` records a response under the name it has.

`root_shim_results_under_root`: whatever clusters a task selects, the only result that comes to its status
is the root's.
-/
import OteStack.ClusterController.RootCluster
import OteStack.ClusterHandler.ResponseMerge

namespace OteStack

open OteStack.Lib (Go GoMap StepsMeet runSteps runSteps_invariant_of_meet stepsMeet_of_forall)
open OteStack.Lib.KubeApi (ObjectKey)
open OteStack.K8sClient (clusterNamespace)

/-! ## Under whose name results are recorded -/

/-- Every result is the given cluster's, or was there before. -/
def AddsOnly (cluster : String) (before after : GoMap ObjectKey ClusterController) : Prop :=
  ∀ key cc' cn status, after.get key = some cc' → (RootHandler.statusMap cc').get cn = some status →
    cn = cluster ∨ ∃ cc, before.get key = some cc ∧ (RootHandler.statusMap cc).get cn = some status

theorem AddsOnly.refl (cluster : String) (m : GoMap ObjectKey ClusterController) : AddsOnly cluster m m :=
  fun _ cc _ _ hget hstatus => Or.inr ⟨cc, hget, hstatus⟩

theorem AddsOnly.trans {cluster : String} {m m' m'' : GoMap ObjectKey ClusterController}
    (h : AddsOnly cluster m m') (h' : AddsOnly cluster m' m'') : AddsOnly cluster m m'' := by
  intro key cc'' cn status hget hstatus
  rcases h' key cc'' cn status hget hstatus with hcn | ⟨cc', hget', hstatus'⟩
  · exact Or.inl hcn
  · exact h key cc' cn status hget' hstatus'

/-- A new ClusterController has no result. -/
theorem addsOnly_create (cluster : String) (m : GoMap ObjectKey ClusterController) (key : ObjectKey)
    (name ns : String) : AddsOnly cluster m (m.set key ⟨name, ns, none⟩) := by
  intro key' cc' cn status hget hstatus
  rw [GoMap.get_set] at hget
  split at hget
  · obtain rfl := Option.some.inj hget
    simp [RootHandler.statusMap] at hstatus
  · exact Or.inr ⟨cc', hget, hstatus⟩

theorem addsOnly_delete (cluster : String) (m : GoMap ObjectKey ClusterController) (key : ObjectKey) :
    AddsOnly cluster m (m.delete key) :=
  fun _ cc' _ _ hget hstatus => Or.inr ⟨cc', GoMap.get_of_get_delete hget, hstatus⟩

namespace RootHandler

variable {h : RootHandler} {msg : WireMessage} {head : MessageHead} {s s' : RootStores}

/-- Merging an entry adds nothing but this entry. -/
theorem addsOnly_set {key : ObjectKey} {m : GoMap ObjectKey ClusterController} {origin : ClusterController}
    (hget : m.get key = some origin) (cn : String) (status : ClusterControllerStatus) :
    AddsOnly cn m (m.set key { origin with status := some (mergeEntry (statusMap origin) cn status) }) := by
  intro key' cc' c st hget' hst
  rw [GoMap.get_set] at hget'
  split at hget'
  case isTrue heq =>
    obtain rfl := Option.some.inj hget'
    rw [statusMap, Option.getD_some, get_mergeEntry] at hst
    split at hst
    case isTrue hc => exact Or.inl hc
    case isFalse => exact Or.inr ⟨origin, heq ▸ hget, hst⟩
  case isFalse => exact Or.inr ⟨cc', hget', hst⟩

/-- A response is recorded under the name of the cluster in its head, if at all. -/
theorem addsOnly_mergeToApiserver {ret : Except String Unit} (hhead : msg.head = some head)
    (hcommand : head.command = .controlResp)
    (hrun : (h.mergeToApiserver (some msg)).run s = .ok (ret, s')) :
    AddsOnly head.clusterName s.clusterControllers s'.clusterControllers := by
  cases hresp : h.controllerTaskResponse msg.body with
  | error err =>
      rw [run_mergeToApiserver_of_error msg hhead hcommand hresp] at hrun
      cases hrun
  | ok resp =>
      cases hget : s.clusterControllers.get ⟨clusterNamespace, head.messageID⟩ with
      | none =>
          unfold mergeToApiserver at hrun
          rw [StateT.run_bind, run_clusterMessageToClusterControllerCRD hhead hcommand hresp s, Go.ok_bind]
            at hrun
          simp only [StateT.run_bind, Go.run_get, Go.ok_bind, hget, Go.run_pure, Except.ok.injEq,
            Prod.mk.injEq] at hrun
          rw [← hrun.2]
          exact AddsOnly.refl _ _
      | some origin =>
          have hresponse : h.response head.messageID msg =
              some (head.clusterName, ⟨resp.timestamp, resp.statusCode, resp.body⟩) := by
            simp [response, hhead, hresp, hcommand]
          rw [run_mergeToApiserver_of_response hresponse hget] at hrun
          obtain ⟨-, rfl⟩ := Prod.mk.inj (Except.ok.inj hrun)
          exact addsOnly_set hget _ _

/-- Other messages leave the ClusterControllers alone. -/
theorem clusterControllers_handleMessageFromChild {client : String} {data : List UInt8}
    {ret : Except String Unit} (hdata : h.unmarshal data = .ok msg) (hhead : msg.head = some head)
    (hcommand : head.command ≠ .controlResp)
    (hrun : (h.handleMessageFromChild client data).run s = .ok (ret, s')) :
    s'.clusterControllers = s.clusterControllers := by
  obtain ⟨sentRet, sent, hsend⟩ := run_sendToControllerManager h
    { msg with head := some (h.withParentClusterName head) } s
  have hsame : ∀ {r : Except String Unit × RootStores}, r.2.clusterControllers = s.clusterControllers →
      Except.ok r = (Except.ok (ret, s') : Except Lib.Panic _) →
      s'.clusterControllers = s.clusterControllers := by
    intro r hr heq
    obtain rfl := Except.ok.inj heq
    exact hr
  simp only [handleMessageFromChild, hdata, hhead, command_withParentClusterName] at hrun
  cases hcmd : head.command with
  | clusterRegist =>
      simp only [hcmd, StateT.run_bind, hsend, Go.ok_bind, run_handleRegistClusterMessage] at hrun
      exact hsame rfl hrun
  | clusterUnregist =>
      simp only [hcmd, StateT.run_bind, hsend, Go.ok_bind, run_handleUnregistClusterMessage] at hrun
      exact hsame rfl hrun
  | subTreeRoute =>
      obtain ⟨updateRet, hupdate⟩ := run_updateRouteToSubtree h
        { msg with head := some (h.withParentClusterName head) } rfl s
      simp only [hcmd, StateT.run_bind, hupdate, Go.ok_bind] at hrun
      exact hsame rfl hrun
  | controlResp => exact absurd hcmd hcommand
  | _ =>
      simp only [hcmd, StateT.run_bind, hsend, Go.ok_bind, reduceCtorEq, if_false] at hrun
      exact hsame rfl hrun

/-- So every message adds at most the result of the cluster that its head names. -/
theorem addsOnly_handleMessageFromChild {client : String} {data : List UInt8} {ret : Except String Unit}
    (hdata : h.unmarshal data = .ok msg) (hhead : msg.head = some head)
    (hrun : (h.handleMessageFromChild client data).run s = .ok (ret, s')) :
    AddsOnly head.clusterName s.clusterControllers s'.clusterControllers := by
  by_cases hcommand : head.command = .controlResp
  · obtain ⟨sentRet, sent, hsend⟩ := run_sendToControllerManager h
      { msg with head := some (h.withParentClusterName head) } s
    simp only [handleMessageFromChild, hdata, hhead, command_withParentClusterName, hcommand, StateT.run_bind,
      hsend, Go.ok_bind, if_true] at hrun
    have hmerge := addsOnly_mergeToApiserver rfl ((command_withParentClusterName h head).trans hcommand) hrun
    rwa [clusterName_withParentClusterName] at hmerge
  · rw [clusterControllers_handleMessageFromChild hdata hhead hcommand hrun]
    exact AddsOnly.refl _ _

/-- The bytes are a response to a task. -/
def IsResponse (h : RootHandler) (data : List UInt8) : Prop :=
  ∃ msg head, h.unmarshal data = .ok msg ∧ msg.head = some head ∧ head.command = .controlResp

theorem clusterControllers_of_not_isResponse {client : String} {data : List UInt8} {ret : Except String Unit}
    (hdata : ¬ h.IsResponse data) (hrun : (h.handleMessageFromChild client data).run s = .ok (ret, s')) :
    s'.clusterControllers = s.clusterControllers := by
  cases hmsg : h.unmarshal data with
  | error err =>
      simp only [handleMessageFromChild, hmsg, Go.run_pure, Except.ok.injEq, Prod.mk.injEq] at hrun
      rw [← hrun.2]
  | ok msg =>
      cases hhead : msg.head with
      | none =>
          simp only [handleMessageFromChild, hmsg, hhead, Go.run_pure, Except.ok.injEq, Prod.mk.injEq] at hrun
          rw [← hrun.2]
      | some head =>
          have hcommand : head.command ≠ .controlResp := fun hc => hdata ⟨msg, head, hmsg, hhead, hc⟩
          exact clusterControllers_handleMessageFromChild hmsg hhead hcommand hrun

end RootHandler

namespace RootController

variable {R : RootController} {s s' : RootFlow} {a : RootFlowAction}

variable (R) in
/-- What is on its way from the shim has the name of the root, and nothing was recorded under another. -/
structure Reports (stores : RootStores) (s : RootFlow) : Prop where
  named : ∀ msg ∈ s.rootEdgeToClusterChan, ∃ head, msg.head = some head ∧
    head.clusterName = R.process.edge.clusterName
  kept : AddsOnly R.process.edge.clusterName stores.clusterControllers s.stores.clusterControllers

theorem Reports.handle {stores : RootStores} (h : R.Reports stores s) {client : String} {data : List UInt8}
    (hs' : R.handle s client data = some s')
    (hadds : ∀ {ret stores'},
      (R.handler.handleMessageFromChild client data).run s.stores = .ok (ret, stores') →
      AddsOnly R.process.edge.clusterName s.stores.clusterControllers stores'.clusterControllers) :
    R.Reports stores s' := by
  obtain ⟨ret, router, hrun, heq⟩ := eq_of_handle hs'
  refine ⟨?_, h.kept.trans (hadds hrun)⟩
  rw [heq]
  exact h.named

variable (R) in
/-- Children answer no tasks. -/
def Unanswered : RootFlowAction → Prop
  | .child _ data => ¬ R.handler.IsResponse data
  | _ => True

theorem Reports.step {stores : RootStores} (h : R.Reports stores s) (henable : R.rootClusterEnable = true)
    (hok : R.Unanswered a) (hstep : R.step s a = some s') : R.Reports stores s' := by
  cases transition_of_step henable hstep with
  | idle => exact h
  | accepted _ => exact ⟨h.named, h.kept⟩
  | queued _ _ => exact ⟨h.named, h.kept⟩
  | taken _ _ _ => exact ⟨h.named, h.kept⟩
  | answered =>
      refine ⟨fun msg hmsg => ?_, h.kept⟩
      rcases List.mem_append.mp hmsg with hmsg | hmsg
      · exact h.named msg hmsg
      · rw [List.mem_singleton.mp hmsg]
        exact ⟨_, rfl, rfl⟩
  | unsent => exact ⟨fun msg hmsg => h.named msg (List.mem_of_mem_eraseIdx hmsg), h.kept⟩
  | @reported i msg _ _ hi hmarshal ht =>
      have herased : R.Reports stores { s with
          rootEdgeToClusterChan := s.rootEdgeToClusterChan.eraseIdx i } :=
        ⟨fun msg hmsg => h.named msg (List.mem_of_mem_eraseIdx hmsg), h.kept⟩
      obtain ⟨head, hhead, hname⟩ := h.named msg (List.mem_of_getElem? hi)
      refine herased.handle ht fun hrun => ?_
      rw [← hname]
      exact RootHandler.addsOnly_handleMessageFromChild (R.unmarshal_marshal _ _ hmarshal) hhead hrun
  | handled ht =>
      refine h.handle ht fun hrun => ?_
      rw [RootHandler.clusterControllers_of_not_isResponse hok hrun]
      exact AddsOnly.refl _ _
  | created => exact ⟨h.named, h.kept.trans (addsOnly_create _ _ _ _ _)⟩
  | deleted => exact ⟨h.named, h.kept.trans (addsOnly_delete _ _ _)⟩

/-- In every run of a root with a shim in which the children, who are sent no task, answer none: whatever
clusters the tasks select, every result in the status of a ClusterController is the root's own or was there
at the start. -/
theorem root_shim_results_under_root (R : RootController) (henable : R.rootClusterEnable = true)
    {stores : RootStores} {router : ClusterRouter} {as : List RootFlowAction}
    (hanswers : ∀ a ∈ as, R.Unanswered a) (hrun : runSteps R.step (init stores router) as = some s) :
    AddsOnly R.process.edge.clusterName stores.clusterControllers s.stores.clusterControllers := by
  have hinit : R.Reports stores (init stores router) := ⟨by simp [init], AddsOnly.refl _ _⟩
  have hmeet : StepsMeet R.step (fun _ a => R.Unanswered a) (init stores router) as :=
    stepsMeet_of_forall (fun a ha _ => hanswers a ha) _
  have hreports : R.Reports stores s :=
    runSteps_invariant_of_meet (fun h hok hstep => Reports.step h henable hok hstep) hinit hmeet hrun
  exact hreports.kept

/-- The shim answers, and the root records it for the task that was meant for `child`. -/
def taskAnswered : List RootFlowAction := taskTwice ++ [.shimMessage [2] true, .report 0]

theorem root_shim_results_under_root_task :
    ∃ s cc, runSteps (rootWithShim false).step emptyRoot taskAnswered = some s ∧
      s.stores.clusterControllers.get ⟨clusterNamespace, "task"⟩ = some cc ∧
      (RootHandler.statusMap cc).get "root" = some ⟨5, 200, "done"⟩ ∧
      AddsOnly "root" ∅ s.stores.clusterControllers := by
  have hsome : ((runSteps (rootWithShim false).step emptyRoot taskAnswered).bind fun s =>
      s.stores.clusterControllers.get ⟨clusterNamespace, "task"⟩).isSome = true := by decide
  obtain ⟨cc, hboth⟩ := Option.isSome_iff_exists.mp hsome
  obtain ⟨s, hrun, hcc⟩ := Option.bind_eq_some_iff.mp hboth
  have hend : ∀ cc ∈ (runSteps (rootWithShim false).step emptyRoot taskAnswered).bind fun s =>
      s.stores.clusterControllers.get ⟨clusterNamespace, "task"⟩,
      (RootHandler.statusMap cc).get "root" = some ⟨5, 200, "done"⟩ := by decide
  have hanswers : ∀ a ∈ taskAnswered, (rootWithShim false).Unanswered a := by
    simp [taskAnswered, taskTwice, Unanswered]
  exact ⟨s, cc, hrun, hcc, hend cc hboth,
    root_shim_results_under_root (rootWithShim false) (by decide) hanswers hrun⟩

end RootController

end OteStack
