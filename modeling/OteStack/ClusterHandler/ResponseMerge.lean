/-
# OteStack.ClusterHandler.ResponseMerge — what is left of the responses to a task.

`mergeToApiserver` of `pkg/clusterhandler/clusterhandler.go`, over any number of responses to one
ClusterController.  A response carries the status of one cluster, and takes the place of the status that the
cluster has if it is later (`run_mergeToApiserver_of_response`).  So for each cluster the status map is a
register that keeps the newest entry (`Lib.LastWriter.newest`), and the outcome depends neither on the order
of the responses nor on how often each of them comes (`responses_merge_to_newest`).
-/
import OteStack.ClusterHandler.RootMessages
import OteStack.Lib.LastWriter

namespace OteStack

open OteStack.Lib (Go GoMap MapOrder)
open OteStack.Lib.KubeApi (ObjectKey)
open OteStack.Lib.LastWriter (newest foldl_newest_eq_some_iff)
open OteStack.K8sClient (clusterNamespace)

namespace RootHandler

variable (h : RootHandler)

/-! ## Responses -/

/-- The cluster and the status of a response to the task `name`. -/
def response (name : String) (msg : WireMessage) : Option (String × ClusterControllerStatus) :=
  match msg.head, h.controllerTaskResponse msg.body with
  | some head, .ok resp =>
      if head.command = .controlResp ∧ head.messageID = name then
        some (head.clusterName, ⟨resp.timestamp, resp.statusCode, resp.body⟩)
      else none
  | _, _ => none

/-- `mergeToApiserver` for one message after the other. -/
def mergeAll : List WireMessage → Go RootStores Unit
  | [] => return ()
  | msg :: msgs => do
      let _ ← h.mergeToApiserver (some msg)
      mergeAll msgs

/-- The statuses that the messages have for a cluster. -/
def statusesOf (name cluster : String) (msgs : List WireMessage) : List ClusterControllerStatus :=
  msgs.filterMap fun msg =>
    match h.response name msg with
    | some (cn, status) => if cn = cluster then some status else none
    | none => none

/-- The status map with a status merged into it. -/
def mergeEntry (m : GoMap String ClusterControllerStatus) (cn : String) (status : ClusterControllerStatus) :
    GoMap String ClusterControllerStatus :=
  match m.get cn with
  | none => m.set cn status
  | some old => if old.timestamp < status.timestamp then m.set cn status else m

/-- The status map of a ClusterController, which may be nil. -/
def statusMap (cc : ClusterController) : GoMap String ClusterControllerStatus := cc.status.getD ∅

variable {h} {name : String} {msg : WireMessage} {msgs : List WireMessage} {s : RootStores}
  {origin : ClusterController}

theorem mem_statusesOf {cluster : String} {status : ClusterControllerStatus} :
    status ∈ h.statusesOf name cluster msgs ↔
      ∃ msg ∈ msgs, h.response name msg = some (cluster, status) := by
  unfold statusesOf
  rw [List.mem_filterMap]
  constructor
  · rintro ⟨msg, hmsg, hstatus⟩
    refine ⟨msg, hmsg, ?_⟩
    rcases hresp : h.response name msg with _ | ⟨cn, st⟩
    · rw [hresp] at hstatus
      cases hstatus
    · rw [hresp] at hstatus
      obtain ⟨rfl, hst⟩ := Option.ite_none_right_eq_some.mp hstatus
      rw [Option.some.inj hst]
  · rintro ⟨msg, hmsg, hresp⟩
    refine ⟨msg, hmsg, ?_⟩
    rw [hresp]
    exact if_pos rfl

/-- An entry is merged as into a register that keeps the newest, and the others stay. -/
theorem get_mergeEntry (m : GoMap String ClusterControllerStatus) (cn : String)
    (status : ClusterControllerStatus) (c : String) :
    (mergeEntry m cn status).get c =
      if c = cn then newest ClusterControllerStatus.timestamp (m.get c) status else m.get c := by
  unfold mergeEntry
  by_cases hc : c = cn
  · subst c
    rw [if_pos rfl]
    cases hget : m.get cn with
    | none => exact GoMap.get_set_self m cn status
    | some old =>
        simp only [newest]
        split
        · exact GoMap.get_set_self m cn status
        · exact hget
  · rw [if_neg hc]
    split
    · exact GoMap.get_set_of_ne m hc status
    · split
      · exact GoMap.get_set_of_ne m hc status
      · rfl

/-! ## Merging -/

/-- The loop over the one entry of a response. -/
theorem run_mergeStatus_single (it : MapOrder String) (origin : ClusterController) (cn : String)
    (status : ClusterControllerStatus) (s : RootStores) :
    (mergeStatus origin.status ((∅ : GoMap String ClusterControllerStatus).set cn status)
      (it.order ((∅ : GoMap String ClusterControllerStatus).set cn status)) (some (statusMap origin))).run s =
        .ok (some (mergeEntry (statusMap origin) cn status), s) := by
  rw [it.order_set_empty, mergeStatus, GoMap.get_set_self, mergeEntry]
  rcases hstatus : origin.status with _ | m
  · simp only [statusMap, hstatus, Option.bind_none, Option.getD_none, GoMap.get_empty]
    rfl
  · simp only [statusMap, hstatus, Option.bind_some, Option.getD_some]
    cases m.get cn with
    | none => rfl
    | some old =>
        dsimp only
        split
        · rfl
        · rfl

/-- A response is merged into the ClusterController that it answers. -/
theorem run_mergeToApiserver_of_response {cn : String} {status : ClusterControllerStatus}
    (hresp : h.response name msg = some (cn, status))
    (hget : s.clusterControllers.get ⟨clusterNamespace, name⟩ = some origin) :
    (h.mergeToApiserver (some msg)).run s = .ok (.ok (), { s with
      clusterControllers := s.clusterControllers.set ⟨clusterNamespace, name⟩
        { origin with status := some (mergeEntry (statusMap origin) cn status) } }) := by
  unfold response at hresp
  split at hresp
  · rename_i head resp hhead hbody
    obtain ⟨⟨hcommand, rfl⟩, heq⟩ := Option.ite_none_right_eq_some.mp hresp
    obtain ⟨rfl, rfl⟩ := Prod.mk.inj (Option.some.inj heq)
    unfold mergeToApiserver
    rw [StateT.run_bind, run_clusterMessageToClusterControllerCRD hhead hcommand hbody s, Go.ok_bind]
    simp only [StateT.run_bind, Go.run_get, Go.ok_bind, hget, Option.getD_some]
    rw [show some (origin.status.getD ∅) = some (statusMap origin) from rfl,
      run_mergeStatus_single h.it origin head.clusterName, Go.ok_bind]
    rfl
  · cases hresp

/-- After all responses, the entry of each cluster is that of a register to which they were written. -/
theorem run_mergeAll (hwell : ∀ msg ∈ msgs, (h.response name msg).isSome = true)
    (hget : s.clusterControllers.get ⟨clusterNamespace, name⟩ = some origin) :
    ∃ s' cc, (h.mergeAll msgs).run s = .ok ((), s') ∧
      s'.clusterControllers.get ⟨clusterNamespace, name⟩ = some cc ∧
      (∀ c, (statusMap cc).get c = (h.statusesOf name c msgs).foldl
        (newest ClusterControllerStatus.timestamp) ((statusMap origin).get c)) ∧
      ∀ k, k ≠ ⟨clusterNamespace, name⟩ → s'.clusterControllers.get k = s.clusterControllers.get k := by
  induction msgs generalizing s origin with
  | nil => exact ⟨s, origin, rfl, hget, fun c => rfl, fun k _ => rfl⟩
  | cons msg msgs ih =>
      obtain ⟨⟨cn, status⟩, hresp⟩ := Option.isSome_iff_exists.mp (hwell msg List.mem_cons_self)
      have hrun := run_mergeToApiserver_of_response hresp hget
      generalize hmerged : ({ origin with status := some (mergeEntry (statusMap origin) cn status) } :
        ClusterController) = merged at hrun
      have hnext : (s.clusterControllers.set ⟨clusterNamespace, name⟩ merged).get ⟨clusterNamespace, name⟩ =
          some merged := GoMap.get_set_self _ _ _
      obtain ⟨s', cc, hrest, hcc, hstatus, hframe⟩ :=
        ih (s := { s with clusterControllers := s.clusterControllers.set ⟨clusterNamespace, name⟩ merged })
          (fun m hm => hwell m (List.mem_cons_of_mem msg hm)) hnext
      refine ⟨s', cc, ?_, hcc, ?_, ?_⟩
      · rw [mergeAll, StateT.run_bind, hrun, Go.ok_bind]
        exact hrest
      · intro c
        have hentry : statusMap merged = mergeEntry (statusMap origin) cn status := by
          rw [← hmerged]
          rfl
        rw [hstatus c, hentry, get_mergeEntry, statusesOf, statusesOf, List.filterMap_cons, hresp]
        by_cases hc : c = cn
        · simp [hc]
        · simp [hc, Ne.symm hc]
      · intro k hk
        rw [hframe k hk]
        exact GoMap.get_set_of_ne _ hk _

/-- The status of a cluster, in the ClusterController or in a response to it. -/
def Candidate (h : RootHandler) (origin : ClusterController) (name : String) (msgs : List WireMessage)
    (c : String) (status : ClusterControllerStatus) : Prop :=
  (statusMap origin).get c = some status ∨ ∃ msg ∈ msgs, h.response name msg = some (c, status)

/-- The register of a cluster has the latest of its statuses, for any list of the messages. -/
theorem foldl_newest_statusesOf
    (hdistinct : ∀ c a b, h.Candidate origin name msgs c a → h.Candidate origin name msgs c b →
      a.timestamp = b.timestamp → a = b) {handled : List WireMessage}
    (hmem : ∀ msg, msg ∈ handled ↔ msg ∈ msgs) (c : String) (a : ClusterControllerStatus) :
    (h.statusesOf name c handled).foldl (newest ClusterControllerStatus.timestamp)
        ((statusMap origin).get c) = some a ↔
      h.Candidate origin name msgs c a ∧
        ∀ b, h.Candidate origin name msgs c b → b.timestamp ≤ a.timestamp := by
  have hcandidate : ∀ b, ((statusMap origin).get c = some b ∨ b ∈ h.statusesOf name c handled) ↔
      h.Candidate origin name msgs c b := by
    intro b
    simp only [mem_statusesOf, hmem, Candidate]
  rw [foldl_newest_eq_some_iff]
  · simp only [hcandidate]
  · intro b d hb hd htime
    exact hdistinct c b d ((hcandidate b).mp hb) ((hcandidate d).mp hd) htime

/-- Responses to an existing ClusterController, of which no two of one cluster share a timestamp, leave the
same status map in whatever order and however often they are handled: for each cluster the latest of its
statuses, and no entry for a cluster that has none.  Other ClusterControllers are not touched. -/
theorem responses_merge_to_newest (h : RootHandler) (name : String) (s : RootStores)
    (origin : ClusterController)
    (hget : s.clusterControllers.get ⟨clusterNamespace, name⟩ = some origin) (msgs : List WireMessage)
    (hwell : ∀ msg ∈ msgs, (h.response name msg).isSome = true)
    (hdistinct : ∀ c a b, h.Candidate origin name msgs c a → h.Candidate origin name msgs c b →
      a.timestamp = b.timestamp → a = b) :
    ∃ status : GoMap String ClusterControllerStatus,
      (∀ c a, status.get c = some a ↔ h.Candidate origin name msgs c a ∧
        ∀ b, h.Candidate origin name msgs c b → b.timestamp ≤ a.timestamp) ∧
      ∀ handled : List WireMessage, (∀ msg, msg ∈ handled ↔ msg ∈ msgs) →
        ∃ s', (h.mergeAll handled).run s = .ok ((), s') ∧
          (s'.clusterControllers.get ⟨clusterNamespace, name⟩).map statusMap = some status ∧
          ∀ k, k ≠ ⟨clusterNamespace, name⟩ → s'.clusterControllers.get k = s.clusterControllers.get k := by
  -- the map that is left has in each entry the latest candidate, whatever list was handled
  have hrun : ∀ handled : List WireMessage, (∀ msg, msg ∈ handled ↔ msg ∈ msgs) →
      ∃ s' cc, (h.mergeAll handled).run s = .ok ((), s') ∧
        s'.clusterControllers.get ⟨clusterNamespace, name⟩ = some cc ∧
        (∀ c a, (statusMap cc).get c = some a ↔ h.Candidate origin name msgs c a ∧
          ∀ b, h.Candidate origin name msgs c b → b.timestamp ≤ a.timestamp) ∧
        ∀ k, k ≠ ⟨clusterNamespace, name⟩ → s'.clusterControllers.get k = s.clusterControllers.get k := by
    intro handled hmem
    obtain ⟨s', cc, hs', hcc, hstatus, hframe⟩ :=
      run_mergeAll (fun msg hmsg => hwell msg ((hmem msg).mp hmsg)) hget
    refine ⟨s', cc, hs', hcc, ?_, hframe⟩
    intro c a
    rw [hstatus c]
    exact foldl_newest_statusesOf hdistinct hmem c a
  obtain ⟨-, cc₀, -, -, hchar, -⟩ := hrun msgs fun msg => Iff.rfl
  refine ⟨statusMap cc₀, hchar, ?_⟩
  intro handled hmem
  obtain ⟨s', cc, hs', hcc, hchar', hframe⟩ := hrun handled hmem
  refine ⟨s', hs', ?_, hframe⟩
  rw [hcc, Option.map_some]
  congr 1
  refine GoMap.ext fun c => Option.ext fun a => ?_
  rw [hchar' c a, hchar c a]

/-! ## Two responses of one cluster -/

/-- A root that reads the timestamp of a response off the length of its body. -/
def rootOfTask : RootHandler :=
  { rootOfResponse with controllerTaskResponse := fun body => .ok ⟨body.length, 200, ""⟩ }

/-- The response of the cluster `c1` with a timestamp. -/
def responseAt (timestamp : ℕ) : WireMessage :=
  ⟨some ⟨"task", .controlResp, "", "c1", ""⟩, List.replicate timestamp 0⟩

/-- A root with the ClusterController of the task, which nobody has answered. -/
def storesOfTask : RootStores :=
  ⟨rootOfC1, GoMap.ofList [(⟨clusterNamespace, "task"⟩, ⟨"task", clusterNamespace, none⟩)], []⟩

theorem candidate_responseAt {c : String} {a : ClusterControllerStatus}
    (ha : rootOfTask.Candidate ⟨"task", clusterNamespace, none⟩ "task" [responseAt 2, responseAt 1] c a) :
    c = "c1" ∧ (a = ⟨2, 200, ""⟩ ∨ a = ⟨1, 200, ""⟩) := by
  rcases ha with ha | ⟨msg, hmsg, hresp⟩
  · simp [statusMap] at ha
  · rcases List.mem_pair.mp hmsg with rfl | rfl
    · obtain ⟨rfl, rfl⟩ := Prod.mk.inj (Option.some.inj hresp)
      exact ⟨rfl, Or.inl rfl⟩
    · obtain ⟨rfl, rfl⟩ := Prod.mk.inj (Option.some.inj hresp)
      exact ⟨rfl, Or.inr rfl⟩

/-- The later of the two responses is left, in whatever order and however often they come. -/
theorem responses_merge_to_newest_two :
    ∃ status : GoMap String ClusterControllerStatus, status.get "c1" = some ⟨2, 200, ""⟩ ∧
      ∀ handled : List WireMessage, (∀ msg, msg ∈ handled ↔ msg ∈ [responseAt 2, responseAt 1]) →
        ∃ s', (rootOfTask.mergeAll handled).run storesOfTask = .ok ((), s') ∧
          (s'.clusterControllers.get ⟨clusterNamespace, "task"⟩).map statusMap = some status := by
  obtain ⟨status, hchar, hhandled⟩ := responses_merge_to_newest rootOfTask "task" storesOfTask
    ⟨"task", clusterNamespace, none⟩ (by rfl) [responseAt 2, responseAt 1] (by decide) (by
      intro c a b ha hb htime
      rcases (candidate_responseAt ha).2 with rfl | rfl
      · rcases (candidate_responseAt hb).2 with rfl | rfl
        · rfl
        · cases htime
      · rcases (candidate_responseAt hb).2 with rfl | rfl
        · cases htime
        · rfl)
  refine ⟨status, (hchar "c1" ⟨2, 200, ""⟩).mpr ⟨Or.inr ⟨responseAt 2, by simp, rfl⟩, ?_⟩, ?_⟩
  · intro b hb
    rcases (candidate_responseAt hb).2 with rfl | rfl
    · decide
    · decide
  · intro handled hmem
    obtain ⟨s', hrun, hstatus, -⟩ := hhandled handled hmem
    exact ⟨s', hrun, hstatus⟩

end RootHandler

end OteStack
