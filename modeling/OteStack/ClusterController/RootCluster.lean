/-
# OteStack.ClusterController.RootCluster — a root cluster controller with a shim of its own.

The branches of `rootClusterEnable` in `pkg/clusterhandler` and `pkg/edgehandler`, and `Run` of
`cmd/clustercontroller/app`.  A root that is given the address of a shim does not divide what it receives
among its children: messages of the controller manager and ClusterControllers go through
`RootClusterToEdgeChan` to the edge handler, which gives them to the shim without a look at their selector.
What the shim answers and reports goes back through `RootEdgeToClusterChan`, under the name of the root.

* `root_shim_gets_all`: no child is ever sent a task or a message of a manager, every accepted message is on
  its way or has been taken once, the shim client is given exactly the requests among those taken, and all that
  is on its way can be taken.
* `electing_root_gets_stuck`: with leader election `Run` never comes to start the edge handler.  The shim
  client is given nothing, and all accepted messages but those in the channel hold up the goroutines that
  brought them.
* `root_shim_results_under_root`: whatever clusters a task selects, the only result that comes to its status
  is the root's.

Children that connect and leave are not modelled; the `NeighborRoute` messages that `AddChild` and `DelChild`
then send to all of them are no part of what is said to be sent here.
-/
import Mathlib.Data.List.Perm.Basic
import OteStack.ClusterHandler.RootMessages
import OteStack.EdgeHandler.ShimModes
import OteStack.Lib.StepSystem

namespace OteStack

open OteStack.Lib (Go GoMap MapOrder runSteps runSteps_append runSteps_invariant)
open OteStack.Lib.KubeApi (ObjectKey)
open OteStack.K8sClient (clusterNamespace)

/-! ## The process -/

/-- `config.RootClusterName`. -/
def rootClusterName : String := "root"

/-- `RootClusterToEdgeChanBuffer` and `RootEdgeToClusterChanBuffer`. -/
def rootChanBuffer : ℕ := 10000

/-- A root: its edge handler, whose shim is remote if it has one, its cluster handler, which reads the
messages of the edge handler, and two flags of `Run`. -/
structure RootController where
  process : EdgeProcess
  handler : RootHandler
  remoteShimAddr : String
  leaderElection : Bool
  shimClient_eq : remoteShimAddr ≠ "" → process.shimClient = .remoteShim
  unmarshal_marshal : ∀ msg data, process.marshal msg = .ok data → handler.unmarshal data = .ok msg

/-- The goroutines that wait at a channel with a message, the two channels, and what the handlers keep.
`accepted` are all the messages that were to be passed on, `taken` those that the edge handler has taken. -/
structure RootFlow where
  waiting : List WireMessage
  rootClusterToEdgeChan : List WireMessage
  rootEdgeToClusterChan : List WireMessage
  edge : EdgeChannels
  links : ChildLinks
  stores : RootStores
  accepted : List WireMessage
  taken : List WireMessage

/-- A message of a controller manager, a ClusterController that has to be processed, a send that goes
through, the edge handler at its channel, a message of the shim (kept, or dropped after the timeout), one of
the goroutines that handle such messages, a message of a child, and a ClusterController that is created or
deleted. -/
inductive RootFlowAction where
  | controllerMsg (clientName : String) (data : List UInt8)
  | clusterController (name clusterSelector : String) (task : List UInt8)
  | send (i : ℕ)
  | edgeHandler
  | shimMessage (data : List UInt8) (kept : Bool)
  | report (i : ℕ)
  | child (client : String) (data : List UInt8)
  | create (name : String)
  | delete (name : String)

namespace RootController

variable (R : RootController)

/-- `rootClusterEnable` of a root. -/
def rootClusterEnable : Bool := decide (R.remoteShimAddr ≠ "")

/-- The edge handler is started after the election, which does not return. -/
def edgeHandlerStarted : Bool := !R.leaderElection

/-- The part of Go's `controllerMsgHandler` before the message is sent on. -/
def controllerMsgHandler (clientName : String) (data : List UInt8) : Except String WireMessage :=
  match R.handler.unmarshal data with
  | .error err => .error ("can not deserialize message from " ++ clientName ++ ", error: " ++ err)
  | .ok msg =>
      match msg.head with
      | none => .error "msg head is nil, cannot handle"
      | some head => .ok { msg with head := some (R.handler.withParentClusterName head) }

/-- The message of Go's `addClusterController`. -/
def clusterControllerMessage (name clusterSelector : String) (task : List UInt8) : WireMessage where
  head := some {
    messageID := name
    command := .controlReq
    clusterSelector := clusterSelector
    clusterName := ""
    parentClusterName := R.handler.clusterName }
  body := task

/-- The loop of Go's `addClusterController` over the selected children. -/
def sendToSelectedChild (msg : WireMessage) : Go ChildLinks Unit := do
  let selectedChild ← R.process.selectChild msg
  R.process.sendToSelected selectedChild (R.process.it.order selectedChild)

/-- What Go's `handleRespFromShimClient` sends on: the response under the name of the root. -/
def named (resp : WireMessage) (head : MessageHead) : WireMessage :=
  { resp with head := some { head with clusterName := R.process.edge.clusterName } }

/-- A goroutine comes to a channel with a message. -/
def accept (s : RootFlow) (msg : WireMessage) : RootFlow :=
  { s with waiting := s.waiting ++ [msg], accepted := s.accepted ++ [msg] }

/-- Go's `handleMessageFromChild`, which may change the routes. -/
def handle (s : RootFlow) (client : String) (data : List UInt8) : Option RootFlow :=
  match (R.handler.handleMessageFromChild client data).run s.stores with
  | .error _ => none
  | .ok (_, stores) => some { s with
      stores := stores
      links := { s.links with
        router := { s.links.router with subtreeRouter := stores.root.subtreeRouter } } }

/-- One step; `none` where the action is not possible or the process ends. -/
def step (s : RootFlow) : RootFlowAction → Option RootFlow
  | .controllerMsg clientName data =>
      match R.controllerMsgHandler clientName data with
      | .error _ => some s
      | .ok msg => some (accept s msg)
  | .clusterController name clusterSelector task =>
      let msg := R.clusterControllerMessage name clusterSelector task
      if R.rootClusterEnable then some (accept s msg)
      else match (R.sendToSelectedChild msg).run s.links with
        | .error _ => none
        | .ok (_, links) => some { s with links := links }
  | .send i =>
      match s.waiting[i]? with
      | none => none
      | some msg =>
          if R.rootClusterEnable then
            if s.rootClusterToEdgeChan.length < rootChanBuffer then
              some { s with
                waiting := s.waiting.eraseIdx i
                rootClusterToEdgeChan := s.rootClusterToEdgeChan ++ [msg] }
            else none
          else
            -- `EdgeToClusterChan` has no buffer: the message is in the hands of the cluster handler
            match (R.process.handleMessageFromParent msg).run s.links with
            | .error _ => none
            | .ok (_, links) => some { s with waiting := s.waiting.eraseIdx i, links := links }
  | .edgeHandler =>
      if R.rootClusterEnable && R.edgeHandlerStarted then
        match s.rootClusterToEdgeChan with
        | [] => none
        | msg :: rest =>
            match (R.process.handleMessage msg).run s.edge with
            | .error _ => none
            | .ok (_, edge) => some { s with
                rootClusterToEdgeChan := rest
                edge := edge
                taken := s.taken ++ [msg] }
      else none
  | .shimMessage data kept =>
      if R.rootClusterEnable && R.edgeHandlerStarted then
        match R.process.unmarshal data with
        | .error _ => some s
        | .ok resp =>
            match resp.head with
            | none => none
            | some head =>
                if kept then
                  if s.rootEdgeToClusterChan.length < rootChanBuffer then
                    some { s with rootEdgeToClusterChan := s.rootEdgeToClusterChan ++ [R.named resp head] }
                  else none
                else some s
      else none
  | .report i =>
      match s.rootEdgeToClusterChan[i]? with
      | none => none
      | some msg =>
          match R.process.marshal msg with
          | .error _ => some { s with rootEdgeToClusterChan := s.rootEdgeToClusterChan.eraseIdx i }
          | .ok data =>
              R.handle { s with rootEdgeToClusterChan := s.rootEdgeToClusterChan.eraseIdx i }
                rootClusterName data
  | .child client data => R.handle s client data
  | .create name =>
      let key : ObjectKey := ⟨clusterNamespace, name⟩
      if s.stores.clusterControllers.get key = none then
        some { s with stores := { s.stores with
          clusterControllers := s.stores.clusterControllers.set key ⟨name, clusterNamespace, none⟩ } }
      else none
  | .delete name => some { s with stores := { s.stores with
      clusterControllers := s.stores.clusterControllers.delete ⟨clusterNamespace, name⟩ } }

/-- A root that has just started, with the given stores. -/
def init (stores : RootStores) (router : ClusterRouter) : RootFlow :=
  ⟨[], [], [], ⟨[], [], []⟩, ⟨router, []⟩, stores, [], []⟩

/-! ## What a step does to a root with a shim -/

variable {R} {s s' : RootFlow} {a : RootFlowAction}

variable (R) in
/-- The steps of a root with a shim of its own. -/
inductive Transition (s : RootFlow) : RootFlowAction → RootFlow → Prop
  | idle {a : RootFlowAction} : Transition s a s
  | accepted {a : RootFlowAction} {msg : WireMessage} (hhead : msg.head ≠ none) :
      Transition s a (accept s msg)
  | queued {i : ℕ} {msg : WireMessage} (hi : s.waiting[i]? = some msg)
      (hroom : s.rootClusterToEdgeChan.length < rootChanBuffer) :
      Transition s (.send i) { s with
        waiting := s.waiting.eraseIdx i
        rootClusterToEdgeChan := s.rootClusterToEdgeChan ++ [msg] }
  | taken {msg : WireMessage} {rest : List WireMessage} {ret : Option String} {edge : EdgeChannels}
      (hstarted : R.edgeHandlerStarted = true) (hchan : s.rootClusterToEdgeChan = msg :: rest)
      (hrun : (R.process.handleMessage msg).run s.edge = .ok (ret, edge)) :
      Transition s .edgeHandler { s with
        rootClusterToEdgeChan := rest
        edge := edge
        taken := s.taken ++ [msg] }
  | answered {data : List UInt8} {kept : Bool} {resp : WireMessage} {head : MessageHead} :
      Transition s (.shimMessage data kept)
        { s with rootEdgeToClusterChan := s.rootEdgeToClusterChan ++ [R.named resp head] }
  | unsent {i : ℕ} :
      Transition s (.report i) { s with rootEdgeToClusterChan := s.rootEdgeToClusterChan.eraseIdx i }
  | reported {i : ℕ} {msg : WireMessage} {data : List UInt8} {t : RootFlow}
      (hi : s.rootEdgeToClusterChan[i]? = some msg) (hmarshal : R.process.marshal msg = .ok data)
      (ht : R.handle { s with rootEdgeToClusterChan := s.rootEdgeToClusterChan.eraseIdx i }
        rootClusterName data = some t) :
      Transition s (.report i) t
  | handled {client : String} {data : List UInt8} {t : RootFlow} (ht : R.handle s client data = some t) :
      Transition s (.child client data) t
  | created {name : String} :
      Transition s (.create name) { s with stores := { s.stores with
        clusterControllers := s.stores.clusterControllers.set ⟨clusterNamespace, name⟩
          ⟨name, clusterNamespace, none⟩ } }
  | deleted {name : String} :
      Transition s (.delete name) { s with stores := { s.stores with
        clusterControllers := s.stores.clusterControllers.delete ⟨clusterNamespace, name⟩ } }

/-- A message that is accepted has a head. -/
theorem head_controllerMsgHandler {clientName : String} {data : List UInt8} {msg : WireMessage}
    (h : R.controllerMsgHandler clientName data = .ok msg) : msg.head ≠ none := by
  unfold controllerMsgHandler at h
  cases hdata : R.handler.unmarshal data with
  | error err => simp [hdata] at h
  | ok m =>
      cases hhead : m.head with
      | none => simp [hdata, hhead] at h
      | some head =>
          simp only [hdata, hhead, Except.ok.injEq] at h
          simp [← h]

theorem transition_of_send {i : ℕ} (henable : R.rootClusterEnable = true) (h : R.step s (.send i) = some s') :
    R.Transition s (.send i) s' := by
  cases hi : s.waiting[i]? with
  | none => simp [step, hi] at h
  | some msg =>
      simp only [step, hi, henable, if_true, Option.ite_none_right_eq_some, Option.some.injEq] at h
      obtain ⟨hroom, rfl⟩ := h
      exact .queued hi hroom

theorem transition_of_edgeHandler (henable : R.rootClusterEnable = true)
    (h : R.step s .edgeHandler = some s') : R.Transition s .edgeHandler s' := by
  simp only [step, henable, Bool.true_and, Option.ite_none_right_eq_some] at h
  obtain ⟨hstarted, h⟩ := h
  cases hchan : s.rootClusterToEdgeChan with
  | nil => simp [hchan] at h
  | cons msg rest =>
      cases hrun : (R.process.handleMessage msg).run s.edge with
      | error e => simp [hchan, hrun] at h
      | ok r =>
          simp only [hchan, hrun, Option.some.injEq] at h
          rw [← h]
          exact .taken hstarted hchan hrun

theorem transition_of_shimMessage {data : List UInt8} {kept : Bool} (henable : R.rootClusterEnable = true)
    (h : R.step s (.shimMessage data kept) = some s') : R.Transition s (.shimMessage data kept) s' := by
  simp only [step, henable, Bool.true_and, Option.ite_none_right_eq_some] at h
  obtain ⟨-, h⟩ := h
  cases hdata : R.process.unmarshal data with
  | error err =>
      simp only [hdata, Option.some.injEq] at h
      exact h ▸ .idle
  | ok resp =>
      cases hhead : resp.head with
      | none => simp [hdata, hhead] at h
      | some head =>
          cases kept with
          | true =>
              simp only [hdata, hhead, if_true, Option.ite_none_right_eq_some, Option.some.injEq] at h
              rw [← h.2]
              exact .answered
          | false =>
              simp only [hdata, hhead, Bool.false_eq_true, if_false, Option.some.injEq] at h
              exact h ▸ .idle

/-- Handling a message changes the stores and the routes. -/
theorem eq_of_handle {client : String} {data : List UInt8} (h : R.handle s client data = some s') :
    ∃ ret router, (R.handler.handleMessageFromChild client data).run s.stores = .ok (ret, s'.stores) ∧
      s' = { s with stores := s'.stores, links := { s.links with router := router } } := by
  unfold handle at h
  cases hrun : (R.handler.handleMessageFromChild client data).run s.stores with
  | error e => simp [hrun] at h
  | ok r =>
      simp only [hrun, Option.some.injEq] at h
      rw [← h]
      exact ⟨r.1, _, rfl, rfl⟩

theorem transition_of_report {i : ℕ} (h : R.step s (.report i) = some s') :
    R.Transition s (.report i) s' := by
  cases hi : s.rootEdgeToClusterChan[i]? with
  | none => simp [step, hi] at h
  | some msg =>
      cases hmarshal : R.process.marshal msg with
      | error err =>
          simp only [step, hi, hmarshal, Option.some.injEq] at h
          rw [← h]
          exact .unsent
      | ok data =>
          simp only [step, hi, hmarshal] at h
          exact .reported hi hmarshal h

theorem transition_of_step (henable : R.rootClusterEnable = true) (h : R.step s a = some s') :
    R.Transition s a s' := by
  cases a with
  | controllerMsg clientName data =>
      cases hmsg : R.controllerMsgHandler clientName data with
      | error err =>
          simp only [step, hmsg, Option.some.injEq] at h
          exact h ▸ .idle
      | ok msg =>
          simp only [step, hmsg, Option.some.injEq] at h
          rw [← h]
          exact .accepted (head_controllerMsgHandler hmsg)
  | clusterController name clusterSelector task =>
      simp only [step, henable, if_true, Option.some.injEq] at h
      rw [← h]
      exact .accepted (by simp [clusterControllerMessage])
  | send i => exact transition_of_send henable h
  | edgeHandler => exact transition_of_edgeHandler henable h
  | shimMessage data kept => exact transition_of_shimMessage henable h
  | report i => exact transition_of_report h
  | child client data => exact .handled h
  | create name =>
      obtain ⟨-, h⟩ := Option.ite_none_right_eq_some.mp h
      obtain rfl := Option.some.inj h
      exact .created
  | delete name =>
      obtain rfl := Option.some.inj h
      exact .deleted

/-! ## From the manager to the shim -/

variable (R) in
/-- The bytes that the shim client is given for a message: requests and lists of requests, if they can be
encoded. -/
def request (msg : WireMessage) : Option (List UInt8) :=
  match msg.head with
  | none => none
  | some head =>
      if head.command = .controlReq ∨ head.command = .controlMultiReq then (R.process.marshal msg).toOption
      else none

/-- The edge handler gives a message to the shim client, whatever its selector. -/
theorem run_handleMessage (hshim : R.process.shimClient = .remoteShim) {msg : WireMessage}
    (hhead : msg.head ≠ none) (edge : EdgeChannels) :
    ∃ ret, (R.process.handleMessage msg).run edge =
      .ok (ret, { edge with shimRequests := edge.shimRequests ++ (R.request msg).toList }) := by
  obtain ⟨head, hsome⟩ := Option.ne_none_iff_exists'.mp hhead
  obtain ⟨_, body⟩ := msg
  obtain rfl : _ = some head := hsome
  by_cases hcommand : head.command = .controlReq ∨ head.command = .controlMultiReq
  · cases hmarshal : R.process.marshal ⟨some head, body⟩ with
    | ok data =>
        rw [EdgeProcess.run_handleMessage_remote hshim hcommand hmarshal]
        simp [request, hcommand, hmarshal, Except.toOption]
    | error err =>
        have hnone : R.request ⟨some head, body⟩ = none := by
          simp [request, hmarshal, Except.toOption]
        refine ⟨some ("marshal shim request failed: " ++ err), ?_⟩
        rw [hnone]
        rcases hcommand with hcommand | hcommand
        all_goals
          simp only [EdgeProcess.handleMessage, EdgeProcess.shimDo, hcommand, hshim, hmarshal,
            StateT.run_bind, Go.run_deref_some, Go.ok_bind, Go.run_pure, Option.toList_none, List.append_nil]
  · rw [EdgeProcess.run_handleMessage_unsupported R.process hcommand]
    simp [request, hcommand]

variable (R) in
/-- What holds along every run of a root with a shim. -/
structure Flows (s : RootFlow) : Prop where
  heads : ∀ msg ∈ s.accepted, msg.head ≠ none
  sent : s.links.sent = []
  accounted : s.accepted.Perm (s.waiting ++ s.rootClusterToEdgeChan ++ s.taken)
  requests : s.edge.shimRequests = s.taken.filterMap R.request
  room : s.rootClusterToEdgeChan.length ≤ rootChanBuffer
  electing : R.leaderElection = true → s.taken = []

theorem flows_init (stores : RootStores) (router : ClusterRouter) : R.Flows (init stores router) where
  heads := by simp [init]
  sent := rfl
  accounted := List.Perm.nil
  requests := rfl
  room := Nat.zero_le _
  electing _ := rfl

theorem shimClient_of_enable (henable : R.rootClusterEnable = true) : R.process.shimClient = .remoteShim :=
  R.shimClient_eq (of_decide_eq_true henable)

theorem Flows.accept (h : R.Flows s) {msg : WireMessage} (hhead : msg.head ≠ none) :
    R.Flows (RootController.accept s msg) where
  heads := by
    intro m hm
    rcases List.mem_append.mp hm with hm | hm
    · exact h.heads m hm
    · exact List.mem_singleton.mp hm ▸ hhead
  sent := h.sent
  accounted := by
    have hmid : (s.waiting ++ [msg] ++ s.rootClusterToEdgeChan ++ s.taken).Perm
        (s.waiting ++ s.rootClusterToEdgeChan ++ s.taken ++ [msg]) := by
      rw [List.append_assoc, List.append_assoc, List.append_assoc s.waiting, List.append_assoc s.waiting,
        List.append_assoc, ← List.append_assoc s.rootClusterToEdgeChan]
      exact List.perm_append_comm.append_left s.waiting
    exact (h.accounted.append_right [msg]).trans hmid.symm
  requests := h.requests
  room := h.room
  electing := h.electing

theorem Flows.queue (h : R.Flows s) {i : ℕ} {msg : WireMessage} (hi : s.waiting[i]? = some msg)
    (hroom : s.rootClusterToEdgeChan.length < rootChanBuffer) : R.Flows { s with
      waiting := s.waiting.eraseIdx i
      rootClusterToEdgeChan := s.rootClusterToEdgeChan ++ [msg] } where
  heads := h.heads
  sent := h.sent
  accounted := by
    obtain ⟨hlt, hget⟩ := List.getElem?_eq_some_iff.mp hi
    have hout : s.waiting.Perm (s.waiting.eraseIdx i ++ [msg]) := by
      have hcons := List.getElem_cons_eraseIdx_perm hlt
      rw [hget] at hcons
      exact hcons.symm.trans (List.perm_append_singleton msg _).symm
    have hmove := (hout.append_right s.rootClusterToEdgeChan).append_right s.taken
    rw [List.append_assoc (s.waiting.eraseIdx i)] at hmove
    have hswap : (s.waiting.eraseIdx i ++ ([msg] ++ s.rootClusterToEdgeChan) ++ s.taken).Perm
        (s.waiting.eraseIdx i ++ (s.rootClusterToEdgeChan ++ [msg]) ++ s.taken) :=
      (List.perm_append_comm.append_left _).append_right _
    exact h.accounted.trans (hmove.trans hswap)
  requests := h.requests
  room := by
    rw [List.length_append]
    exact hroom
  electing := h.electing

theorem Flows.take (h : R.Flows s) (henable : R.rootClusterEnable = true)
    (hstarted : R.edgeHandlerStarted = true) {msg : WireMessage} {rest : List WireMessage}
    {ret : Option String} {edge : EdgeChannels} (hchan : s.rootClusterToEdgeChan = msg :: rest)
    (hrun : (R.process.handleMessage msg).run s.edge = .ok (ret, edge)) : R.Flows { s with
      rootClusterToEdgeChan := rest
      edge := edge
      taken := s.taken ++ [msg] } where
  heads := h.heads
  sent := h.sent
  accounted := by
    have hperm := h.accounted
    rw [hchan] at hperm
    have hmove : (s.waiting ++ msg :: rest ++ s.taken).Perm (s.waiting ++ rest ++ (s.taken ++ [msg])) := by
      rw [← List.append_assoc]
      have hcons : (s.waiting ++ msg :: rest ++ s.taken).Perm (msg :: (s.waiting ++ rest ++ s.taken)) :=
        List.perm_middle.append_right s.taken
      exact hcons.trans (List.perm_append_singleton msg _).symm
    exact hperm.trans hmove
  requests := by
    have hmem : msg ∈ s.accepted := h.accounted.mem_iff.mpr (by simp [hchan])
    obtain ⟨ret', hgiven⟩ := run_handleMessage (shimClient_of_enable henable) (h.heads msg hmem) s.edge
    rw [hrun] at hgiven
    obtain ⟨-, rfl⟩ := Prod.mk.inj (Except.ok.inj hgiven)
    rw [List.filterMap_append, ← h.requests]
    cases hreq : R.request msg <;> simp [hreq]
  room := by
    have hroom := h.room
    rw [hchan, List.length_cons] at hroom
    exact Nat.le_of_succ_le hroom
  electing helect := by
    rw [edgeHandlerStarted, helect] at hstarted
    cases hstarted

theorem Flows.handle (h : R.Flows s) {client : String} {data : List UInt8}
    (hs' : R.handle s client data = some s') : R.Flows s' := by
  obtain ⟨-, router, -, heq⟩ := eq_of_handle hs'
  rw [heq]
  exact ⟨h.heads, h.sent, h.accounted, h.requests, h.room, h.electing⟩

theorem Flows.step (h : R.Flows s) (henable : R.rootClusterEnable = true) (hstep : R.step s a = some s') :
    R.Flows s' := by
  cases transition_of_step henable hstep with
  | idle => exact h
  | accepted hhead => exact h.accept hhead
  | queued hi hroom => exact h.queue hi hroom
  | taken hstarted hchan hrun => exact h.take henable hstarted hchan hrun
  | answered => exact ⟨h.heads, h.sent, h.accounted, h.requests, h.room, h.electing⟩
  | unsent => exact ⟨h.heads, h.sent, h.accounted, h.requests, h.room, h.electing⟩
  | @reported i _ _ _ _ _ ht =>
      have herased : R.Flows { s with rootEdgeToClusterChan := s.rootEdgeToClusterChan.eraseIdx i } :=
        ⟨h.heads, h.sent, h.accounted, h.requests, h.room, h.electing⟩
      exact herased.handle ht
  | handled ht => exact h.handle ht
  | created => exact ⟨h.heads, h.sent, h.accounted, h.requests, h.room, h.electing⟩
  | deleted => exact ⟨h.heads, h.sent, h.accounted, h.requests, h.room, h.electing⟩

theorem flows_of_run (henable : R.rootClusterEnable = true) {stores : RootStores} {router : ClusterRouter}
    {as : List RootFlowAction} (hrun : runSteps R.step (init stores router) as = some s) : R.Flows s :=
  runSteps_invariant (fun h hstep => Flows.step h henable hstep) (flows_init stores router) hrun

/-- The edge handler can take the next message. -/
theorem Flows.can_take (h : R.Flows s) (henable : R.rootClusterEnable = true)
    (hstarted : R.edgeHandlerStarted = true) {msg : WireMessage} {rest : List WireMessage}
    (hchan : s.rootClusterToEdgeChan = msg :: rest) :
    ∃ t, R.step s .edgeHandler = some t ∧ t.rootClusterToEdgeChan = rest ∧ t.waiting = s.waiting ∧
      t.accepted = s.accepted := by
  have hmem : msg ∈ s.accepted := h.accounted.mem_iff.mpr (by simp [hchan])
  obtain ⟨ret, hrun⟩ := run_handleMessage (shimClient_of_enable henable) (h.heads msg hmem) s.edge
  have hstep : R.step s .edgeHandler = some { s with
      rootClusterToEdgeChan := rest
      edge := { s.edge with shimRequests := s.edge.shimRequests ++ (R.request msg).toList }
      taken := s.taken ++ [msg] } := by
    simp only [RootController.step, henable, hstarted, Bool.true_and, if_true, hchan, hrun]
  exact ⟨_, hstep, rfl, rfl, rfl⟩

/-- All that is in the channel can be taken. -/
theorem Flows.can_empty (henable : R.rootClusterEnable = true) (hstarted : R.edgeHandlerStarted = true) :
    ∀ {n : ℕ} {s : RootFlow}, R.Flows s → s.rootClusterToEdgeChan.length = n →
      ∃ as t, as.length = n ∧ runSteps R.step s as = some t ∧ t.rootClusterToEdgeChan = [] ∧
        t.waiting = s.waiting ∧ t.accepted = s.accepted
  | 0, s, _, hlen => ⟨[], s, rfl, rfl, List.length_eq_zero_iff.mp hlen, rfl, rfl⟩
  | n + 1, s, h, hlen => by
      obtain ⟨msg, rest, hchan⟩ := List.exists_cons_of_length_eq_add_one hlen
      obtain ⟨u, hstep, huchan, huwaiting, huaccepted⟩ := h.can_take henable hstarted hchan
      have hulen : u.rootClusterToEdgeChan.length = n := by
        rw [hchan, List.length_cons] at hlen
        rw [huchan]
        exact Nat.succ.inj hlen
      obtain ⟨as, t, has, hrun, hchan', hwaiting, haccepted⟩ :=
        Flows.can_empty henable hstarted (h.step henable hstep) hulen
      exact ⟨.edgeHandler :: as, t, congrArg (· + 1) has, Lib.runSteps_cons.mpr ⟨u, hstep, hrun⟩, hchan',
        hwaiting.trans huwaiting, haccepted.trans huaccepted⟩

/-- All that waits can go through the empty channel and be taken. -/
theorem Flows.can_finish (henable : R.rootClusterEnable = true) (hstarted : R.edgeHandlerStarted = true) :
    ∀ {n : ℕ} {s : RootFlow}, R.Flows s → s.rootClusterToEdgeChan = [] → s.waiting.length = n →
      ∃ as t, as.length = 2 * n ∧ runSteps R.step s as = some t ∧ t.rootClusterToEdgeChan = [] ∧
        t.waiting = [] ∧ t.accepted = s.accepted
  | 0, s, _, hchan, hlen => ⟨[], s, rfl, rfl, hchan, List.length_eq_zero_iff.mp hlen, rfl⟩
  | n + 1, s, h, hchan, hlen => by
      obtain ⟨msg, rest, hwaiting⟩ := List.exists_cons_of_length_eq_add_one hlen
      let u : RootFlow := { s with waiting := rest, rootClusterToEdgeChan := [msg] }
      have hsend : R.step s (.send 0) = some u := by
        simp [RootController.step, hwaiting, henable, hchan, rootChanBuffer, u]
      have hu : R.Flows u := h.step henable hsend
      obtain ⟨v, htake, hvchan, hvwaiting, hvaccepted⟩ := hu.can_take henable hstarted (rfl : _ = [msg])
      have hvlen : v.waiting.length = n := by
        rw [hwaiting, List.length_cons] at hlen
        rw [hvwaiting]
        exact Nat.succ.inj hlen
      obtain ⟨as, t, has, hrun, hchan', hwaiting', haccepted⟩ :=
        Flows.can_finish henable hstarted (hu.step henable htake) hvchan hvlen
      refine ⟨.send 0 :: .edgeHandler :: as, t, ?_, ?_, hchan', hwaiting', haccepted.trans hvaccepted⟩
      · simp only [List.length_cons, has]
        omega
      · exact Lib.runSteps_cons.mpr ⟨u, hsend, Lib.runSteps_cons.mpr ⟨v, htake, hrun⟩⟩

/-- With nothing on its way, the shim client has been given all requests that were accepted. -/
theorem Flows.all_given (h : R.Flows s) (hchan : s.rootClusterToEdgeChan = []) (hwaiting : s.waiting = []) :
    s.edge.shimRequests.Perm (s.accepted.filterMap R.request) := by
  have hperm := h.accounted
  rw [hchan, hwaiting] at hperm
  rw [h.requests]
  exact (hperm.filterMap R.request).symm

/-- In every run of a root with a shim that elects no leader: no child is sent a task or a message of a manager,
every accepted message is waiting, in the channel or taken, the shim client has been given the requests among
those taken, in their order and whatever their selectors, and two steps for each message that waits and one for
each in the channel give it all the requests that were accepted. -/
theorem root_shim_gets_all (R : RootController) (henable : R.rootClusterEnable = true)
    (helect : R.leaderElection = false) {stores : RootStores} {router : ClusterRouter}
    {as : List RootFlowAction} (hrun : runSteps R.step (init stores router) as = some s) :
    s.links.sent = [] ∧ s.accepted.Perm (s.waiting ++ s.rootClusterToEdgeChan ++ s.taken) ∧
      s.edge.shimRequests = s.taken.filterMap R.request ∧
      ∃ bs t, bs.length = s.rootClusterToEdgeChan.length + 2 * s.waiting.length ∧
        runSteps R.step s bs = some t ∧ t.edge.shimRequests.Perm (s.accepted.filterMap R.request) := by
  have hs := flows_of_run henable hrun
  have hstarted : R.edgeHandlerStarted = true := by simp [edgeHandlerStarted, helect]
  refine ⟨hs.sent, hs.accounted, hs.requests, ?_⟩
  obtain ⟨bs, u, hbs, hu, huchan, huwaiting, huaccepted⟩ := Flows.can_empty henable hstarted hs rfl
  have hflows : R.Flows u :=
    runSteps_invariant (fun h hstep => Flows.step h henable hstep) hs hu
  obtain ⟨cs, t, hcs, ht, htchan, htwaiting, htaccepted⟩ :=
    Flows.can_finish henable hstarted hflows huchan (congrArg List.length huwaiting)
  have hflowt : R.Flows t :=
    runSteps_invariant (fun h hstep => Flows.step h henable hstep) hflows ht
  refine ⟨bs ++ cs, t, ?_, runSteps_append hu ht, ?_⟩
  · rw [List.length_append, hbs, hcs]
  · rw [← huaccepted, ← htaccepted]
    exact hflowt.all_given htchan htwaiting

/-- In every run of a root with a shim that elects a leader, neither a child nor the shim client is given a task
or a message of a manager, and all accepted messages but those that fit into the channel hold up their
goroutines. -/
theorem electing_root_gets_stuck (R : RootController) (henable : R.rootClusterEnable = true)
    (helect : R.leaderElection = true) {stores : RootStores} {router : ClusterRouter}
    {as : List RootFlowAction} (hrun : runSteps R.step (init stores router) as = some s) :
    s.links.sent = [] ∧ s.edge.shimRequests = [] ∧
      s.accepted.Perm (s.waiting ++ s.rootClusterToEdgeChan) ∧
      s.accepted.length ≤ s.waiting.length + rootChanBuffer := by
  have hs := flows_of_run henable hrun
  have hperm := hs.accounted
  have hrequests := hs.requests
  rw [hs.electing helect] at hperm hrequests
  rw [List.append_nil] at hperm
  refine ⟨hs.sent, hrequests, hperm, ?_⟩
  rw [hperm.length_eq, List.length_append]
  exact Nat.add_le_add_left hs.room _

/-! ## A task for a child -/

/-- A request for the cluster `child`, and the answer of the root's shim to it. -/
def taskForChild : WireMessage := ⟨some ⟨"task", .controlReq, "child", "", "root"⟩, [7]⟩

def answerOfRoot : WireMessage := ⟨some ⟨"task", .controlResp, "child", "root", "root"⟩, []⟩

/-- An encoding of these two messages. -/
def encodeTwo (msg : WireMessage) : Except String (List UInt8) :=
  if msg = taskForChild then .ok [1] else if msg = answerOfRoot then .ok [2] else .error "unknown message"

def decodeTwo (data : List UInt8) : Except String WireMessage :=
  if data = [1] then .ok taskForChild else if data = [2] then .ok answerOfRoot else .error "unexpected EOF"

theorem decodeTwo_of_encodeTwo (msg : WireMessage) (data : List UInt8) (h : encodeTwo msg = .ok data) :
    decodeTwo data = .ok msg := by
  unfold encodeTwo at h
  split at h
  case isTrue hmsg =>
    obtain rfl := Except.ok.inj h
    rw [hmsg]
    rfl
  case isFalse =>
    split at h
    case isTrue hmsg =>
      obtain rfl := Except.ok.inj h
      rw [hmsg]
      rfl
    case isFalse => cases h

/-- A root with a shim. -/
def rootWithShim (leaderElection : Bool) : RootController where
  process := { EdgeProcess.leafProcess with
    edge := { EdgeHandler.localEdge with clusterName := "root" }
    shimClient := .remoteShim
    unmarshal := decodeTwo
    marshal := encodeTwo }
  handler := { RootHandler.rootOfResponse with
    unmarshal := decodeTwo
    controllerTaskResponse := fun _ => .ok ⟨5, 200, "done"⟩ }
  remoteShimAddr := ":8262"
  leaderElection := leaderElection
  shimClient_eq _ := rfl
  unmarshal_marshal := decodeTwo_of_encodeTwo

/-- The root, with nothing in its stores. -/
def emptyRoot : RootFlow := init ⟨rootOfC1, ∅, []⟩ defaultClusterRouter

/-- The task comes from a manager and as a ClusterController, and one of the two is taken. -/
def taskTwice : List RootFlowAction :=
  [.create "task", .controllerMsg "manager" [1], .clusterController "task" "child" [7], .send 1, .edgeHandler]

theorem root_shim_gets_all_task : ∃ s, runSteps (rootWithShim false).step emptyRoot taskTwice = some s ∧
    s.edge.shimRequests = [[1]] ∧ s.waiting = [taskForChild] ∧
    ∃ bs t, bs.length = 2 ∧ runSteps (rootWithShim false).step s bs = some t ∧
      t.edge.shimRequests.Perm (s.accepted.filterMap (rootWithShim false).request) := by
  have hsome : (runSteps (rootWithShim false).step emptyRoot taskTwice).isSome = true := by decide
  obtain ⟨s, hrun⟩ := Option.isSome_iff_exists.mp hsome
  have hend : ∀ s ∈ runSteps (rootWithShim false).step emptyRoot taskTwice,
      s.edge.shimRequests = [[1]] ∧ s.waiting = [taskForChild] ∧ s.rootClusterToEdgeChan = [] := by decide
  obtain ⟨hrequests, hwaiting, hchan⟩ := hend s hrun
  obtain ⟨-, -, -, bs, t, hbs, ht, hall⟩ :=
    root_shim_gets_all (rootWithShim false) (by decide) (by decide) hrun
  rw [hchan, hwaiting] at hbs
  exact ⟨s, hrun, hrequests, hwaiting, bs, t, hbs, ht, hall⟩

theorem electing_root_gets_stuck_task :
    ∃ s, runSteps (rootWithShim true).step emptyRoot (taskTwice.take 4) = some s ∧
      s.accepted.length = 2 ∧ s.links.sent = [] ∧ s.edge.shimRequests = [] ∧
      s.accepted.Perm (s.waiting ++ s.rootClusterToEdgeChan) := by
  have hsome : (runSteps (rootWithShim true).step emptyRoot (taskTwice.take 4)).isSome = true := by decide
  obtain ⟨s, hrun⟩ := Option.isSome_iff_exists.mp hsome
  have hend : ∀ s ∈ runSteps (rootWithShim true).step emptyRoot (taskTwice.take 4),
      s.accepted.length = 2 := by decide
  obtain ⟨hsent, hrequests, hperm, -⟩ :=
    electing_root_gets_stuck (rootWithShim true) (by decide) (by decide) hrun
  exact ⟨s, hrun, hend s hrun, hsent, hrequests, hperm⟩

end RootController

end OteStack
