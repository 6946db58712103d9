/-
# OteStack.EdgeHandler.ShimModes — a request through the local shim and through the remote one.

A cluster controller carries out a request itself (`localShimClient`) or sends it to a shim server with the
same handlers (`remoteShimClient`).  With a local shim `handleMessage` gets the error of the dispatch and
replaces the body of the response by it, with the status 500.  The shim server logs the error and sends the
response as the handler has made it, which goes to the parent unchanged.

So the parent reads the same status and body exactly if there is no error to put there, or the response is a
500 with that text already (`shim_modes_alike_iff`).
-/
import Mathlib.Data.Countable.Basic
import Mathlib.Logic.Equiv.List
import Mathlib.Tactic.DeriveCountable
import OteStack.EdgeHandler.ParentBytes

namespace OteStack

open OteStack.Lib (Go GoMap MapOrder Panic Proc)
open OteStack.EdgeHandler (Handler Memory Ptr controlRequest controlTaskResponse emptyHead responseErrorStatus
  serve)

/-! ## The answer of the local shim -/

namespace Shim

variable (e : EdgeHandler)

/-- The body of the response that `handleMessage` sends: the error replaces what the handler has made. -/
def replyBody (err : Option String) (resp : List UInt8) : List UInt8 :=
  match err with
  | some err => responseErrorStatus e err
  | none => resp

/-- The body that it sends for an outcome. -/
def reply (o : Outcome) : List UInt8 := replyBody e o.err (controlTaskResponse e o.statusCode o.body)

/-- Status and body of that response. -/
def Outcome.reported (o : Outcome) : Int × String :=
  match o.err with
  | some err => (500, err)
  | none => (o.statusCode, o.body)

/-- The head of a response of this cluster. -/
def replyHead (head : MessageHead) : MessageHead :=
  { head with command := .controlResp, clusterName := e.clusterName }

/-- The error of the server behind a handler, if it does not answer a task. -/
def sendError (h : Handler) (task : ControllerTask) : Option String :=
  match h with
  | .k8s _ => none
  | .httpProxy addr send =>
      match send (addr ++ task.uri) task with
      | .error err => some err
      | .ok _ => none

/-- A handler has no error to report, or has made a response with that error, exactly if it knows the method
and the server behind it answers, or fails with an empty text. -/
theorem reported_handlerOutcome_iff (h : Handler) (task : ControllerTask) :
    (handlerOutcome h task).reported = ((handlerOutcome h task).statusCode, (handlerOutcome h task).body) ↔
      task.method ∈ h.methods ∧ ∀ err ∈ sendError h task, err = "" := by
  by_cases hmethod : task.method ∈ h.methods
  · cases h with
    | k8s rest => simp [handlerOutcome, hmethod, Outcome.reported, sendError]
    | httpProxy addr send =>
        cases hsend : send (addr ++ task.uri) task <;>
          simp [handlerOutcome, hmethod, hsend, Outcome.reported, sendError]
  · simp [handlerOutcome, hmethod, Outcome.reported]

/-- What `handleMessage` sends, once the shim client has answered. -/
theorem sendToParentChan_of_run {e : EdgeHandler} {m m' : Memory} {p q : Ptr} {head h : MessageHead}
    {body resp : List UInt8} {err : Option String} (hhead : m.heads[p]? = some head)
    (hcommand : head.command = .controlReq)
    (hrun : Proc.run serve (EdgeHandler.shimControlRequest e ⟨p, body⟩) m = ((some ⟨q, resp⟩, err), m'))
    (hresp : m'.heads[q]? = some h) :
    (Proc.run serve (EdgeHandler.handleMessage e ⟨p, body⟩) m).2.sendToParentChan =
      m'.sendToParentChan ++ [⟨{ h with clusterName := e.clusterName }, replyBody e err resp⟩] := by
  have hget : m.heads.getD p emptyHead = head := by simp [List.getD, hhead]
  have hshim : Proc.run serve (EdgeHandler.shimDo e ⟨p, body⟩) m = ((some ⟨q, resp⟩, err), m') := by
    simp only [EdgeHandler.shimDo, Proc.run_do, EdgeHandler.run_readHead, hget, hcommand, hrun]
  simp only [EdgeHandler.handleMessage, Proc.run_do, EdgeHandler.run_readHead, hget, hcommand, hshim,
    EdgeHandler.run_setClusterName, EdgeHandler.sendToParent, Proc.run_pure]
  cases err <;> simp [Proc.run, serve, Memory.assign, hresp, hshim, replyBody]

/-- The program over a memory of heads, in which a request and its response share one, sends the same
response. -/
theorem sendToParentChan_handleMessage (e : EdgeHandler) {m : Memory} {p : Ptr} {head : MessageHead}
    (hhead : m.heads[p]? = some head) (hcommand : head.command = .controlReq) (body : List UInt8) :
    (Proc.run serve (EdgeHandler.handleMessage e ⟨p, body⟩) m).2.sendToParentChan =
      m.sendToParentChan ++ [⟨replyHead e head, reply e (outcome e localTexts body)⟩] := by
  obtain ⟨hp, -⟩ := List.getElem?_eq_some_iff.mp hhead
  by_cases hnone : ∀ task ∈ e.controllerTask body, e.handlers.get task.destination = none
  · obtain ⟨hrun, -⟩ := EdgeHandler.shimControlRequest_of_none e hhead hnone
    have hresp : (EdgeHandler.cloned m head).heads[m.heads.length]? =
        some { head with command := .controlResp } := by simp [EdgeHandler.cloned]
    rw [sendToParentChan_of_run hhead hcommand hrun hresp, reply, outcome]
    cases htask : e.controllerTask body with
    | none => rfl
    | some task =>
        dsimp only
        rw [hnone task htask]
        rfl
  · push Not at hnone
    obtain ⟨task, htask, hne⟩ := hnone
    obtain ⟨h, hhandler⟩ := Option.ne_none_iff_exists'.mp hne
    obtain ⟨hrun, -⟩ := EdgeHandler.shimControlRequest_of_some e hhead hcommand htask hhandler
    have hresp :
        ((EdgeHandler.cloned m head).assign p fun h => { h with command := .controlResp }).heads[p]? =
          some { head with command := .controlResp } := by
      simp [EdgeHandler.cloned, Memory.assign, List.getElem?_append_left hp, hhead]
    rw [sendToParentChan_of_run hhead hcommand hrun hresp, reply, outcome, htask,
      doControlRequest_handler htask]
    dsimp only
    rw [hhandler]
    rfl

end Shim

namespace EdgeProcess

variable {x : EdgeProcess} {head : MessageHead} {data : List UInt8}

theorem run_sendToParent {msg : WireMessage} (hmarshal : x.marshal msg = .ok data) (s : EdgeChannels) :
    (x.sendToParent msg).run s =
      .ok (none, { s with sendToParentChan := s.sendToParentChan ++ [data] }) := by
  simp only [sendToParent, hmarshal]
  rfl

/-- With a local shim a request is answered at once. -/
theorem run_handleMessage_local (hshim : x.shimClient = .localShim) (hcommand : head.command = .controlReq)
    (body : List UInt8) (hmarshal : x.marshal ⟨some (Shim.replyHead x.edge head),
      Shim.reply x.edge (Shim.outcome x.edge Shim.localTexts body)⟩ = .ok data) (s : EdgeChannels) :
    (x.handleMessage ⟨some head, body⟩).run s =
      .ok (none, { s with sendToParentChan := s.sendToParentChan ++ [data] }) := by
  simp only [handleMessage, hcommand, StateT.run_bind, Go.run_deref_some, Go.ok_bind,
    run_shimDo_local hshim hcommand body s]
  exact run_sendToParent hmarshal s

/-- A list of tasks is never answered. -/
theorem run_handleMessage_local_multi (hshim : x.shimClient = .localShim)
    (hcommand : head.command = .controlMultiReq) (body : List UInt8) (s : EdgeChannels) :
    ∃ ret, (x.handleMessage ⟨some head, body⟩).run s = .ok (ret, s) := by
  have hne : head.command ≠ .controlReq := by simp [hcommand]
  obtain ⟨err, herr⟩ := Shim.run_doWith_of_ne x.edge Shim.localTexts hne body s
  refine ⟨err, ?_⟩
  simp only [handleMessage, hcommand, shimDo, hshim, Shim.localDo, StateT.run_bind, Go.run_deref_some,
    Go.ok_bind, herr, Go.run_pure]

/-- With a remote shim a request is written to the server. -/
theorem run_handleMessage_remote (hshim : x.shimClient = .remoteShim)
    (hcommand : head.command = .controlReq ∨ head.command = .controlMultiReq) {body : List UInt8}
    (hmarshal : x.marshal ⟨some head, body⟩ = .ok data) (s : EdgeChannels) :
    (x.handleMessage ⟨some head, body⟩).run s =
      .ok (none, { s with shimRequests := s.shimRequests ++ [data] }) := by
  rcases hcommand with hcommand | hcommand
  all_goals
    simp only [handleMessage, hcommand, shimDo, hshim, hmarshal, StateT.run_bind, Go.run_deref_some,
      Go.ok_bind]
    rfl

/-- Other commands are not supported. -/
theorem run_handleMessage_unsupported (x : EdgeProcess)
    (hcommand : ¬ (head.command = .controlReq ∨ head.command = .controlMultiReq)) (body : List UInt8)
    (s : EdgeChannels) : (x.handleMessage ⟨some head, body⟩).run s = .ok (none, s) := by
  simp only [handleMessage, StateT.run_bind, Go.run_deref_some, Go.ok_bind]
  split
  · exact absurd (Or.inl ‹_›) hcommand
  · exact absurd (Or.inr ‹_›) hcommand
  · rfl

/-! ## The way through the shim server -/

variable (x) in
/-- A round of Go's `handleRespFromShimClient`. -/
def handleRespFromShimClient (resp : WireMessage) : Go EdgeChannels Unit := do
  let head ← Go.deref resp.head
  let _ ← x.sendToParent { resp with head := some { head with clusterName := x.edge.clusterName } }
  return ()

variable (x) in
/-- A round of Go's `handleReceiveMessage` of the remote shim client, and what becomes of the response. -/
def handleReceiveMessage (data : List UInt8) : Go EdgeChannels Unit :=
  match x.unmarshal data with
  | .error _ => return ()
  | .ok resp => x.handleRespFromShimClient resp

/-- A response of the shim server goes to the parent. -/
theorem run_handleReceiveMessage {body resp : List UInt8} (hdata : x.unmarshal data = .ok ⟨some head, body⟩)
    (hmarshal : x.marshal ⟨some { head with clusterName := x.edge.clusterName }, body⟩ = .ok resp)
    (s : EdgeChannels) :
    (x.handleReceiveMessage data).run s =
      .ok ((), { s with sendToParentChan := s.sendToParentChan ++ [resp] }) := by
  simp only [handleReceiveMessage, hdata, handleRespFromShimClient, StateT.run_bind, Go.run_deref_some,
    Go.ok_bind, run_sendToParent hmarshal, Go.run_pure]

end EdgeProcess

namespace ShimServer

variable {x : ShimServer} {head : MessageHead} {data body : List UInt8}

/-- The shim server answers a request with its outcome, error or not. -/
theorem run_handleReadMessage (hdata : x.unmarshal data = .ok ⟨some head, body⟩)
    (hcommand : head.command = .controlReq) {resp : List UInt8}
    (hmarshal : x.marshal ⟨some { head with command := .controlResp },
      controlTaskResponse x.shim (Shim.outcome x.shim Shim.serverTexts body).statusCode
        (Shim.outcome x.shim Shim.serverTexts body).body⟩ = .ok resp)
    (client : String) (written : List (List UInt8)) :
    (x.handleReadMessage data).run ⟨some client, written⟩ = .ok ((), ⟨some client, written ++ [resp]⟩) := by
  simp only [handleReadMessage, hdata, Shim.serverDo, StateT.run_bind,
    Shim.run_doWith_controlReq x.shim Shim.serverTexts hcommand, Go.ok_bind, hmarshal, Go.run_get,
    Go.run_deref_some]
  rfl

theorem run_handleReadMessage_of_ne (hdata : x.unmarshal data = .ok ⟨some head, body⟩)
    (hcommand : head.command ≠ .controlReq) (s : ShimConnection) :
    (x.handleReadMessage data).run s = .ok ((), s) := by
  obtain ⟨err, herr⟩ := Shim.run_doWith_of_ne x.shim Shim.serverTexts hcommand body s
  simp only [handleReadMessage, hdata, Shim.serverDo, StateT.run_bind, herr, Go.ok_bind, Go.run_pure]

end ShimServer

/-! ## The two ways compared -/

/-- The commands of the messages that a shim is sent and that come back from it. -/
def CommandType.OfShim (c : CommandType) : Prop := c = .controlReq ∨ c = .controlMultiReq ∨ c = .controlResp

/-- The response fits into the `int64` and the `int32` of its message. -/
def ControllerTaskResponse.Fits (resp : ControllerTaskResponse) : Prop :=
  (-2 ^ 63 ≤ resp.timestamp ∧ resp.timestamp < 2 ^ 63) ∧ -2 ^ 31 ≤ resp.statusCode ∧ resp.statusCode < 2 ^ 31

/-- A cluster controller and its handlers.  The shim server has the same handlers and a clock of its own;
times and status codes fit into the messages.  Messages arrive as they were sent, and the parent can read a
response. -/
structure ShimModes where
  process : EdgeProcess
  serverNow : Int
  lossless : ∀ head body, CommandType.OfShim head.command →
    ∃ data, process.marshal ⟨some head, body⟩ = .ok data ∧ process.unmarshal data = .ok ⟨some head, body⟩
  response : List UInt8 → Option ControllerTaskResponse
  response_marshal : ∀ resp, resp.Fits → response (process.edge.marshal resp) = some resp
  now_fits : ∀ now ∈ [process.edge.now, serverNow], -2 ^ 63 ≤ now ∧ now < 2 ^ 63
  codes_fit : ∀ destination h task, process.edge.handlers.get destination = some h →
    -2 ^ 31 ≤ (Shim.handlerOutcome h task).statusCode ∧ (Shim.handlerOutcome h task).statusCode < 2 ^ 31

namespace ShimModes

variable (x : ShimModes)

/-- The cluster controller with a local shim. -/
def localProcess : EdgeProcess := { x.process with shimClient := .localShim }

/-- The cluster controller with a remote shim. -/
def remoteProcess : EdgeProcess := { x.process with shimClient := .remoteShim }

/-- The shim server. -/
def server : ShimServer :=
  ⟨{ x.process.edge with now := x.serverNow }, x.process.unmarshal, x.process.marshal⟩

/-- What a message makes the controller send to its parent with a local shim. -/
def localAnswers (msg : WireMessage) : Except Panic (List (List UInt8)) := do
  let (_, s) ← (x.localProcess.handleMessage msg).run ⟨[], [], []⟩
  return s.sendToParentChan

/-- What it makes it send with a remote shim, when the server has handled what it was sent and the controller
what came back. -/
def remoteAnswers (msg : WireMessage) : Except Panic (List (List UInt8)) := do
  let (_, s) ← (x.remoteProcess.handleMessage msg).run ⟨[], [], []⟩
  let (_, conn) ← (forM s.shimRequests x.server.handleReadMessage).run ⟨some x.process.edge.clusterName, []⟩
  let (_, s) ← (forM conn.written x.remoteProcess.handleReceiveMessage).run s
  return s.sendToParentChan

/-- The status and the body that the parent reads in a message. -/
def parentReads (data : List UInt8) : Option (Int × String) := do
  let msg ← (x.process.unmarshal data).toOption
  let resp ← x.response msg.body
  return (resp.statusCode, resp.body)

/-- The request has a task, there is a handler for it that knows the method, and the server behind it answers,
or fails with an empty text. -/
def Answered (body : List UInt8) : Prop :=
  ∃ task ∈ x.process.edge.controllerTask body, ∃ h ∈ x.process.edge.handlers.get task.destination,
    task.method ∈ h.methods ∧ ∀ err ∈ Shim.sendError h task, err = ""

variable {x} {head : MessageHead} {body data : List UInt8}

/-- The outcome with the texts of the shim client. -/
def outcome (x : ShimModes) (body : List UInt8) : Shim.Outcome :=
  Shim.outcome x.process.edge Shim.localTexts body

/-- The shim server comes to the same response. -/
theorem outcome_server (x : ShimModes) (body : List UInt8) :
    (Shim.outcome x.server.shim Shim.serverTexts body).statusCode = (x.outcome body).statusCode ∧
      (Shim.outcome x.server.shim Shim.serverTexts body).body = (x.outcome body).body := by
  simp only [outcome, Shim.outcome, server]
  cases x.process.edge.controllerTask body with
  | none => exact ⟨rfl, rfl⟩
  | some task => cases hhandler : x.process.edge.handlers.get task.destination <;> simp [hhandler]

theorem statusCode_fits (x : ShimModes) (body : List UInt8) :
    -2 ^ 31 ≤ (x.outcome body).statusCode ∧ (x.outcome body).statusCode < 2 ^ 31 := by
  unfold outcome Shim.outcome
  cases x.process.edge.controllerTask body with
  | none => norm_num
  | some task =>
      cases hhandler : x.process.edge.handlers.get task.destination with
      | none => norm_num [hhandler]
      | some h => simpa only [hhandler] using x.codes_fit _ h task hhandler

/-- The parent reads what was packed, whatever the time was. -/
theorem parentReads_eq {h : Option MessageHead} {now statusCode : Int} {text : String}
    (hnow : now ∈ [x.process.edge.now, x.serverNow]) (hcode : -2 ^ 31 ≤ statusCode ∧ statusCode < 2 ^ 31)
    (hdata : x.process.unmarshal data = .ok ⟨h, x.process.edge.marshal ⟨now, statusCode, text⟩⟩) :
    x.parentReads data = some (statusCode, text) := by
  have hfits : ControllerTaskResponse.Fits ⟨now, statusCode, text⟩ := ⟨x.now_fits now hnow, hcode⟩
  simp [parentReads, hdata, Except.toOption, x.response_marshal _ hfits]

/-- What the parent gets from a cluster with a local shim: the error, if there is one. -/
theorem localAnswers_controlReq (x : ShimModes) (hcommand : head.command = .controlReq) (body : List UInt8) :
    ∃ data, x.localAnswers ⟨some head, body⟩ = .ok [data] ∧
      x.parentReads data = some (x.outcome body).reported := by
  obtain ⟨data, hmarshal, hdata⟩ := x.lossless (Shim.replyHead x.process.edge head)
    (Shim.reply x.process.edge (x.outcome body)) (Or.inr (Or.inr rfl))
  refine ⟨data, ?_, ?_⟩
  · have hrun := EdgeProcess.run_handleMessage_local (x := x.localProcess) rfl hcommand body hmarshal
      ⟨[], [], []⟩
    rw [localAnswers, hrun]
    rfl
  · rw [Shim.reply] at hdata
    rw [Shim.Outcome.reported]
    cases herr : (x.outcome body).err with
    | none =>
        rw [herr] at hdata
        exact parentReads_eq List.mem_cons_self (x.statusCode_fits body) hdata
    | some err =>
        rw [herr] at hdata
        exact parentReads_eq List.mem_cons_self (by norm_num) hdata

/-- What the parent gets from a cluster with a remote shim: the response of the handler. -/
theorem remoteAnswers_controlReq (x : ShimModes) (hcommand : head.command = .controlReq) (body : List UInt8) :
    ∃ data, x.remoteAnswers ⟨some head, body⟩ = .ok [data] ∧
      x.parentReads data = some ((x.outcome body).statusCode, (x.outcome body).body) := by
  -- the request, the response of the server, and the same with the name of the cluster
  obtain ⟨req, hreq, hreq'⟩ := x.lossless head body (Or.inl hcommand)
  obtain ⟨resp, hresp, hresp'⟩ := x.lossless { head with command := .controlResp }
    (controlTaskResponse x.server.shim (Shim.outcome x.server.shim Shim.serverTexts body).statusCode
      (Shim.outcome x.server.shim Shim.serverTexts body).body) (Or.inr (Or.inr rfl))
  obtain ⟨data, hdata, hdata'⟩ := x.lossless (Shim.replyHead x.process.edge head)
    (controlTaskResponse x.server.shim (Shim.outcome x.server.shim Shim.serverTexts body).statusCode
      (Shim.outcome x.server.shim Shim.serverTexts body).body) (Or.inr (Or.inr rfl))
  refine ⟨data, ?_, ?_⟩
  · have hsent := EdgeProcess.run_handleMessage_remote (x := x.remoteProcess) rfl (Or.inl hcommand) hreq
      ⟨[], [], []⟩
    have hserved := ShimServer.run_handleReadMessage (x := x.server) hreq' hcommand hresp
      x.process.edge.clusterName []
    have hback := EdgeProcess.run_handleReceiveMessage (x := x.remoteProcess) hresp' hdata ⟨[], [], [req]⟩
    simp only [remoteAnswers, hsent, Go.ok_bind, List.nil_append, List.forM_cons, List.forM_nil,
      StateT.run_bind, hserved, hback, Go.run_pure]
    rfl
  · have hcode := x.statusCode_fits body
    rw [← (x.outcome_server body).1] at hcode ⊢
    rw [← (x.outcome_server body).2]
    exact parentReads_eq (by simp [server]) hcode hdata'

/-- To anything else there is no answer. -/
theorem answers_of_ne (x : ShimModes) (hcommand : head.command ≠ .controlReq) (body : List UInt8) :
    x.localAnswers ⟨some head, body⟩ = .ok [] ∧ x.remoteAnswers ⟨some head, body⟩ = .ok [] := by
  by_cases hmulti : head.command = .controlMultiReq
  · obtain ⟨req, hreq, hreq'⟩ := x.lossless head body (Or.inr (Or.inl hmulti))
    obtain ⟨ret, hlocal⟩ := EdgeProcess.run_handleMessage_local_multi (x := x.localProcess) rfl hmulti body
      ⟨[], [], []⟩
    have hsent := EdgeProcess.run_handleMessage_remote (x := x.remoteProcess) rfl (Or.inr hmulti) hreq
      ⟨[], [], []⟩
    have hserved := ShimServer.run_handleReadMessage_of_ne (x := x.server) hreq' hcommand
      ⟨some x.process.edge.clusterName, []⟩
    constructor
    · rw [localAnswers, hlocal]
      rfl
    · simp only [remoteAnswers, hsent, Go.ok_bind, List.nil_append, List.forM_cons, List.forM_nil,
        StateT.run_bind, hserved, Go.run_pure]
      rfl
  · have hother : ¬ (head.command = .controlReq ∨ head.command = .controlMultiReq) := by
      simp [hcommand, hmulti]
    constructor
    · rw [localAnswers, EdgeProcess.run_handleMessage_unsupported x.localProcess hother body]
      rfl
    · rw [remoteAnswers, EdgeProcess.run_handleMessage_unsupported x.remoteProcess hother body]
      rfl

/-- The error replaces a response that says the same exactly if the request is answered. -/
theorem answered_iff (x : ShimModes) (body : List UInt8) :
    (x.outcome body).reported = ((x.outcome body).statusCode, (x.outcome body).body) ↔ x.Answered body := by
  unfold outcome Shim.outcome Answered
  cases htask : x.process.edge.controllerTask body with
  | none => simp [Shim.Outcome.reported]
  | some task =>
      cases hhandler : x.process.edge.handlers.get task.destination with
      | none => simp [hhandler, Shim.Outcome.reported]
      | some h => simpa [hhandler] using Shim.reported_handlerOutcome_iff h task

/-- For every message, with every set of handlers: the parent reads the same statuses and bodies from a
cluster with a local shim and from one with a remote shim exactly if the message is no request to carry out
one task, or the task is answered. -/
theorem shim_modes_alike_iff (x : ShimModes) (head : MessageHead) (body : List UInt8) :
    ∃ localData remoteData, x.localAnswers ⟨some head, body⟩ = .ok localData ∧
      x.remoteAnswers ⟨some head, body⟩ = .ok remoteData ∧
      (localData.map x.parentReads = remoteData.map x.parentReads ↔
        (head.command = .controlReq → x.Answered body)) := by
  by_cases hcommand : head.command = .controlReq
  · obtain ⟨l, hl, hread⟩ := x.localAnswers_controlReq hcommand body
    obtain ⟨r, hr, hread'⟩ := x.remoteAnswers_controlReq hcommand body
    refine ⟨[l], [r], hl, hr, ?_⟩
    simp only [List.map_cons, List.map_nil, hread, hread', hcommand, forall_const, List.cons.injEq,
      Option.some.injEq, and_true]
    exact x.answered_iff body
  · obtain ⟨hl, hr⟩ := x.answers_of_ne hcommand body
    exact ⟨[], [], hl, hr, iff_of_true rfl fun h => absurd h hcommand⟩

/-! ## A method that the proxy does not know -/

instance : Countable Char :=
  Function.Injective.countable (f := Char.toNat) fun _ _ h => Char.ext (UInt32.toNat_inj.mp h)

instance : Countable String :=
  Function.Injective.countable (f := String.toList) fun _ _ h => String.toList_inj.mp h

instance : Countable UInt8 :=
  Function.Injective.countable (f := UInt8.toNat) fun _ _ h => UInt8.toNat_inj.mp h

deriving instance Countable for CommandType
deriving instance Countable for MessageHead
deriving instance Countable for WireMessage
deriving instance Countable for ControllerTaskResponse

/-- Values that can be counted can be written as bytes and read again. -/
theorem exists_codec (α : Type) [Countable α] :
    ∃ (encode : α → List UInt8) (decode : List UInt8 → Option α), ∀ a, decode (encode a) = some a := by
  obtain ⟨f, hf⟩ := exists_injective_nat α
  refine ⟨fun a => List.replicate (f a) 0, fun data => Function.partialInv f data.length, fun a => ?_⟩
  dsimp only
  rw [List.length_replicate]
  exact Function.partialInv_left hf a

/-- A cluster whose only handler is the proxy to Tiller; every request is a `PATCH`. -/
def patchEdge (marshal : ControllerTaskResponse → List UInt8) : EdgeHandler where
  clusterName := "child"
  regexp := .anchored
  unmarshal _ := .ok controlRequest
  controllerTask _ := some ⟨"helm", "PATCH", "/releases", []⟩
  controlMultiTask _ := none
  marshal := marshal
  now := 0
  handlers := GoMap.ofList [("helm", .httpProxy "http://tiller:44134" fun _ _ => .ok (200, ""))]

theorem codes_fit_patchEdge (marshal : ControllerTaskResponse → List UInt8) (destination : String) (h : Handler)
    (task : ControllerTask) (hget : (patchEdge marshal).handlers.get destination = some h) :
    -2 ^ 31 ≤ (Shim.handlerOutcome h task).statusCode ∧ (Shim.handlerOutcome h task).statusCode < 2 ^ 31 := by
  obtain ⟨-, rfl⟩ := Prod.mk.inj (List.mem_singleton.mp (GoMap.mem_of_get_ofList hget))
  unfold Shim.handlerOutcome
  split
  · norm_num
  · norm_num

/-- The parent is told of an internal error by the local shim, and of a method that is not allowed by the
remote one. -/
theorem refused_method_differs :
    ∃ (x : ShimModes) (localData remoteData : List (List UInt8)),
      x.localAnswers ⟨some controlRequest.head, controlRequest.body⟩ = .ok localData ∧
      x.remoteAnswers ⟨some controlRequest.head, controlRequest.body⟩ = .ok remoteData ∧
      localData.map x.parentReads = [some (500, "method not allowed")] ∧
      remoteData.map x.parentReads = [some (405, "")] := by
  obtain ⟨marshal, response, hresponse⟩ := exists_codec ControllerTaskResponse
  obtain ⟨encode, decode, hdecode⟩ := exists_codec WireMessage
  let x : ShimModes :=
    { process := ⟨patchEdge marshal, .localShim, fun data => (decode data).elim (.error "unexpected EOF") .ok,
        fun msg => .ok (encode msg), fun _ => .error "unexpected end of JSON input", fun _ => .ok [],
        MapOrder.sorted⟩
      serverNow := 0
      lossless := fun head body _ => ⟨encode ⟨some head, body⟩, rfl, by simp [hdecode]⟩
      response := response
      response_marshal := fun resp _ => hresponse resp
      now_fits := by simp [patchEdge]
      codes_fit := codes_fit_patchEdge marshal }
  have houtcome : x.outcome controlRequest.body = ⟨405, "", some "method not allowed"⟩ := rfl
  have hcommand : controlRequest.head.command = .controlReq := rfl
  obtain ⟨l, hl, hread⟩ := x.localAnswers_controlReq hcommand controlRequest.body
  obtain ⟨r, hr, hread'⟩ := x.remoteAnswers_controlReq hcommand controlRequest.body
  rw [houtcome] at hread hread'
  refine ⟨x, [l], [r], hl, hr, ?_, ?_⟩
  · rw [List.map_singleton, hread]
    rfl
  · rw [List.map_singleton, hread']

end ShimModes

end OteStack
