/-
# OteStack.ClusterShim.Shim — the shim, for messages as they are decoded.

`pkg/clustershim/shimclient.go` and `shimserver.go`.  A request is carried out by the local shim client in the
process of the edge handler, or by the shim server in a process of its own.  The two dispatch a request to the
same handlers with the same code; what differs are the texts of their errors (`ShimTexts`).

A decoded message may come without a head, so the functions are programs that may panic (`Lib.Go`).  With a
head they return, and `Shim.outcome` is what they return: a status, a body and an error
(`run_doControlRequest`).  Without one they dereference nil.
-/
import OteStack.EdgeHandler.ControlRequest
import OteStack.Lib.GoPanic

namespace OteStack

open OteStack.Lib (Go GoMap)
open OteStack.EdgeHandler (Handler controlTaskResponse)

/-- Where the shim client and the shim server differ: what they are called, and their errors for a request
without a task and for a destination without a handler. -/
structure ShimTexts where
  name : String
  noTask : String
  noHandler : String → String

namespace Shim

/-- The texts of `localShimClient`. -/
def localTexts : ShimTexts :=
  ⟨"ShimClient", "ControllerTask Not Found", fun destination => "no handler for " ++ destination⟩

/-- The texts of `ShimServer`. -/
def serverTexts : ShimTexts := ⟨"ShimServer", "Controllertask Not Found", fun _ => "Not Found"⟩

variable {σ : Type} (e : EdgeHandler) (texts : ShimTexts)

/-! ## Dispatch -/

/-- `Do` of the handlers.  Of the request, `DoControlRequest` and `DoControlMultiRequest` read the body. -/
def handlerDo (h : Handler) (msg : WireMessage) : Go σ (Option WireMessage × Option String) := do
  let head ← Go.deref msg.head
  match h, head.command with
  | _, .controlReq =>
      let (resp, err) := h.doControlRequest e ⟨0, msg.body⟩
      return (some ⟨msg.head, resp⟩, err)
  | .k8s _, .controlMultiReq => return (none, EdgeHandler.doControlMultiRequest e h ⟨0, msg.body⟩)
  | .k8s _, command => return (none, some ("command " ++ command.text ++ " is not supported by k8sHandler"))
  | .httpProxy _ _, command =>
      return (none, some ("command " ++ command.text ++ " is not supported by httpProxyHandler"))

/-- `DoControlRequest` of the shim client and of the shim server. -/
def doControlRequest (msg : WireMessage) : Go σ (Option WireMessage × Option String) := do
  let head := { ← Go.deref msg.head with command := CommandType.controlResp }
  match e.controllerTask msg.body with
  | none => return (some ⟨some head, controlTaskResponse e 404 ""⟩, some texts.noTask)
  | some task =>
      match e.handlers.get task.destination with
      | some h =>
          match ← handlerDo e h msg with
          | (some resp, err) =>
              let head ← Go.deref resp.head
              return (some { resp with head := some { head with command := .controlResp } }, err)
          | (none, err) => return (none, err)
      | none =>
          return (some ⟨some head, controlTaskResponse e 404 ""⟩, some (texts.noHandler task.destination))

/-- `DoControlMultiRequest` of the shim client and of the shim server. -/
def doControlMultiRequest (msg : WireMessage) : Go σ (Option String) :=
  match e.controlMultiTask msg.body with
  | none => return some "ControlMultiTask Not Found"
  | some task =>
      match e.handlers.get task.destination with
      | some h => do return (← handlerDo e h msg).2
      | none => return some ("no handler for " ++ task.destination)

/-- `Do` of the shim client and of the shim server. -/
def doWith (msg : WireMessage) : Go σ (Option WireMessage × Option String) := do
  let head ← Go.deref msg.head
  match head.command with
  | .controlReq => doControlRequest e texts msg
  | .controlMultiReq => return (none, ← doControlMultiRequest e msg)
  | command => return (none, some ("command " ++ command.text ++ " is not supported by " ++ texts.name))

/-- `localShimClient.Do`. -/
def localDo (msg : WireMessage) : Go σ (Option WireMessage × Option String) := doWith e localTexts msg

/-- `ShimServer.Do`. -/
def serverDo (msg : WireMessage) : Go σ (Option WireMessage × Option String) := doWith e serverTexts msg

/-! ## What a request comes to -/

/-- Status and body of the response to a request, and the error returned beside it. -/
structure Outcome where
  statusCode : Int
  body : String
  err : Option String
  deriving DecidableEq, Repr

/-- What a handler makes of a task. -/
def handlerOutcome (h : Handler) (task : ControllerTask) : Outcome :=
  if h.methods.contains task.method then
    match h with
    | .k8s rest => ⟨(rest task).1, (rest task).2, none⟩
    | .httpProxy addr send =>
        match send (addr ++ task.uri) task with
        | .error err => ⟨500, "", some err⟩
        | .ok (status, body) => ⟨status, body, none⟩
  else ⟨405, "", some "method not allowed"⟩

/-- What the shim makes of the body of a request. -/
def outcome (body : List UInt8) : Outcome :=
  match e.controllerTask body with
  | none => ⟨404, "", some texts.noTask⟩
  | some task =>
      match e.handlers.get task.destination with
      | some h => handlerOutcome h task
      | none => ⟨404, "", some (texts.noHandler task.destination)⟩

variable {e texts} {head : MessageHead} {body : List UInt8}

/-- A handler packs its outcome. -/
theorem doControlRequest_handler {task : ControllerTask} (htask : e.controllerTask body = some task)
    (h : Handler) (p : EdgeHandler.Ptr) :
    h.doControlRequest e ⟨p, body⟩ =
      (controlTaskResponse e (handlerOutcome h task).statusCode (handlerOutcome h task).body,
        (handlerOutcome h task).err) := by
  simp only [Handler.doControlRequest, htask, handlerOutcome]
  split
  · cases h with
    | k8s rest => rfl
    | httpProxy addr send => cases hsend : send (addr ++ task.uri) task <;> simp only [hsend]
  · rfl

/-- A request with a head is answered with its outcome, under the head of the request as a response. -/
theorem run_doControlRequest (e : EdgeHandler) (texts : ShimTexts) (hcommand : head.command = .controlReq)
    (body : List UInt8) (s : σ) :
    (doControlRequest e texts ⟨some head, body⟩).run s =
      .ok ((some ⟨some { head with command := .controlResp },
        controlTaskResponse e (outcome e texts body).statusCode (outcome e texts body).body⟩,
        (outcome e texts body).err), s) := by
  unfold doControlRequest outcome
  simp only [StateT.run_bind, Go.run_deref_some, Go.ok_bind]
  cases htask : e.controllerTask body with
  | none => rfl
  | some task =>
      cases hhandler : e.handlers.get task.destination with
      | none => simp only [hhandler, Go.run_pure]
      | some h =>
          simp only [hhandler, handlerDo, hcommand, doControlRequest_handler htask, StateT.run_bind,
            Go.run_deref_some, Go.ok_bind, Go.run_pure]

/-- A handler returns, and keeps the state. -/
theorem run_handlerDo (e : EdgeHandler) (h : Handler) (head : MessageHead) (body : List UInt8) (s : σ) :
    ∃ ret, (handlerDo e h ⟨some head, body⟩).run s = .ok (ret, s) := by
  unfold handlerDo
  simp only [StateT.run_bind, Go.run_deref_some, Go.ok_bind]
  split <;> exact ⟨_, rfl⟩

theorem run_doControlMultiRequest (e : EdgeHandler) (head : MessageHead) (body : List UInt8) (s : σ) :
    ∃ err, (doControlMultiRequest e ⟨some head, body⟩).run s = .ok (err, s) := by
  unfold doControlMultiRequest
  split
  · exact ⟨_, rfl⟩
  · split
    next h _ =>
      obtain ⟨ret, hret⟩ := run_handlerDo e h head body s
      refine ⟨ret.2, ?_⟩
      rw [StateT.run_bind, hret, Go.ok_bind, Go.run_pure]
    · exact ⟨_, rfl⟩

/-- A request is answered. -/
theorem run_doWith_controlReq (e : EdgeHandler) (texts : ShimTexts) (hcommand : head.command = .controlReq)
    (body : List UInt8) (s : σ) :
    (doWith e texts ⟨some head, body⟩).run s =
      .ok ((some ⟨some { head with command := .controlResp },
        controlTaskResponse e (outcome e texts body).statusCode (outcome e texts body).body⟩,
        (outcome e texts body).err), s) := by
  simp only [doWith, StateT.run_bind, Go.run_deref_some, Go.ok_bind, hcommand]
  exact run_doControlRequest e texts hcommand body s

/-- To every other message with a head there is no answer. -/
theorem run_doWith_of_ne (e : EdgeHandler) (texts : ShimTexts) (hcommand : head.command ≠ .controlReq)
    (body : List UInt8) (s : σ) :
    ∃ err, (doWith e texts ⟨some head, body⟩).run s = .ok ((none, err), s) := by
  simp only [doWith, StateT.run_bind, Go.run_deref_some, Go.ok_bind]
  split
  · exact absurd ‹_› hcommand
  · obtain ⟨err, herr⟩ := run_doControlMultiRequest e head body s
    refine ⟨err, ?_⟩
    rw [StateT.run_bind, herr, Go.ok_bind, Go.run_pure]
  · exact ⟨_, rfl⟩

/-- Without a head, `Do` stops at once. -/
theorem run_doWith_headless (e : EdgeHandler) (texts : ShimTexts) (body : List UInt8) (s : σ) :
    (doWith e texts ⟨none, body⟩).run s = .error .nilDereference := rfl

end Shim

/-! ## The shim server -/

/-- What the shim server works with. -/
structure ShimServer where
  shim : EdgeHandler
  unmarshal : List UInt8 → Except String WireMessage
  marshal : WireMessage → Except String (List UInt8)

/-- The connection of the cluster controller, by its name, and what has been written to it. -/
structure ShimConnection where
  ccclient : Option String
  written : List (List UInt8)
  deriving DecidableEq, Repr

namespace ShimServer

variable (x : ShimServer) {data : List UInt8}

/-- Go's `handleReadMessage`. -/
def handleReadMessage (data : List UInt8) : Go ShimConnection Unit := do
  match x.unmarshal data with
  | .error _ => return ()
  | .ok msg =>
      -- an error is only logged
      match ← Shim.serverDo x.shim msg with
      | (none, _) => return ()
      | (some resp, _) =>
          match x.marshal resp with
          | .error _ => return ()
          | .ok respMsg =>
              let _ ← Go.deref (← get).ccclient
              modify fun s => { s with written := s.written ++ [respMsg] }

/-- The bytes decode to a message without a head. -/
def Headless (data : List UInt8) : Prop := ∃ body, x.unmarshal data = .ok ⟨none, body⟩

/-- What the shim server answers to the body of a request with this head. -/
def response (head : MessageHead) (body : List UInt8) : WireMessage :=
  ⟨some { head with command := .controlResp },
    controlTaskResponse x.shim (Shim.outcome x.shim Shim.serverTexts body).statusCode
      (Shim.outcome x.shim Shim.serverTexts body).body⟩

/-- The bytes decode to a request, and the response to it can be marshalled. -/
def Answers (data : List UInt8) : Prop :=
  ∃ head body respMsg, x.unmarshal data = .ok ⟨some head, body⟩ ∧ head.command = .controlReq ∧
    x.marshal (x.response head body) = .ok respMsg

/-- A request stops the shim server exactly if its answer would be written and there is no client. -/
theorem panics_answer_iff (head : MessageHead) (body : List UInt8) (conn : ShimConnection)
    (hdata : x.unmarshal data = .ok ⟨some head, body⟩) (hcommand : head.command = .controlReq) :
    (x.handleReadMessage data).Panics conn ↔ conn.ccclient = none ∧ x.Answers data := by
  have hrun := Shim.run_doWith_controlReq x.shim Shim.serverTexts hcommand body conn
  have hanswers : x.Answers data ↔ ∃ respMsg, x.marshal (x.response head body) = .ok respMsg := by
    constructor
    · rintro ⟨head', body', respMsg, hdata', -, hmarshal⟩
      obtain ⟨hhead, rfl⟩ := WireMessage.mk.inj (Except.ok.inj (hdata.symm.trans hdata'))
      obtain rfl := Option.some.inj hhead
      exact ⟨respMsg, hmarshal⟩
    · rintro ⟨respMsg, hmarshal⟩
      exact ⟨head, body, respMsg, hdata, hcommand, hmarshal⟩
  rw [hanswers]
  simp only [handleReadMessage, hdata, Shim.serverDo]
  rw [Go.panics_bind_of_run hrun]
  cases hmarshal : x.marshal (x.response head body) with
  | error err =>
      rw [response] at hmarshal
      simp [hmarshal]
  | ok respMsg =>
      rw [response] at hmarshal
      -- the response is written to the client that is installed now, if there is one
      obtain ⟨_ | client, written⟩ := conn
      · simp [hmarshal]
      · simp [hmarshal]

/-- The shim server stops on the bytes that decode to a message without a head; and, while no client is
installed, on the requests that it answers. -/
theorem handleReadMessage_panics_iff (data : List UInt8) (conn : ShimConnection) :
    (x.handleReadMessage data).Panics conn ↔
      x.Headless data ∨ conn.ccclient = none ∧ x.Answers data := by
  cases hdata : x.unmarshal data with
  | error err =>
      refine iff_of_false ?_ ?_
      · simp [handleReadMessage, hdata]
      · simp [Headless, Answers, hdata]
  | ok msg =>
      obtain ⟨_ | head, body⟩ := msg
      · have hstop : (Shim.serverDo x.shim ⟨none, body⟩).Panics conn :=
          ⟨.nilDereference, Shim.run_doWith_headless x.shim _ body _⟩
        refine iff_of_true ?_ (Or.inl ⟨body, hdata⟩)
        unfold handleReadMessage
        rw [hdata]
        exact Go.panics_bind hstop _
      · have hhead : ¬ x.Headless data := by simp [Headless, hdata]
        rw [or_iff_right hhead]
        by_cases hcommand : head.command = .controlReq
        · exact x.panics_answer_iff head body conn hdata hcommand
        · obtain ⟨err, herr⟩ := Shim.run_doWith_of_ne x.shim Shim.serverTexts hcommand body conn
          refine iff_of_false ?_ ?_
          · simp only [handleReadMessage, hdata, Shim.serverDo]
            rw [Go.panics_bind_of_run herr]
            simp
          · rintro ⟨-, head', body', respMsg, hdata', hcommand', -⟩
            obtain ⟨hhead', -⟩ := WireMessage.mk.inj (Except.ok.inj (hdata.symm.trans hdata'))
            exact hcommand (Option.some.inj hhead' ▸ hcommand')

end ShimServer

end OteStack
