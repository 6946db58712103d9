/-
# OteStack.EdgeHandler.ParentBytes — what the bytes of the parent can do to a cluster controller.

The way of a message from the edge tunnel on (`pkg/edgehandler`, `pkg/clusterhandler`).
`receiveMessageFromTunnel` decodes it, puts it into `EdgeToClusterChan` and gives it to the shim if it is for
this cluster; `handleMessageFromParent` takes it from there and updates the routes or sends it to the
children.  Any part of a decoded message may be missing, so both are programs that may panic.

A missing task, an unknown destination or a body that does not decode is met by a check on every path.  A
missing head is not: each of the two goroutines reads a field of it first of all (`parent_bytes_panic_iff`).
Nor does the shim server check that there still is a client when it writes a response.
-/
import OteStack.ClusterHandler.Broadcast
import OteStack.ClusterShim.Shim

namespace OteStack

open OteStack.Lib (Go GoMap MapOrder)
open OteStack.EdgeHandler (responseErrorStatus)

/-- The shim client of an edge handler. -/
inductive ShimClient where
  | localShim
  | remoteShim
  deriving DecidableEq, Repr

/-- What a cluster controller below the root works with. -/
structure EdgeProcess where
  edge : EdgeHandler
  shimClient : ShimClient
  unmarshal : List UInt8 → Except String WireMessage
  marshal : WireMessage → Except String (List UInt8)
  neighborRouter : List UInt8 → Except String RouterMessage
  serialize : RouterMessage → Except String (List UInt8)
  it : MapOrder String

/-- What the edge handler has put into its channels, and what its shim client has written to the shim
server. -/
structure EdgeChannels where
  edgeToClusterChan : List WireMessage
  sendToParentChan : List (List UInt8)
  shimRequests : List (List UInt8)
  deriving DecidableEq, Repr

/-- The routes of the cluster handler, and what it has sent to its children: to the child of that name, or to
all of them. -/
structure ChildLinks where
  router : ClusterRouter
  sent : List (Option String × List UInt8)

namespace EdgeProcess

variable (x : EdgeProcess)

/-! ## The edge handler -/

/-- `Do` of the shim clients.  The remote one does not wait for the answer. -/
def shimDo (msg : WireMessage) : Go EdgeChannels (Option WireMessage × Option String) :=
  match x.shimClient with
  | .localShim => Shim.localDo x.edge msg
  | .remoteShim =>
      match x.marshal msg with
      | .error err => return (none, some ("marshal shim request failed: " ++ err))
      | .ok reqMsg => do
          modify fun s => { s with shimRequests := s.shimRequests ++ [reqMsg] }
          return (none, none)

/-- Go's `sendToParent`. -/
def sendToParent (msg : WireMessage) : Go EdgeChannels (Option String) :=
  match x.marshal msg with
  | .error err => return some err
  | .ok data => do
      modify fun s => { s with sendToParentChan := s.sendToParentChan ++ [data] }
      return none

/-- Go's `handleMessage`. -/
def handleMessage (msg : WireMessage) : Go EdgeChannels (Option String) := do
  let head ← Go.deref msg.head
  match head.command with
  | .controlReq =>
      match ← x.shimDo msg with
      | (some resp, err) =>
          let body := match err with
            | some err => responseErrorStatus x.edge err
            | none => resp.body
          let head ← Go.deref resp.head
          x.sendToParent ⟨some { head with clusterName := x.edge.clusterName }, body⟩
      | (none, err) => return err
  | .controlMultiReq => return (← x.shimDo msg).2
  | _ => return none

/-- Go's `receiveMessageFromTunnel`. -/
def receiveMessageFromTunnel (data : List UInt8) : Go EdgeChannels (Option String) := do
  match x.unmarshal data with
  | .error err => return some ("can not deserialize message, error: " ++ err)
  | .ok msg =>
      modify fun s => { s with edgeToClusterChan := s.edgeToClusterChan ++ [msg] }
      let head ← Go.deref msg.head
      if (newSelector head.clusterSelector).has x.edge.regexp x.edge.clusterName then
        let _ ← x.handleMessage msg
        return none
      else return none

/-! ## The cluster handler -/

/-- Go's `sendToChild`. -/
def sendToChild (msg : Option WireMessage) (tos : List String) : Go ChildLinks Unit :=
  match msg with
  | none => return ()
  | some msg =>
      match x.marshal msg with
      | .error _ => return ()
      | .ok data =>
          let ports := if tos = [] then [none] else tos.map some
          modify fun s => { s with sent := s.sent ++ ports.map fun port => (port, data) }

/-- Go's `NeighborRouterMessage`. -/
def neighborRouterMessage (r : ClusterRouter) : Option WireMessage :=
  match x.serialize r.neighborRouterMessage with
  | .error _ => none
  | .ok body => some ⟨some { EdgeHandler.emptyHead with command := .neighborRoute }, body⟩

/-- Go's `neighborRouterFromClusterMessage`. -/
def neighborRouterFromClusterMessage (msg : WireMessage) : Option RouterMessage :=
  (x.neighborRouter msg.body).toOption

/-- Go's `UpdateRouter`. -/
def updateRouter (msg : WireMessage) : Go ChildLinks Unit :=
  match x.neighborRouterFromClusterMessage msg with
  | none => return ()
  | some r => do
      let (changed, router) := (← get).router.updateNeighbor r
      modify fun s => { s with router := router }
      if changed then x.sendToChild (x.neighborRouterMessage router) []
      modify fun s => { s with router := (s.router.updateParentNeighbor r).2 }

/-- Go's `selectChild`. -/
def selectChild (msg : WireMessage) : Go ChildLinks (GoMap String ClusterMessage) := do
  let head ← Go.deref msg.head
  return OteStack.selectChild x.edge.regexp x.it (← get).router.subtreeRouter ⟨head, msg.body⟩

/-- The loop of `handleMessageFromParent` over the selected children. -/
def sendToSelected (selectedChild : GoMap String ClusterMessage) : List String → Go ChildLinks Unit
  | [] => return ()
  | port :: rest => do
      x.sendToChild ((selectedChild.get port).map fun portMsg => ⟨some portMsg.head, portMsg.body⟩) [port]
      sendToSelected selectedChild rest

/-- One round of Go's `handleMessageFromParent`. -/
def handleMessageFromParent (msg : WireMessage) : Go ChildLinks Unit := do
  let head ← Go.deref msg.head
  if head.command = .neighborRoute then x.updateRouter msg
  else
    let selectedChild ← x.selectChild msg
    x.sendToSelected selectedChild (x.it.order selectedChild)

/-! ## With a head, nothing panics -/

variable {x} {head : MessageHead} {body : List UInt8}

theorem not_panics_sendToParent (msg : WireMessage) (s : EdgeChannels) : ¬ (x.sendToParent msg).Panics s := by
  unfold sendToParent
  split <;> simp

/-- What a request comes to with a local shim. -/
theorem run_shimDo_local (hshim : x.shimClient = .localShim) (hcommand : head.command = .controlReq)
    (body : List UInt8) (s : EdgeChannels) :
    (x.shimDo ⟨some head, body⟩).run s =
      .ok ((some ⟨some { head with command := .controlResp },
        EdgeHandler.controlTaskResponse x.edge (Shim.outcome x.edge Shim.localTexts body).statusCode
          (Shim.outcome x.edge Shim.localTexts body).body⟩,
        (Shim.outcome x.edge Shim.localTexts body).err), s) := by
  simp only [shimDo, hshim]
  exact Shim.run_doWith_controlReq x.edge Shim.localTexts hcommand body s

/-- The shim client returns, and a response has a head. -/
theorem run_shimDo (x : EdgeProcess) (head : MessageHead) (body : List UInt8) (s : EdgeChannels) :
    ∃ resp err s', (x.shimDo ⟨some head, body⟩).run s = .ok ((resp, err), s') ∧
      ∀ r ∈ resp, r.head ≠ none := by
  cases hshim : x.shimClient with
  | localShim =>
      by_cases hcommand : head.command = .controlReq
      · exact ⟨_, _, s, run_shimDo_local hshim hcommand body s, by simp⟩
      · obtain ⟨err, herr⟩ := Shim.run_doWith_of_ne x.edge Shim.localTexts hcommand body s
        refine ⟨none, err, s, ?_, by simp⟩
        simp only [shimDo, hshim, Shim.localDo, herr]
  | remoteShim =>
      simp only [shimDo, hshim]
      split
      · exact ⟨none, _, s, rfl, by simp⟩
      · exact ⟨none, none, _, rfl, by simp⟩

theorem not_panics_handleMessage (x : EdgeProcess) (head : MessageHead) (body : List UInt8)
    (s : EdgeChannels) : ¬ (x.handleMessage ⟨some head, body⟩).Panics s := by
  obtain ⟨resp, err, s', hrun, hresp⟩ := run_shimDo x head body s
  simp only [handleMessage, Go.panics_bind_deref_some]
  split
  · rw [Go.panics_bind_of_run hrun]
    cases resp with
    | none => simp
    | some resp =>
        obtain ⟨h, hh⟩ := Option.ne_none_iff_exists'.mp (hresp resp rfl)
        simp only [hh, Go.panics_bind_deref_some]
        exact not_panics_sendToParent _ s'
  · rw [Go.panics_bind_of_run hrun]
    simp
  · simp

theorem run_sendToChild (x : EdgeProcess) (msg : Option WireMessage) (tos : List String) (s : ChildLinks) :
    ∃ s', (x.sendToChild msg tos).run s = .ok ((), s') := by
  unfold sendToChild
  split
  · exact ⟨s, rfl⟩
  · split
    · exact ⟨s, rfl⟩
    · exact ⟨_, rfl⟩

theorem not_panics_updateRouter (x : EdgeProcess) (msg : WireMessage) (s : ChildLinks) :
    ¬ (x.updateRouter msg).Panics s := by
  unfold updateRouter
  split
  · simp
  · simp only [Go.panics_bind_get, Go.panics_bind_modify]
    split
    · obtain ⟨s', hs'⟩ := run_sendToChild x _ [] _
      rw [Go.panics_bind_of_run hs']
      simp
    · simp

theorem not_panics_sendToSelected (x : EdgeProcess) (selectedChild : GoMap String ClusterMessage)
    (ports : List String) (s : ChildLinks) : ¬ (x.sendToSelected selectedChild ports).Panics s := by
  induction ports generalizing s with
  | nil => simp [sendToSelected]
  | cons port rest ih =>
      obtain ⟨s', hs'⟩ := run_sendToChild x _ [port] s
      rw [sendToSelected, Go.panics_bind_of_run hs']
      exact ih s'

/-! ## Exactly the messages without a head -/

/-- The bytes decode to a message without a head. -/
def Headless (x : EdgeProcess) (data : List UInt8) : Prop := ∃ body, x.unmarshal data = .ok ⟨none, body⟩

theorem receiveMessageFromTunnel_panics_iff (x : EdgeProcess) (data : List UInt8) (s : EdgeChannels) :
    (x.receiveMessageFromTunnel data).Panics s ↔ x.Headless data := by
  unfold receiveMessageFromTunnel Headless
  cases hdata : x.unmarshal data with
  | error err => simp
  | ok msg =>
      obtain ⟨_ | head, body⟩ := msg
      · exact iff_of_true (by simp) ⟨body, rfl⟩
      · refine iff_of_false ?_ (by simp)
        simp only [Go.panics_bind_modify, Go.panics_bind_deref_some]
        split
        · simp [not_panics_handleMessage]
        · simp

theorem handleMessageFromParent_panics_iff (x : EdgeProcess) (msg : WireMessage) (c : ChildLinks) :
    (x.handleMessageFromParent msg).Panics c ↔ msg.head = none := by
  obtain ⟨_ | head, body⟩ := msg
  · simp [handleMessageFromParent]
  · refine iff_of_false ?_ (by simp)
    simp only [handleMessageFromParent, Go.panics_bind_deref_some]
    split
    · exact not_panics_updateRouter x _ c
    · rw [Go.panics_bind_of_run (by rfl : (x.selectChild ⟨some head, body⟩).run c = .ok (_, c))]
      exact not_panics_sendToSelected x _ _ c

/-- Bytes of the parent stop the edge handler exactly if they decode to a message without a head.  The cluster
handler stops on the message in the channel exactly if it has none, whatever has been written into its head
since.  The shim server stops, on what its cluster controller sends, exactly if that decodes to a message
without a head, or to a request that is answered while no client is installed. -/
theorem parent_bytes_panic_iff (x : EdgeProcess) (server : ShimServer) (data : List UInt8) (s : EdgeChannels)
    (c : ChildLinks) (conn : ShimConnection) :
    ((x.receiveMessageFromTunnel data).Panics s ↔ x.Headless data) ∧
      (∀ msg, (x.handleMessageFromParent msg).Panics c ↔ msg.head = none) ∧
      ((server.handleReadMessage data).Panics conn ↔
        server.Headless data ∨ conn.ccclient = none ∧ server.Answers data) :=
  ⟨x.receiveMessageFromTunnel_panics_iff data s, fun msg => x.handleMessageFromParent_panics_iff msg c,
    server.handleReadMessage_panics_iff data conn⟩

/-- A decoder for which, as for proto3, no bytes at all are a message: the one in which nothing is set. -/
def unmarshalEmpty (data : List UInt8) : Except String WireMessage :=
  if data = [] then .ok ⟨none, []⟩ else .error "unexpected EOF"

/-- The cluster controller `child`, without children. -/
def leafProcess : EdgeProcess where
  edge := EdgeHandler.localEdge
  shimClient := .localShim
  unmarshal := unmarshalEmpty
  marshal _ := .ok []
  neighborRouter _ := .error "unexpected end of JSON input"
  serialize _ := .ok []
  it := MapOrder.sorted

/-- An empty message stops the goroutine that reads it from the tunnel, the one that takes it from the
channel, and the shim server. -/
theorem empty_message_crashes :
    (leafProcess.receiveMessageFromTunnel []).Panics ⟨[], [], []⟩ ∧
      (leafProcess.handleMessageFromParent ⟨none, []⟩).Panics ⟨defaultClusterRouter, []⟩ ∧
      (ShimServer.handleReadMessage ⟨EdgeHandler.localEdge, unmarshalEmpty, fun _ => .ok []⟩ []).Panics
        ⟨some "child", []⟩ :=
  ⟨⟨.nilDereference, rfl⟩, ⟨.nilDereference, rfl⟩, ⟨.nilDereference, rfl⟩⟩

end EdgeProcess

end OteStack
