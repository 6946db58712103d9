/-
# OteStack.ClusterHandler.RootMessages — what a message of a child can do to the root.

`handleMessageFromChild` of `pkg/clusterhandler/clusterhandler.go` at the root, from the bytes on.  The
message is decoded, and so is its body, by a decoder that depends on the command; each decoder can fail.
What a decoder returns are pointers and maps that may be nil, so the functions are programs that may panic
(`Lib.Go`).

Registrations, unregistrations and subtree reports check what they have decoded: they never panic, and do
what the models of the decoded messages say (`run_handleRegistClusterMessage`,
`run_handleUnregistClusterMessage`, `run_handleMessageFromChild`).  A response to a task is converted without
a check: if its body does not decode, the root dereferences nil (`handleMessageFromChild_panics_iff`).
-/
import OteStack.ClusterHandler.ClusterStatus
import OteStack.ClusterMessage
import OteStack.Lib.GoPanic

namespace OteStack

open OteStack.Lib (Go GoMap MapOrder Panic runSteps)
open OteStack.Lib.KubeApi (ObjectKey)
open OteStack.K8sClient

/-! ## Messages and stores -/

/-- `otev1.ClusterControllerStatus`. -/
structure ClusterControllerStatus where
  timestamp : Int
  statusCode : Int
  body : String
  deriving DecidableEq, Repr

/-- `otev1.ClusterController`, without its specification. -/
structure ClusterController where
  name : String
  «namespace» : String
  status : Option (GoMap String ClusterControllerStatus)

/-- What the root keeps, and what it has sent to the controller manager. -/
structure RootStores where
  root : Root
  clusterControllers : GoMap ObjectKey ClusterController
  sent : List (List UInt8)

/-- What the root works with: its name, the decoders, the connection to the controller manager and the
clock.  `string` is the conversion of bytes to a text, and `format` the text of a message in a log. -/
structure RootHandler where
  clusterName : String
  string : List UInt8 → String
  format : WireMessage → String
  unmarshal : List UInt8 → Except String WireMessage
  clusterRegistry : List UInt8 → Except String ClusterRegistry
  subTreeRouter : List UInt8 → Except String (Option SubTreeRouter)
  controllerTaskResponse : List UInt8 → Except String ControllerTaskResponse
  marshal : WireMessage → Except String (List UInt8)
  send : List UInt8 → Except String Unit
  now : Int
  it : MapOrder String

namespace RootHandler

variable (h : RootHandler)

/-! ## The handlers -/

/-- Go's `sendToControllerManager`. -/
def sendToControllerManager (msg : WireMessage) : Go RootStores (Except String Unit) := do
  match h.marshal msg with
  | .error err => return .error ("serialize cluster message(" ++ h.format msg ++ ") failed: " ++ err)
  | .ok data =>
      match h.send data with
      | .error err => return .error ("send to controller manager failed: " ++ err)
      | .ok _ =>
          modify fun s => { s with sent := s.sent ++ [data] }
          return .ok ()

/-- Go's `getClusterRegistryFromClusterMessage`. -/
def getClusterRegistryFromClusterMessage (msg : WireMessage) : Option ClusterRegistry :=
  (h.clusterRegistry msg.body).toOption

/-- A program against the API server. -/
def execute (p : ClusterApi (Except String Unit)) : Go RootStores (Except String Unit) := do
  let s ← get
  let (ret, root) := s.root.execute p
  set { s with root := root }
  return ret

/-- Write the route table. -/
def setRoutes (r : SubTreeRouter) : Go RootStores Unit :=
  modify fun s => { s with root := { s.root with subtreeRouter := r } }

/-- Go's `handleRegistClusterMessage`. -/
def handleRegistClusterMessage (client : String) (msg : WireMessage) :
    Go RootStores (Except String Unit) := do
  let cr := h.getClusterRegistryFromClusterMessage msg
  let cluster := cr.map getClusterFromClusterRegistry
  if cluster.isNone then return .error "regist message cannot get cluster info"
  else
    let name := (← Go.deref cr).name
    match SubTreeRouter.addRoute (← get).root.subtreeRouter name client with
    | .error err => return .error ("add route failed: " ++ err.text)
    | .ok r =>
        setRoutes r
        execute (createOrUpdateCluster h.now (← Go.deref cluster))

/-- Go's `handleUnregistClusterMessage`. -/
def handleUnregistClusterMessage (client : String) (msg : WireMessage) :
    Go RootStores (Except String Unit) := do
  let cr := h.getClusterRegistryFromClusterMessage msg
  let cluster := cr.map getClusterFromClusterRegistry
  if cluster.isNone then return .error "unregist message cannot get cluster info"
  else
    let name := (← Go.deref cluster).metadata.name
    setRoutes (SubTreeRouter.delRoute h.it (← get).root.subtreeRouter name client)
    execute (offlineCluster (← Go.deref cluster) (← Go.deref cr).time)

/-- Go's `SubtreeFromClusterController`; the body `null` decodes to a nil map. -/
def subtreeFromClusterController (msg : WireMessage) : Option SubTreeRouter :=
  match h.subTreeRouter msg.body with
  | .error _ => none
  | .ok subtrees => subtrees

/-- Go's `updateRouteToSubtree`. -/
def updateRouteToSubtree (msg : WireMessage) : Go RootStores (Except String Unit) := do
  match h.subtreeFromClusterController msg with
  | none => return .error "subtree route is empty"
  | some subtrees =>
      let clusterName := (← Go.deref msg.head).clusterName
      setRoutes (SubTreeRouter.updateRouteToSubtree h.it (← get).root.subtreeRouter clusterName
        (some subtrees))
      return .ok ()

/-- Go's `clusterMessageToClusterControllerStatusCRD`. -/
def clusterMessageToClusterControllerStatusCRD (msg : Option WireMessage) :
    Go RootStores (String × Option ClusterControllerStatus) := do
  match msg with
  | none => return ("", none)
  | some msg =>
      match h.controllerTaskResponse msg.body with
      | .error _ => return ("", none)
      | .ok resp =>
          return ((← Go.deref msg.head).clusterName, some ⟨resp.timestamp, resp.statusCode, resp.body⟩)

/-- Go's `clusterMessageToClusterControllerCRD`.  The status is not checked before it is dereferenced. -/
def clusterMessageToClusterControllerCRD (msg : Option WireMessage) :
    Go RootStores (Option ClusterController) := do
  match msg with
  | none => return none
  | some msg =>
      let head ← Go.deref msg.head
      let ret : ClusterController := ⟨head.messageID, clusterNamespace, some ∅⟩
      if head.command = .controlResp then
        -- no status if the body does not decode
        let (cluster, status) ← h.clusterMessageToClusterControllerStatusCRD (some msg)
        return some { ret with status := ← Go.assign ret.status cluster (← Go.deref status) }
      else return some ret

/-- The loop of `mergeToApiserver` over the clusters that have answered: a later answer replaces an earlier
one. -/
def mergeStatus (origin : Option (GoMap String ClusterControllerStatus))
    (status : GoMap String ClusterControllerStatus) :
    List String → Option (GoMap String ClusterControllerStatus) →
      Go RootStores (Option (GoMap String ClusterControllerStatus))
  | [], new => return new
  | cn :: rest, new =>
      match status.get cn, origin.bind fun m => m.get cn with
      | none, _ => mergeStatus origin status rest new
      | some s, none => do mergeStatus origin status rest (← Go.assign new cn s)
      | some s, some old => do
          if old.timestamp < s.timestamp then mergeStatus origin status rest (← Go.assign new cn s)
          else mergeStatus origin status rest new

/-- Go's `mergeToApiserver`. -/
def mergeToApiserver (msg : Option WireMessage) : Go RootStores (Except String Unit) := do
  match ← h.clusterMessageToClusterControllerCRD msg with
  | none => return .error "transfer cluster message to crd failed"
  | some cc =>
      let key : ObjectKey := ⟨cc.namespace, cc.name⟩
      match (← get).clusterControllers.get key with
      | none => return .ok ()
      | some origin =>
          let status := cc.status.getD ∅
          -- a status that is nil is made first
          let new ← mergeStatus origin.status status (h.it.order status) (some (origin.status.getD ∅))
          modify fun s => { s with
            clusterControllers := s.clusterControllers.set key { origin with status := new } }
          return .ok ()

/-- A head that names no parent gets the name of the receiver. -/
def withParentClusterName (head : MessageHead) : MessageHead :=
  if head.parentClusterName = "" then { head with parentClusterName := h.clusterName } else head

/-- Go's `handleMessageFromChild` at the root. -/
def handleMessageFromChild (client : String) (data : List UInt8) : Go RootStores (Except String Unit) := do
  match h.unmarshal data with
  | .error err => return .error ("deserialize cluster message(" ++ h.string data ++ ") failed: " ++ err)
  | .ok msg =>
      match msg.head with
      | none =>
          return .error ("deserialize cluster message(" ++ h.string data ++ ") failed: message head is nil")
      | some head =>
          let msg := { msg with head := some (h.withParentClusterName head) }
          match (h.withParentClusterName head).command with
          | .clusterRegist =>
              let _ ← h.sendToControllerManager msg
              h.handleRegistClusterMessage client msg
          | .clusterUnregist =>
              let _ ← h.sendToControllerManager msg
              h.handleUnregistClusterMessage client msg
          | .subTreeRoute =>
              let _ ← h.updateRouteToSubtree msg
              return .ok ()
          | command =>
              let ret ← h.sendToControllerManager msg
              if command = .controlResp then h.mergeToApiserver (some msg) else return ret

/-! ## Which of them panic -/

variable {h} {msg : WireMessage} {head : MessageHead} {data : List UInt8}

/-- Sending to the controller manager returns, and touches nothing that the root keeps. -/
theorem run_sendToControllerManager (h : RootHandler) (msg : WireMessage) (s : RootStores) :
    ∃ ret sent, (h.sendToControllerManager msg).run s = .ok (ret, { s with sent := sent }) := by
  unfold sendToControllerManager
  split
  · exact ⟨_, s.sent, rfl⟩
  · split
    · exact ⟨_, s.sent, rfl⟩
    · exact ⟨_, _, rfl⟩

/-- A registration is handled as the model of the decoded message says. -/
theorem run_handleRegistClusterMessage (h : RootHandler) (client : String) (msg : WireMessage)
    (s : RootStores) :
    (h.handleRegistClusterMessage client msg).run s =
      .ok ((s.root.handleRegistClusterMessage h.now client (h.getClusterRegistryFromClusterMessage msg)).1,
        { s with root := (s.root.handleRegistClusterMessage h.now client
          (h.getClusterRegistryFromClusterMessage msg)).2 }) := by
  unfold handleRegistClusterMessage Root.handleRegistClusterMessage
  cases h.getClusterRegistryFromClusterMessage msg with
  | none => rfl
  | some cr =>
      simp only [Option.map_some, Option.isNone_some, Bool.false_eq_true, if_false, StateT.run_bind,
        Go.run_deref_some, Go.run_get, Go.ok_bind]
      cases SubTreeRouter.addRoute s.root.subtreeRouter cr.name client <;> rfl

theorem run_handleUnregistClusterMessage (h : RootHandler) (client : String) (msg : WireMessage)
    (s : RootStores) :
    (h.handleUnregistClusterMessage client msg).run s =
      .ok ((s.root.handleUnregistClusterMessage h.it client (h.getClusterRegistryFromClusterMessage msg)).1,
        { s with root := (s.root.handleUnregistClusterMessage h.it client
          (h.getClusterRegistryFromClusterMessage msg)).2 }) := by
  unfold handleUnregistClusterMessage Root.handleUnregistClusterMessage
  cases h.getClusterRegistryFromClusterMessage msg <;> rfl

/-- A subtree report is handled as the model of the decoded message says. -/
theorem run_updateRouteToSubtree (h : RootHandler) (msg : WireMessage) (hhead : msg.head = some head)
    (s : RootStores) :
    ∃ ret, (h.updateRouteToSubtree msg).run s =
      .ok (ret, { s with root := { s.root with
        subtreeRouter := SubTreeRouter.updateRouteToSubtree h.it s.root.subtreeRouter head.clusterName
          (h.subtreeFromClusterController msg) } }) := by
  unfold updateRouteToSubtree
  rw [hhead]
  cases h.subtreeFromClusterController msg with
  | none => exact ⟨_, rfl⟩
  | some subtrees => exact ⟨_, rfl⟩

/-- The loop of `mergeToApiserver` writes to a map that is there. -/
theorem run_mergeStatus (origin : Option (GoMap String ClusterControllerStatus))
    (status : GoMap String ClusterControllerStatus) (s : RootStores) :
    ∀ (l : List String) (new : GoMap String ClusterControllerStatus),
      ∃ new', (mergeStatus origin status l (some new)).run s = .ok (some new', s)
  | [], new => ⟨new, rfl⟩
  | cn :: rest, new => by
      have hassign : ∀ v, ((Go.assign (some new) cn v : Go RootStores _) >>= fun m =>
          mergeStatus origin status rest m).run s =
            (mergeStatus origin status rest (some (new.set cn v))).run s := fun v => rfl
      unfold mergeStatus
      split
      · exact run_mergeStatus origin status s rest new
      · rw [hassign]
        exact run_mergeStatus origin status s rest _
      · split
        · rw [hassign]
          exact run_mergeStatus origin status s rest _
        · exact run_mergeStatus origin status s rest new

/-- The object made from a response whose body decodes. -/
theorem run_clusterMessageToClusterControllerCRD (hhead : msg.head = some head)
    (hcommand : head.command = .controlResp) {resp : ControllerTaskResponse}
    (hresp : h.controllerTaskResponse msg.body = .ok resp) (s : RootStores) :
    (h.clusterMessageToClusterControllerCRD (some msg)).run s =
      .ok (some ⟨head.messageID, clusterNamespace,
        some ((∅ : GoMap String ClusterControllerStatus).set head.clusterName
          ⟨resp.timestamp, resp.statusCode, resp.body⟩)⟩, s) := by
  simp only [clusterMessageToClusterControllerCRD, clusterMessageToClusterControllerStatusCRD, hhead,
    hcommand, hresp, if_true, StateT.run_bind, Go.run_deref_some, Go.run_assign_some, Go.run_pure, Go.ok_bind]

/-- A response whose body decodes is merged. -/
theorem run_mergeToApiserver_of_ok (msg : WireMessage) (hhead : msg.head = some head)
    (hcommand : head.command = .controlResp) {resp : ControllerTaskResponse}
    (hresp : h.controllerTaskResponse msg.body = .ok resp) (s : RootStores) :
    ∃ stored, (h.mergeToApiserver (some msg)).run s =
      .ok (.ok (), { s with clusterControllers := stored }) := by
  unfold mergeToApiserver
  rw [StateT.run_bind, run_clusterMessageToClusterControllerCRD hhead hcommand hresp s, Go.ok_bind]
  simp only [StateT.run_bind, Go.run_get, Go.ok_bind]
  split
  · exact ⟨s.clusterControllers, rfl⟩
  next origin _ =>
    generalize (∅ : GoMap String ClusterControllerStatus).set _ _ = status
    obtain ⟨new, hnew⟩ := run_mergeStatus origin.status status s (h.it.order status) (origin.status.getD ∅)
    refine ⟨s.clusterControllers.set ⟨clusterNamespace, head.messageID⟩
      { origin with status := some new }, ?_⟩
    rw [Option.getD_some, StateT.run_bind, hnew, Go.ok_bind]
    rfl

/-- A response whose body does not decode has no status to dereference. -/
theorem run_mergeToApiserver_of_error (msg : WireMessage) (hhead : msg.head = some head)
    (hcommand : head.command = .controlResp) {err : String}
    (hresp : h.controllerTaskResponse msg.body = .error err) (s : RootStores) :
    (h.mergeToApiserver (some msg)).run s = .error .nilDereference := by
  simp only [mergeToApiserver, clusterMessageToClusterControllerCRD,
    clusterMessageToClusterControllerStatusCRD, hhead, hcommand, if_true, hresp, StateT.run_bind,
    Go.run_deref_some, Go.ok_bind, Go.run_pure, Go.run_deref_none, Go.error_bind]

/-! ## Messages -/

/-- A message, as far as it concerns the routes. -/
def childMessage (h : RootHandler) (data : List UInt8) : ChildMessage :=
  match h.unmarshal data with
  | .error _ => .undecodable
  | .ok msg =>
      match msg.head with
      | none => .undecodable
      | some head =>
          match head.command with
          | .clusterRegist => .regist (h.getClusterRegistryFromClusterMessage msg)
          | .clusterUnregist => .unregist (h.getClusterRegistryFromClusterMessage msg)
          | .subTreeRoute => .subTreeRoute head.clusterName (h.subtreeFromClusterController msg)
          | _ => .other

/-- A response to a task whose body is not one. -/
def BadResponse (h : RootHandler) (data : List UInt8) : Prop :=
  ∃ msg head err, h.unmarshal data = .ok msg ∧ msg.head = some head ∧ head.command = .controlResp ∧
    h.controllerTaskResponse msg.body = .error err

@[simp] theorem command_withParentClusterName (h : RootHandler) (head : MessageHead) :
    (h.withParentClusterName head).command = head.command := by
  unfold withParentClusterName
  split <;> rfl

@[simp] theorem clusterName_withParentClusterName (h : RootHandler) (head : MessageHead) :
    (h.withParentClusterName head).clusterName = head.clusterName := by
  unfold withParentClusterName
  split <;> rfl

/-- What a registration does to the routes. -/
theorem handling_regist_alone (it : MapOrder String) (now : Int) (root : Root) (client : String)
    (cr : Option ClusterRegistry) :
    runSteps Handling.alone (root.subtreeRouter, some (.start client (.regist cr))) (List.replicate 1 it) =
      some ((root.handleRegistClusterMessage now client cr).2.subtreeRouter, none) := by
  cases cr with
  | none => rfl
  | some cr =>
      change some (SubTreeRouter.afterAddRoute root.subtreeRouter cr.name client, none) = _
      unfold SubTreeRouter.afterAddRoute
      simp only [Root.handleRegistClusterMessage]
      cases SubTreeRouter.addRoute root.subtreeRouter cr.name client <;> rfl

/-- What an unregistration does to the routes. -/
theorem handling_unregist_alone (it : MapOrder String) (root : Root) (client : String)
    (cr : Option ClusterRegistry) :
    runSteps Handling.alone (root.subtreeRouter, some (.start client (.unregist cr))) (List.replicate 1 it) =
      some ((root.handleUnregistClusterMessage it client cr).2.subtreeRouter, none) := by
  cases cr <;> rfl

/-- Every other message is handled to its end, and the routes change as `Handling` says. -/
theorem run_handleMessageFromChild (hgood : ¬ h.BadResponse data) (client : String) (s : RootStores) :
    ∃ ret s' n, (h.handleMessageFromChild client data).run s = .ok (ret, s') ∧
      runSteps Handling.alone (s.root.subtreeRouter, some (.start client (h.childMessage data)))
        (List.replicate n h.it) = some (s'.root.subtreeRouter, none) := by
  unfold handleMessageFromChild childMessage
  cases hdata : h.unmarshal data with
  | error err => exact ⟨_, s, 1, rfl, rfl⟩
  | ok msg =>
      cases hhead : msg.head with
      | none =>
          simp only [hhead]
          exact ⟨_, s, 1, rfl, rfl⟩
      | some head =>
          -- what is sent on concerns neither the routes nor the decoders
          obtain ⟨ret, sent, hsend⟩ := run_sendToControllerManager h
            { msg with head := some (h.withParentClusterName head) } s
          simp only [hhead, command_withParentClusterName]
          cases hcommand : head.command with
          | clusterRegist =>
              simp only [StateT.run_bind, hsend, Go.ok_bind]
              exact ⟨_, _, 1, run_handleRegistClusterMessage h client _ _,
                handling_regist_alone h.it h.now s.root client _⟩
          | clusterUnregist =>
              simp only [StateT.run_bind, hsend, Go.ok_bind]
              exact ⟨_, _, 1, run_handleUnregistClusterMessage h client _ _,
                handling_unregist_alone h.it s.root client _⟩
          | subTreeRoute =>
              obtain ⟨ret, hupdate⟩ := run_updateRouteToSubtree h
                { msg with head := some (h.withParentClusterName head) } rfl s
              obtain ⟨n, hroutes⟩ := Handling.handling_subTreeRoute_alone h.it s.root.subtreeRouter client
                head.clusterName (h.subtreeFromClusterController msg)
              rw [clusterName_withParentClusterName] at hupdate
              simp only [StateT.run_bind, hupdate, Go.ok_bind]
              exact ⟨_, _, n, rfl, hroutes⟩
          | controlResp =>
              simp only [StateT.run_bind, hsend, Go.ok_bind, if_true]
              cases hresp : h.controllerTaskResponse msg.body with
              | error err => exact absurd ⟨msg, head, err, hdata, hhead, hcommand, hresp⟩ hgood
              | ok resp =>
                  obtain ⟨stored, hmerge⟩ := run_mergeToApiserver_of_ok
                    { msg with head := some (h.withParentClusterName head) } rfl
                    ((command_withParentClusterName h head).trans hcommand) hresp { s with sent := sent }
                  exact ⟨_, _, 1, hmerge, rfl⟩
          | _ =>
              simp only [StateT.run_bind, hsend, Go.ok_bind, reduceCtorEq, if_false]
              exact ⟨_, _, 1, rfl, rfl⟩

/-- A response whose body does not decode stops the root. -/
theorem run_handleMessageFromChild_of_badResponse (hbad : h.BadResponse data) (client : String)
    (s : RootStores) : (h.handleMessageFromChild client data).run s = .error .nilDereference := by
  obtain ⟨msg, head, err, hdata, hhead, hcommand, hresp⟩ := hbad
  obtain ⟨ret, sent, hsend⟩ := run_sendToControllerManager h
    { msg with head := some (h.withParentClusterName head) } s
  simp only [handleMessageFromChild, hdata, hhead, command_withParentClusterName, hcommand, StateT.run_bind,
    hsend, Go.ok_bind, if_true]
  exact run_mergeToApiserver_of_error { msg with head := some (h.withParentClusterName head) } rfl
    ((command_withParentClusterName h head).trans hcommand) hresp _

/-- The bytes that crash the root, in any state and from any child, are the responses to a task whose body
does not decode. -/
theorem handleMessageFromChild_panics_iff (h : RootHandler) (client : String) (data : List UInt8)
    (s : RootStores) : (h.handleMessageFromChild client data).Panics s ↔ h.BadResponse data := by
  constructor
  · intro hpanics
    by_contra hgood
    obtain ⟨ret, s', n, hrun, -⟩ := run_handleMessageFromChild hgood client s
    exact Go.not_panics_of_run hrun hpanics
  · intro hbad
    exact ⟨.nilDereference, run_handleMessageFromChild_of_badResponse hbad client s⟩

/-! ## A response that is not one -/

/-- The message with the command 8 of a response and the body `[1]`, as proto3 writes it: the head is field 1
and has the command as its field 2, the body is field 2. -/
def responseBytes : List UInt8 := [0x0a, 0x02, 0x10, 0x08, 0x12, 0x01, 0x01]

/-- A root that reads `responseBytes`; the byte 1 would begin a field with the number 0, which no message
has. -/
def rootOfResponse : RootHandler where
  clusterName := "root"
  string _ := ""
  format _ := ""
  unmarshal data :=
    if data = responseBytes then .ok ⟨some ⟨"", .controlResp, "", "", ""⟩, [1]⟩ else .error "unexpected EOF"
  clusterRegistry _ := .error "unexpected end of JSON input"
  subTreeRouter _ := .error "unexpected end of JSON input"
  controllerTaskResponse body :=
    if body = [] then .ok ⟨0, 0, ""⟩ else .error "proto: illegal tag 0 (wire type 1)"
  marshal _ := .ok responseBytes
  send _ := .ok ()
  now := 0
  it := MapOrder.sorted

/-- A child that sends it crashes the root. -/
theorem response_crashes_root :
    (rootOfResponse.handleMessageFromChild "c1" responseBytes).Panics ⟨rootOfC1, ∅, []⟩ :=
  ⟨.nilDereference, rfl⟩

end RootHandler

end OteStack
