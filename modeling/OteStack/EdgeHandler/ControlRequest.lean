/-
# OteStack.EdgeHandler.ControlRequest — a control request on its way through a cluster controller.

`receiveMessageFromTunnel` of `pkg/edgehandler`, with the local shim client and its handlers
(`pkg/clustershim`).  A request from the parent is put into `EdgeToClusterChan` for the children, and if its
selector matches the local cluster it is also carried out here.  What is put into the channel is a copy of
the message, but the copy shares the head, so heads are cells of a memory (`Memory`) and messages refer to
them (`MessageRef`).  The functions are programs over this memory, one call for each access, so that the
cluster handler can take the message from the channel between any two of them.

The shim client answers with a head of its own only if it finds no task or no handler.  Otherwise the
response has the head of the request, and `Command` and `ClusterName` of the response are assigned to it:
whoever takes the message from the channel after that finds a response (`forwarded_head_iff`).
-/
import OteStack.ClusterMessage
import OteStack.ClusterSelector
import OteStack.Lib.GoMap
import OteStack.Lib.Proc

namespace OteStack

/-- The name of a command, as `String()` gives it. -/
def CommandType.text : CommandType → String
  | reserved => "Reserved"
  | clusterRegist => "ClusterRegist"
  | clusterUnregist => "ClusterUnregist"
  | neighborRoute => "NeighborRoute"
  | subTreeRoute => "SubTreeRoute"
  | deployReq => "DeployReq"
  | deployResp => "DeployResp"
  | controlReq => "ControlReq"
  | controlResp => "ControlResp"
  | edgeReport => "EdgeReport"
  | controlMultiReq => "ControlMultiReq"
  | unrecognized number => toString number

open OteStack.Lib (GoMap Proc)

namespace EdgeHandler

/-! ## Memory -/

/-- A pointer to a message head. -/
abbrev Ptr := ℕ

/-- A cluster message, as Go's structure has it. -/
structure MessageRef where
  head : Ptr
  body : List UInt8
  deriving DecidableEq, Repr

/-- The heads in memory, the messages in `EdgeToClusterChan`, and those sent to the parent. -/
structure Memory where
  heads : List MessageHead
  edgeToClusterChan : List MessageRef
  sendToParentChan : List ClusterMessage
  deriving DecidableEq, Repr

/-- The accesses to the memory and the channels. -/
inductive Access where
  | newHead (head : MessageHead)
  | readHead (p : Ptr)
  | setCommand (p : Ptr) (command : CommandType)
  | setClusterName (p : Ptr) (name : String)
  | forward (msg : MessageRef)
  | sendToParent (msg : ClusterMessage)
  deriving DecidableEq, Repr

/-- What an access answers. -/
def Answer : Access → Type
  | .newHead _ => Ptr
  | .readHead _ => MessageHead
  | _ => Unit

/-- A head without anything in it. -/
def emptyHead : MessageHead := ⟨"", .reserved, "", "", ""⟩

/-- Change a field of a head. -/
def Memory.assign (m : Memory) (p : Ptr) (f : MessageHead → MessageHead) : Memory :=
  { m with heads := m.heads.modify p f }

/-- One access. -/
def serve (m : Memory) : (x : Access) → Answer x × Memory
  | .newHead head => (m.heads.length, { m with heads := m.heads ++ [head] })
  | .readHead p => (m.heads.getD p emptyHead, m)
  | .setCommand p command => ((), m.assign p fun h => { h with command := command })
  | .setClusterName p name => ((), m.assign p fun h => { h with clusterName := name })
  | .forward msg => ((), { m with edgeToClusterChan := m.edgeToClusterChan ++ [msg] })
  | .sendToParent msg => ((), { m with sendToParentChan := m.sendToParentChan ++ [msg] })

/-- A program over the memory. -/
abbrev Program := Proc Access Answer

def newHead (head : MessageHead) : Program Ptr := .call (.newHead head) .done

def readHead (p : Ptr) : Program MessageHead := .call (.readHead p) .done

def setCommand (p : Ptr) (command : CommandType) : Program Unit := .call (.setCommand p command) .done

def setClusterName (p : Ptr) (name : String) : Program Unit := .call (.setClusterName p name) .done

def forward (msg : MessageRef) : Program Unit := .call (.forward msg) .done

/-! ## Handlers -/

/-- The handlers of `pkg/clustershim/handler`, by how the server behind them answers a task: the API server
with a status and a body, the server behind the proxy perhaps not at all.  `addr` is its address. -/
inductive Handler where
  | k8s (rest : ControllerTask → Int × String)
  | httpProxy (addr : String) (send : String → ControllerTask → Except String (Int × String))

end EdgeHandler

/-- What an edge handler works with: its cluster, protobuf, the clock, and the handlers of its shim
client. -/
structure EdgeHandler where
  clusterName : String
  regexp : Regexp
  unmarshal : List UInt8 → Except String ClusterMessage
  controllerTask : List UInt8 → Option ControllerTask
  controlMultiTask : List UInt8 → Option ControlMultiTask
  marshal : ControllerTaskResponse → List UInt8
  now : Int
  handlers : GoMap String EdgeHandler.Handler

namespace EdgeHandler

variable (e : EdgeHandler)

/-- Go's `ControlTaskResponse`. -/
def controlTaskResponse (status : Int) (body : String) : List UInt8 := e.marshal ⟨e.now, status, body⟩

/-- Go's `responseErrorStatus`. -/
def responseErrorStatus (err : String) : List UInt8 := controlTaskResponse e 500 err

/-- The methods that the API server and the proxy are asked with. -/
def Handler.methods : Handler → List String
  | k8s _ => ["GET", "POST", "DELETE", "PUT", "PATCH"]
  | httpProxy _ _ => ["GET", "POST", "DELETE", "PUT"]

/-- `DoControlRequest` of the handlers. -/
def Handler.doControlRequest (h : Handler) (msg : MessageRef) : List UInt8 × Option String :=
  match e.controllerTask msg.body with
  | none => (controlTaskResponse e 404 "", some "Controllertask Not Found")
  | some task =>
      if h.methods.contains task.method then
        match h with
        | .k8s rest => (controlTaskResponse e (rest task).1 (rest task).2, none)
        | .httpProxy addr send =>
            match send (addr ++ task.uri) task with
            | .error err => (controlTaskResponse e 500 "", some err)
            | .ok (status, body) => (controlTaskResponse e status body, none)
      else (controlTaskResponse e 405 "", some "method not allowed")

/-- `DoControlMultiRequest` of `k8sHandler`; the answers to the requests are only logged. -/
def doControlMultiRequest (h : Handler) (msg : MessageRef) : Option String :=
  match e.controlMultiTask msg.body with
  | none => some "ControlMultiTask Not Found"
  | some task => if h.methods.contains task.method then none else some "method not allowed"

/-- `Do` of the handlers. -/
def Handler.do (h : Handler) (msg : MessageRef) : Program (Option MessageRef × Option String) := do
  let head ← readHead msg.head
  match h, head.command with
  | _, .controlReq =>
      let (resp, err) := h.doControlRequest e msg
      return (some ⟨msg.head, resp⟩, err)
  | .k8s _, .controlMultiReq => return (none, doControlMultiRequest e h msg)
  | .k8s _, command => return (none, some ("command " ++ command.text ++ " is not supported by k8sHandler"))
  | .httpProxy _ _, command =>
      return (none, some ("command " ++ command.text ++ " is not supported by httpProxyHandler"))

/-! ## The shim client and the edge handler -/

/-- `localShimClient.DoControlRequest`. -/
def shimControlRequest (msg : MessageRef) : Program (Option MessageRef × Option String) := do
  -- the copy is for the replies of the client itself
  let head ← newHead (← readHead msg.head)
  setCommand head .controlResp
  match e.controllerTask msg.body with
  | none => return (some ⟨head, controlTaskResponse e 404 ""⟩, some "ControllerTask Not Found")
  | some task =>
      match e.handlers.get task.destination with
      | some h =>
          -- the handlers answer with the head of the request
          let (resp, err) ← h.do e msg
          match resp with
          | some resp => setCommand resp.head .controlResp
          | none => pure ()
          return (resp, err)
      | none =>
          return (some ⟨head, controlTaskResponse e 404 ""⟩, some ("no handler for " ++ task.destination))

/-- `localShimClient.DoControlMultiRequest`. -/
def shimControlMultiRequest (msg : MessageRef) : Program (Option String) :=
  match e.controlMultiTask msg.body with
  | none => return some "ControlMultiTask Not Found"
  | some task =>
      match e.handlers.get task.destination with
      | some h => do
          let (_, err) ← h.do e msg
          return err
      | none => return some ("no handler for " ++ task.destination)

/-- `localShimClient.Do`. -/
def shimDo (msg : MessageRef) : Program (Option MessageRef × Option String) := do
  let head ← readHead msg.head
  match head.command with
  | .controlReq => shimControlRequest e msg
  | .controlMultiReq => return (none, ← shimControlMultiRequest e msg)
  | command => return (none, some ("command " ++ command.text ++ " is not supported by ShimClient"))

/-- Go's `sendToParent`; the message is serialised as it is now. -/
def sendToParent (msg : MessageRef) : Program Unit := do
  let head ← readHead msg.head
  .call (.sendToParent ⟨head, msg.body⟩) .done

/-- Go's `handleMessage`. -/
def handleMessage (msg : MessageRef) : Program (Option String) := do
  let head ← readHead msg.head
  match head.command with
  | .controlReq =>
      let (resp, err) ← shimDo e msg
      match resp with
      | some resp =>
          let body := match err with
            | some err => responseErrorStatus e err
            | none => resp.body
          setClusterName resp.head e.clusterName
          sendToParent ⟨resp.head, body⟩
          return none
      | none => return err
  | .controlMultiReq =>
      let (_, err) ← shimDo e msg
      return err
  | _ => return none

/-- What `receiveMessageFromTunnel` does after the message has been put into the channel. -/
def handleSelected (msg : MessageRef) : Program (Option String) := do
  let head ← readHead msg.head
  if (newSelector head.clusterSelector).has e.regexp e.clusterName then
    let _ ← handleMessage e msg
    return none
  else return none

/-- Go's `receiveMessageFromTunnel`, for messages with a head. -/
def receiveMessageFromTunnel (data : List UInt8) : Program (Option String) :=
  match e.unmarshal data with
  | .error err => return some ("can not deserialize message, error: " ++ err)
  | .ok msg => do
      let p ← newHead msg.head
      forward ⟨p, msg.body⟩
      handleSelected e ⟨p, msg.body⟩

/-! ## The accesses of a request -/

/-- The memory after some accesses. -/
def Memory.after (m : Memory) (past : List Access) : Memory := past.foldl (fun m x => (serve m x).2) m

/-- The access changes the head. -/
def Access.Writes (p : Ptr) : Access → Prop
  | .setCommand p' _ => p' = p
  | .setClusterName p' _ => p' = p
  | _ => False

/-- The selector matches the local cluster. -/
def Selected (msg : ClusterMessage) : Prop :=
  (newSelector msg.head.clusterSelector).has e.regexp e.clusterName = true

/-- The message is a request that is given to a local handler. -/
def Dispatched (msg : ClusterMessage) : Prop :=
  e.Selected msg ∧ msg.head.command = .controlReq ∧
    ∃ task ∈ e.controllerTask msg.body, (e.handlers.get task.destination).isSome

section Accesses

variable {m : Memory} {p : Ptr} {head : MessageHead} {body : List UInt8}

@[simp] theorem run_readHead (p : Ptr) (m : Memory) :
    Proc.run serve (readHead p) m = (m.heads.getD p emptyHead, m) := rfl

@[simp] theorem calls_readHead (p : Ptr) (m : Memory) : Proc.calls serve (readHead p) m = [.readHead p] := rfl

@[simp] theorem run_newHead (head : MessageHead) (m : Memory) :
    Proc.run serve (newHead head) m = (m.heads.length, { m with heads := m.heads ++ [head] }) := rfl

@[simp] theorem calls_newHead (head : MessageHead) (m : Memory) :
    Proc.calls serve (newHead head) m = [.newHead head] := rfl

@[simp] theorem run_setCommand (p : Ptr) (command : CommandType) (m : Memory) :
    Proc.run serve (setCommand p command) m = ((), m.assign p fun h => { h with command := command }) := rfl

@[simp] theorem calls_setCommand (p : Ptr) (command : CommandType) (m : Memory) :
    Proc.calls serve (setCommand p command) m = [.setCommand p command] := rfl

@[simp] theorem run_setClusterName (p : Ptr) (name : String) (m : Memory) :
    Proc.run serve (setClusterName p name) m = ((), m.assign p fun h => { h with clusterName := name }) := rfl

@[simp] theorem calls_setClusterName (p : Ptr) (name : String) (m : Memory) :
    Proc.calls serve (setClusterName p name) m = [.setClusterName p name] := rfl

@[simp] theorem calls_sendToParent (msg : MessageRef) (m : Memory) :
    Proc.calls serve (sendToParent msg) m =
      [.readHead msg.head, .sendToParent ⟨m.heads.getD msg.head emptyHead, msg.body⟩] := rfl

/-- The memory when the shim client looks for a handler: it has made a head of its own. -/
def cloned (m : Memory) (head : MessageHead) : Memory :=
  { m with heads := m.heads ++ [{ head with command := .controlResp }] }

theorem assign_cloned (m : Memory) (head : MessageHead) :
    Memory.assign { m with heads := m.heads ++ [head] } m.heads.length
      (fun h => { h with command := .controlResp }) = cloned m head := by
  rw [Memory.assign, List.modify_eq_take_cons_drop (by simp)]
  simp [cloned]

/-- The pointer to the request is still one to it. -/
theorem getD_cloned (hhead : m.heads[p]? = some head) : (cloned m head).heads.getD p emptyHead = head := by
  obtain ⟨hp, -⟩ := List.getElem?_eq_some_iff.mp hhead
  simp [cloned, List.getD, List.getElem?_append_left hp, hhead]

theorem shimControlRequest_of_some {task : ControllerTask} {h : Handler} (hhead : m.heads[p]? = some head)
    (hcommand : head.command = .controlReq) (htask : e.controllerTask body = some task)
    (hhandler : e.handlers.get task.destination = some h) :
    Proc.run serve (shimControlRequest e ⟨p, body⟩) m =
      ((some ⟨p, (h.doControlRequest e ⟨p, body⟩).1⟩, (h.doControlRequest e ⟨p, body⟩).2),
        (cloned m head).assign p fun h => { h with command := .controlResp }) ∧
    Proc.calls serve (shimControlRequest e ⟨p, body⟩) m =
      [.readHead p, .newHead head, .setCommand m.heads.length .controlResp, .readHead p,
        .setCommand p .controlResp] := by
  have hget : m.heads.getD p emptyHead = head := by simp [List.getD, hhead]
  simp only [shimControlRequest, Proc.run_do, Proc.calls_do, run_readHead, calls_readHead, run_newHead,
    calls_newHead, run_setCommand, calls_setCommand, hget, assign_cloned, htask, hhandler, Handler.do,
    getD_cloned hhead, hcommand, Proc.run_pure, Proc.calls_pure]
  simp

/-- Without a task or a handler, the response has the head that the shim client has made. -/
theorem shimControlRequest_of_none (hhead : m.heads[p]? = some head)
    (hnone : ∀ task ∈ e.controllerTask body, e.handlers.get task.destination = none) :
    Proc.run serve (shimControlRequest e ⟨p, body⟩) m =
      ((some ⟨m.heads.length, controlTaskResponse e 404 ""⟩, some (match e.controllerTask body with
        | none => "ControllerTask Not Found"
        | some task => "no handler for " ++ task.destination)), cloned m head) ∧
    Proc.calls serve (shimControlRequest e ⟨p, body⟩) m =
      [.readHead p, .newHead head, .setCommand m.heads.length .controlResp] := by
  have hget : m.heads.getD p emptyHead = head := by simp [List.getD, hhead]
  cases htask : e.controllerTask body with
  | none =>
      simp only [shimControlRequest, Proc.run_do, Proc.calls_do, run_readHead, calls_readHead, run_newHead,
        calls_newHead, run_setCommand, calls_setCommand, hget, assign_cloned, htask, Proc.run_pure,
        Proc.calls_pure]
      simp
  | some task =>
      simp only [shimControlRequest, Proc.run_do, Proc.calls_do, run_readHead, calls_readHead, run_newHead,
        calls_newHead, run_setCommand, calls_setCommand, hget, assign_cloned, htask, hnone task htask,
        Proc.run_pure, Proc.calls_pure]
      simp

/-- A request that is given to a handler: its head becomes that of the response, once. -/
theorem calls_of_dispatched {msg : ClusterMessage} (hhead : m.heads[p]? = some msg.head)
    (h : e.Dispatched msg) :
    ∃ pre post, Proc.calls serve (handleSelected e ⟨p, msg.body⟩) m =
        pre ++ .setCommand p .controlResp :: post ∧
      (∀ x ∈ pre, ¬ x.Writes p) ∧ ∀ x ∈ post, ∀ command, x ≠ .setCommand p command := by
  obtain ⟨hselected, hcommand, task, htask, hsome⟩ := h
  obtain ⟨hd, hhandler⟩ := Option.isSome_iff_exists.mp hsome
  obtain ⟨hp, -⟩ := List.getElem?_eq_some_iff.mp hhead
  have hget : m.heads.getD p emptyHead = msg.head := by simp [List.getD, hhead]
  obtain ⟨hrun, hcalls⟩ := shimControlRequest_of_some e hhead hcommand htask hhandler
  rw [Selected] at hselected
  simp only [handleSelected, handleMessage, shimDo, Proc.run_do, Proc.calls_do, run_readHead, calls_readHead,
    hget, hselected, if_true, hcommand, hrun, hcalls, run_setClusterName, calls_setClusterName,
    calls_sendToParent, Proc.calls_pure]
  -- up to there the head of the request is only read, and a new one is written
  refine ⟨[.readHead p, .readHead p, .readHead p, .readHead p, .newHead msg.head,
    .setCommand m.heads.length .controlResp, .readHead p], _, rfl, ?_, ?_⟩
  · have hne : m.heads.length ≠ p := hp.ne'
    simp [Access.Writes, hne]
  · simp

/-- The handlers themselves only read. -/
theorem not_writes_handler (h : Handler) (msg : MessageRef) :
    ∀ x ∈ Proc.calls serve (h.do e msg) m, ¬ x.Writes p := by
  intro x hx
  simp only [Handler.do, Proc.calls_do, calls_readHead, List.mem_append, List.mem_singleton] at hx
  rcases hx with rfl | hx
  · exact id
  · split at hx <;> simp at hx

theorem not_writes_shimControlMultiRequest (msg : MessageRef) :
    ∀ x ∈ Proc.calls serve (shimControlMultiRequest e msg) m, ¬ x.Writes p := by
  intro x hx
  unfold shimControlMultiRequest at hx
  split at hx
  · simp at hx
  · split at hx
    · simp only [Proc.calls_do, Proc.calls_pure, List.append_nil] at hx
      exact not_writes_handler e _ msg x hx
    · simp at hx

/-- Any other message: its head is not written to. -/
theorem not_writes_of_not_dispatched {msg : ClusterMessage} (hhead : m.heads[p]? = some msg.head)
    (h : ¬ e.Dispatched msg) :
    ∀ x ∈ Proc.calls serve (handleSelected e ⟨p, msg.body⟩) m, ¬ x.Writes p := by
  have hget : m.heads.getD p emptyHead = msg.head := by simp [List.getD, hhead]
  obtain ⟨hp, -⟩ := List.getElem?_eq_some_iff.mp hhead
  intro x hx
  simp only [handleSelected, Proc.calls_do, run_readHead, calls_readHead, hget, List.mem_append,
    List.mem_singleton] at hx
  rcases hx with rfl | hx
  · exact id
  split at hx
  · rename_i hselected
    simp only [handleMessage, Proc.calls_do, run_readHead, calls_readHead, hget, Proc.calls_pure,
      List.append_nil, List.mem_append, List.mem_singleton] at hx
    rcases hx with rfl | hx
    · exact id
    split at hx
    · rename_i hcommand
      have hnone : ∀ task ∈ e.controllerTask msg.body, e.handlers.get task.destination = none := by
        intro task htask
        by_contra hne
        exact h ⟨hselected, hcommand, task, htask, Option.isSome_iff_ne_none.mpr hne⟩
      -- the reply has the head that the client has made
      obtain ⟨hrun, hcalls⟩ := shimControlRequest_of_none e hhead hnone
      simp only [shimDo, Proc.run_do, Proc.calls_do, run_readHead, calls_readHead, hget, hcommand, hrun,
        hcalls, run_setClusterName, calls_setClusterName, calls_sendToParent, Proc.calls_pure,
        List.mem_append, List.mem_cons, List.not_mem_nil, or_false] at hx
      have hne : m.heads.length ≠ p := hp.ne'
      rcases hx with (rfl | rfl | rfl | rfl) | rfl | rfl | rfl <;> simp [Access.Writes, hne]
    · rename_i hcommand
      simp only [shimDo, Proc.calls_do, run_readHead, calls_readHead, hget, hcommand, Proc.calls_pure,
        List.append_nil, List.mem_append, List.mem_singleton] at hx
      rcases hx with rfl | hx
      · exact id
      · exact not_writes_shimControlMultiRequest e _ x hx
    · simp at hx
  · simp at hx

/-- Accesses that do not write to a head leave it as it is. -/
theorem heads_after (past : List Access) (hpast : ∀ x ∈ past, ¬ x.Writes p) (hp : p < m.heads.length) :
    (m.after past).heads[p]? = m.heads[p]? := by
  induction past generalizing m with
  | nil => rfl
  | cons x past ih =>
      have hx := hpast x (by simp)
      have hone : (serve m x).2.heads[p]? = m.heads[p]? ∧ p < (serve m x).2.heads.length := by
        cases x with
        | newHead head =>
            refine ⟨List.getElem?_append_left hp, ?_⟩
            simp [serve, Nat.lt_succ_of_lt hp]
        | setCommand p' command =>
            have hne : p' ≠ p := hx
            simp [serve, Memory.assign, hne, hp]
        | setClusterName p' name =>
            have hne : p' ≠ p := hx
            simp [serve, Memory.assign, hne, hp]
        | _ => exact ⟨rfl, hp⟩
      rw [Memory.after, List.foldl_cons, ← hone.1]
      exact ih (fun y hy => hpast y (List.mem_cons_of_mem _ hy)) hone.2

/-- Once the head is that of a response, it stays so while nothing else is assigned to its command. -/
theorem command_after (past : List Access) (hpast : ∀ x ∈ past, ∀ command, x ≠ .setCommand p command)
    (hcommand : (m.heads[p]?).map MessageHead.command = some .controlResp) :
    ((m.after past).heads[p]?).map MessageHead.command = some .controlResp := by
  induction past generalizing m with
  | nil => exact hcommand
  | cons x past ih =>
      have hx := hpast x (by simp)
      refine ih (fun y hy => hpast y (List.mem_cons_of_mem _ hy)) ?_
      cases x with
      | newHead head =>
          obtain ⟨old, hold, -⟩ := Option.map_eq_some_iff.mp hcommand
          obtain ⟨hp, -⟩ := List.getElem?_eq_some_iff.mp hold
          simpa [serve, List.getElem?_append_left hp] using hcommand
      | setCommand p' command =>
          have hne : p' ≠ p := by
            rintro rfl
            exact hx command rfl
          simpa [serve, Memory.assign, List.getElem?_modify, hne] using hcommand
      | setClusterName p' name =>
          obtain ⟨old, hold, hcmd⟩ := Option.map_eq_some_iff.mp hcommand
          by_cases heq : p' = p
          · simp [serve, Memory.assign, heq, hold, hcmd]
          · simpa [serve, Memory.assign, List.getElem?_modify, heq] using hcommand
      | _ => exact hcommand

theorem Memory.after_append (m : Memory) (past rest : List Access) :
    m.after (past ++ rest) = (m.after past).after rest :=
  List.foldl_append

/-- A head is as it was exactly until it becomes that of a response. -/
theorem head_after_iff (hhead : m.heads[p]? = some head) (hcommand : head.command ≠ .controlResp)
    {pre post past rest : List Access} (hpre : ∀ x ∈ pre, ¬ x.Writes p)
    (hpost : ∀ x ∈ post, ∀ command, x ≠ .setCommand p command)
    (hsplit : pre ++ .setCommand p .controlResp :: post = past ++ rest) :
    (m.after past).heads[p]? = some head ↔ .setCommand p .controlResp ∈ rest := by
  obtain ⟨hp, -⟩ := List.getElem?_eq_some_iff.mp hhead
  have hbefore : (m.after pre).heads[p]? = some head := (heads_after pre hpre hp).trans hhead
  rcases List.append_eq_append_iff.mp hsplit with ⟨more, rfl, hrest⟩ | ⟨more, rfl, rfl⟩
  · rcases List.cons_eq_append_iff.mp hrest with ⟨rfl, rfl⟩ | ⟨since, rfl, rfl⟩
    · refine iff_of_true ?_ (by simp)
      rw [List.append_nil, hbefore]
    · -- the assignment has been made
      refine iff_of_false (fun hsame => ?_) fun hmem => hpost _ (List.mem_append_right _ hmem) _ rfl
      have hassigned : ((serve (m.after pre) (.setCommand p .controlResp)).2.heads[p]?).map
          MessageHead.command = some .controlResp := by
        simp [serve, Memory.assign, hbefore]
      have hafter := command_after since (fun x hx => hpost x (List.mem_append_left _ hx)) hassigned
      have hmemory : m.after (pre ++ .setCommand p .controlResp :: since) =
          (serve (m.after pre) (.setCommand p .controlResp)).2.after since := by
        rw [Memory.after_append]
        rfl
      rw [← hmemory, hsame] at hafter
      exact hcommand (Option.some.inj hafter)
  · refine iff_of_true ?_ (by simp)
    rw [heads_after past (fun x hx => hpre x (List.mem_append_left _ hx)) hp, hhead]

end Accesses

/-- What the cluster handler gets when it takes a message from the channel. -/
def Memory.load (m : Memory) (msg : MessageRef) : Option ClusterMessage :=
  (m.heads[msg.head]?).map fun head => ⟨head, msg.body⟩

theorem Memory.load_eq_some_iff {m : Memory} {p : Ptr} {msg : ClusterMessage} :
    m.load ⟨p, msg.body⟩ = some msg ↔ m.heads[p]? = some msg.head := by
  rw [Memory.load, Option.map_eq_some_iff]
  constructor
  · rintro ⟨head, hhead, heq⟩
    rw [hhead, ← heq]
  · intro hhead
    exact ⟨msg.head, hhead, rfl⟩

theorem calls_receiveMessageFromTunnel {data : List UInt8} {msg : ClusterMessage}
    (hdata : e.unmarshal data = .ok msg) (m : Memory) :
    Proc.calls serve (receiveMessageFromTunnel e data) m =
      .newHead msg.head :: .forward ⟨m.heads.length, msg.body⟩ ::
        Proc.calls serve (handleSelected e ⟨m.heads.length, msg.body⟩)
          (m.after [.newHead msg.head, .forward ⟨m.heads.length, msg.body⟩]) := by
  simp only [receiveMessageFromTunnel, hdata, Proc.calls_do]
  rfl

/-- The head of a queued message while it is being handled. -/
theorem queued_head_iff {p : Ptr} {m : Memory} {msg : ClusterMessage} {past rest : List Access}
    (hhead : m.heads[p]? = some msg.head)
    (hcalls : Proc.calls serve (handleSelected e ⟨p, msg.body⟩) m = past ++ rest) :
    (m.after past).heads[p]? = some msg.head ↔
      ¬ e.Dispatched msg ∨ .setCommand p .controlResp ∈ rest := by
  by_cases h : e.Dispatched msg
  · obtain ⟨pre, post, htrace, hpre, hpost⟩ := calls_of_dispatched e hhead h
    have hcommand : msg.head.command ≠ .controlResp := by simp [h.2.1]
    rw [head_after_iff hhead hcommand hpre hpost (htrace.symm.trans hcalls)]
    simp [h]
  · refine iff_of_true ?_ (Or.inl h)
    have hfree := not_writes_of_not_dispatched e hhead h
    obtain ⟨hp, -⟩ := List.getElem?_eq_some_iff.mp hhead
    rw [heads_after past (fun x hx => hfree x (hcalls ▸ List.mem_append_left _ hx)) hp, hhead]

/-- A message that has just been put into the channel. -/
theorem heads_queued (m : Memory) (msg : ClusterMessage) :
    (m.after [.newHead msg.head, .forward ⟨m.heads.length, msg.body⟩]).heads[m.heads.length]? =
      some msg.head := by
  simp [Memory.after, serve]

theorem after_queued (m : Memory) (msg : ClusterMessage) (past : List Access) :
    m.after (.newHead msg.head :: .forward ⟨m.heads.length, msg.body⟩ :: past) =
      (m.after [.newHead msg.head, .forward ⟨m.heads.length, msg.body⟩]).after past :=
  Memory.after_append m [_, _] past

/-- For every message from the parent and every moment after it has been put into the channel: whoever takes
it then gets what the parent sent, unless it is a request that is given to a local handler and the response
has been made already. -/
theorem forwarded_head_iff {data : List UInt8} {msg : ClusterMessage} (hdata : e.unmarshal data = .ok msg)
    (m : Memory) {past rest : List Access}
    (hcalls : Proc.calls serve (receiveMessageFromTunnel e data) m =
      .newHead msg.head :: .forward ⟨m.heads.length, msg.body⟩ :: (past ++ rest)) :
    (m.after (.newHead msg.head :: .forward ⟨m.heads.length, msg.body⟩ :: past)).load
        ⟨m.heads.length, msg.body⟩ = some msg ↔
      ¬ e.Dispatched msg ∨ .setCommand m.heads.length .controlResp ∈ rest := by
  rw [calls_receiveMessageFromTunnel e hdata m, List.cons_inj_right, List.cons_inj_right] at hcalls
  rw [after_queued, Memory.load_eq_some_iff]
  exact queued_head_iff e (heads_queued m msg) hcalls

/-- A request to the API servers of the clusters `c1` and `child`. -/
def controlRequest : ClusterMessage := ⟨⟨"m1", .controlReq, "c1,child", "", "root"⟩, [1]⟩

/-- The edge handler of `child`, whose API server answers every task. -/
def localEdge : EdgeHandler where
  clusterName := "child"
  regexp := .anchored
  unmarshal _ := .ok controlRequest
  controllerTask _ := some ⟨"api", "GET", "/version", []⟩
  controlMultiTask _ := none
  marshal resp := resp.body.toUTF8.toList
  now := 0
  handlers := GoMap.ofList [("api", .k8s fun _ => (200, "ok"))]

/-- The message that is in the channel when the request has been carried out is a response. -/
theorem forwarded_request_is_response :
    ((Proc.run serve (receiveMessageFromTunnel localEdge []) ⟨[], [], []⟩).2.edgeToClusterChan = [⟨0, [1]⟩]) ∧
      (Proc.run serve (receiveMessageFromTunnel localEdge []) ⟨[], [], []⟩).2.load ⟨0, [1]⟩ =
        some ⟨⟨"m1", .controlResp, "c1,child", "child", "root"⟩, [1]⟩ := by
  decide

/-- Before the request is carried out it is what the parent sent. -/
theorem forwarded_head_early :
    (Memory.after ⟨[], [], []⟩ [.newHead controlRequest.head, .forward ⟨0, [1]⟩]).load ⟨0, [1]⟩ =
      some controlRequest := by
  have hcalls : Proc.calls serve (receiveMessageFromTunnel localEdge []) ⟨[], [], []⟩ =
      .newHead controlRequest.head :: .forward ⟨0, [1]⟩ :: ([] ++
        Proc.calls serve (handleSelected localEdge ⟨0, [1]⟩)
          (Memory.after ⟨[], [], []⟩ [.newHead controlRequest.head, .forward ⟨0, [1]⟩])) := rfl
  exact (forwarded_head_iff localEdge rfl ⟨[], [], []⟩ hcalls).mpr (Or.inr (by decide))

end EdgeHandler

end OteStack
