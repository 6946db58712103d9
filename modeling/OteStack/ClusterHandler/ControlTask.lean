/-
# OteStack.ClusterHandler.ControlTask — a ClusterController on its way through the tree.

A root that starts lists the ClusterController through its informer and, if the copy it has got is younger than
an hour and has no result, sends it down as a control request (`addClusterController`); every cluster that the
request picks carries it out and answers its parent; the clusters above pass the answer on
(`transmitToParent`), and the root merges it into the status (`mergeToApiserver`).  A root with a shim of its
own gives the request to that shim instead, and to no child.

Messages may be lost at every hop, a merge into the status may fail, and messages are handled in any order.  A
cluster with a local shim answers with the head of the request, so its own cluster handler, if it comes late,
passes the answer down instead of the request (`OteStack.EdgeHandler.ControlRequest`).  All of that is up to
the schedule, as are restarts of the root and the passing of time.

In every run (`fits_of_run`) the request is carried out only by clusters that it is meant for, and what comes
back to the root under the name of a cluster is what the shim of that cluster replied.
-/
import OteStack.ClusterHandler.Broadcast
import OteStack.ClusterHandler.ResponseMerge

namespace OteStack

open OteStack.Lib (GoMap MapOrder Worklist runSteps runSteps_invariant)
open OteStack.Lib.KubeApi (ObjectKey)
open OteStack.K8sClient (clusterNamespace)

/-! ## The task and its request -/

/-- `otev1.ClusterControllerSpec`, without the name of the parent, which the root fills in. -/
structure ClusterControllerSpec where
  clusterSelector : String
  destination : String
  method : String
  url : String
  body : String
  deriving DecidableEq, Repr

/-- The tree, the root's handler and stores, whether the root has a shim of its own, protobuf, and the task: its
name, when it was created and what it says.  It is in the store of the root, without a result. -/
structure ControlNet where
  re : Regexp
  root : Cluster
  handler : RootHandler
  rootClusterEnable : Bool
  stores : RootStores
  marshalTask : ControllerTask → List UInt8
  marshal : ControllerTaskResponse → List UInt8
  unmarshal_marshal : ∀ resp, handler.controllerTaskResponse (marshal resp) = .ok resp
  bytes : String → List UInt8
  name : String
  creationTimestamp : Int
  spec : ClusterControllerSpec
  stored : stores.clusterControllers.get ⟨clusterNamespace, name⟩ = some ⟨name, clusterNamespace, none⟩

/-- Go's `hasToProcessClusterController`, with times in seconds. -/
def hasToProcessClusterController (now creationTimestamp : Int)
    (status : Option (GoMap String ClusterControllerStatus)) : Bool :=
  decide (now < creationTimestamp + 3600) && decide ((status.getD ∅).keys = ∅)

/-- Go's `clusterControllerCRDToSerializedControllerTask`. -/
def ControlNet.clusterControllerCRDToSerializedControllerTask (N : ControlNet) : List UInt8 :=
  N.marshalTask ⟨N.spec.destination, N.spec.method, N.spec.url, N.bytes N.spec.body⟩

/-- Go's `clusterControllerCRDToClusterMessage` for a control request, with the root as the parent. -/
def ControlNet.clusterControllerCRDToClusterMessage (N : ControlNet) : ClusterMessage where
  head := {
    messageID := N.name
    command := .controlReq
    clusterSelector := N.spec.clusterSelector
    clusterName := ""
    parentClusterName := N.handler.clusterName }
  body := N.clusterControllerCRDToSerializedControllerTask

/-- The request that the root publishes. -/
abbrev ControlNet.request (N : ControlNet) : ClusterMessage := N.clusterControllerCRDToClusterMessage

/-! ## The way down and up -/

/-- How the cluster handler finds the head of a request that its own edge handler answers: as it came, with the
command of the answer, or with its command and name. -/
inductive Taken where
  | asRequest
  | asAnswer
  | asNamedAnswer
  deriving DecidableEq, Repr

/-- The open choices of one handling.  An answer that reaches the root and cannot be merged into the status is
lost as well. -/
structure ControlChoice where
  it : MapOrder String
  lost : Bool
  taken : Taken
  reply : Option ControllerTaskResponse

/-- A message on its way: to the shim of the root, to the edge tunnel of a cluster, in the channel to its
cluster handler, or an answer to the first of the clusters `up`, which are those above the cluster that gave
it. -/
inductive Leg where
  | shim (msg : ClusterMessage)
  | tunnel (c : Cluster) (up : List String) (msg : ClusterMessage)
  | dispatch (c : Cluster) (up : List String) (msg : ClusterMessage)
  | answer (up : List String) (msg : ClusterMessage)

/-- What is observed: a cluster carries the request out, with what its shim replies if it does, and an answer
arrives at the root. -/
inductive ControlEvent where
  | performed (cluster : String) (reply : Option ControllerTaskResponse)
  | arrived (msg : ClusterMessage)
  deriving DecidableEq

/-- The head of an answer: that of the request, as `handleMessage` changes it. -/
def answerHead (cluster : String) (head : MessageHead) : MessageHead :=
  { head with command := .controlResp, clusterName := cluster }

/-- The request as the cluster handler finds it. -/
def Taken.message (cluster : String) (msg : ClusterMessage) : Taken → ClusterMessage
  | .asRequest => msg
  | .asAnswer => { msg with head := { msg.head with command := .controlResp } }
  | .asNamedAnswer => { msg with head := answerHead cluster msg.head }

/-- A message whose head names no parent gets the name of the receiver. -/
def ClusterMessage.withParent (receiver : String) (msg : ClusterMessage) : ClusterMessage :=
  if msg.head.parentClusterName = "" then
    { msg with head := { msg.head with parentClusterName := receiver } }
  else msg

theorem Taken.picks_message {re : Regexp} {cluster y : String} {msg : ClusterMessage} (t : Taken) :
    (t.message cluster msg).Picks re y ↔ msg.Picks re y := by
  cases t with
  | asRequest => exact Iff.rfl
  | asAnswer => exact Iff.rfl
  | asNamedAnswer => exact Iff.rfl

theorem Taken.messageID_message {cluster : String} {msg : ClusterMessage} (t : Taken) :
    (t.message cluster msg).head.messageID = msg.head.messageID := by
  cases t with
  | asRequest => rfl
  | asAnswer => rfl
  | asNamedAnswer => rfl

/-- What is passed on differs from the message in its selector only. -/
theorem eq_withSelector_of_mem {re : Regexp} {it : MapOrder String} {c : Cluster} {msg : ClusterMessage}
    {hop : Hop} (h : hop ∈ handleMessageFromParent re it c msg) :
    ∃ d sel, hop = .tunnel d (msg.withSelector sel) := by
  obtain ⟨_, d, -, -, rfl⟩ := exists_port_of_mem h
  exact ⟨d, _, rfl⟩

namespace ControlNet

variable (N : ControlNet)

/-- The cluster carries out the message that it has received. -/
def Performs (c : Cluster) (msg : ClusterMessage) : Prop :=
  msg.Picks N.re c.name ∧ msg.head.command = .controlReq

instance (c : Cluster) (msg : ClusterMessage) : Decidable (N.Performs c msg) :=
  inferInstanceAs (Decidable (_ ∧ _))

/-- The answer of a cluster, if its shim gives one. -/
def answerOf (cluster : String) (up : List String) (msg : ClusterMessage) :
    Option ControllerTaskResponse → List Leg
  | none => []
  | some resp => [.answer up ⟨answerHead cluster msg.head, N.marshal resp⟩]

variable {N} in
theorem mem_answerOf {cluster : String} {up : List String} {msg : ClusterMessage}
    {reply : Option ControllerTaskResponse} {leg : Leg} :
    leg ∈ N.answerOf cluster up msg reply ↔
      ∃ resp, reply = some resp ∧ leg = .answer up ⟨answerHead cluster msg.head, N.marshal resp⟩ := by
  cases reply with
  | none => simp [answerOf]
  | some resp => simp [answerOf]

/-- A message handed on by `handleMessageFromParent`, one level further down. -/
def legOfHop (up : List String) : Hop → Leg
  | .tunnel c msg => .tunnel c up msg
  | .dispatch c msg => .dispatch c up msg

/-- The handling of a message that is not lost.  The edge handler of the root does not look at the selector, and
the answer of its shim goes to its own cluster handler. -/
def forward (ch : ControlChoice) : Leg → List Leg
  | .shim msg => N.answerOf N.handler.clusterName [N.handler.clusterName] msg ch.reply
  | .tunnel c up msg =>
      if N.Performs c msg then
        .dispatch c up (ch.taken.message c.name msg) :: N.answerOf c.name up msg ch.reply
      else [.dispatch c up msg]
  | .dispatch c up msg => (handleMessageFromParent N.re ch.it c msg).map (legOfHop (c.name :: up))
  | .answer (p :: q :: up) msg => [.answer (q :: up) (msg.withParent p)]
  | .answer _ _ => []

/-- What is observed of it. -/
def observe (ch : ControlChoice) : Leg → List ControlEvent
  | .shim _ => [.performed N.handler.clusterName ch.reply]
  | .tunnel c _ msg => if N.Performs c msg then [.performed c.name ch.reply] else []
  | .dispatch _ _ _ => []
  | .answer [p] msg => [.arrived (msg.withParent p)]
  | .answer _ _ => []

/-- The messages of the task.  What is in the channel to a cluster handler is not lost. -/
def work : Worklist ControlChoice Leg ControlEvent where
  spawn ch leg := match leg with
    | .dispatch c up msg => N.forward ch (.dispatch c up msg)
    | leg => if ch.lost then [] else N.forward ch leg
  emit ch leg := if ch.lost then [] else N.observe ch leg

/-! ## The runs of a task -/

/-- The answers that have arrived, as the root handles them. -/
def arrivals (log : List ControlEvent) : List WireMessage :=
  log.filterMap fun
    | .arrived msg => some ⟨some msg.head, msg.body⟩
    | .performed _ _ => none

/-- The status of the task after the answers that have arrived. -/
def recorded (log : List ControlEvent) : Option (GoMap String ClusterControllerStatus) :=
  match (N.handler.mergeAll (arrivals log)).run N.stores with
  | .ok (_, s) => (s.clusterControllers.get ⟨clusterNamespace, N.name⟩).bind ClusterController.status
  | .error _ => none

/-- The messages in flight and what was observed, the time, how often the request was published, and the copy
of the status that the informer of the running root has listed and not yet handed over. -/
structure Run where
  pool : Worklist.Pool Leg ControlEvent
  now : Int
  published : ℕ
  listed : Option (Option (GoMap String ClusterControllerStatus))

/-- What may happen: time passes, a root starts and its informer lists the task, the informer hands its copy
over, or a message is handled. -/
inductive Action where
  | tick (seconds : ℕ)
  | start
  | addFunc
  | handle (ch : ControlChoice) (i : ℕ)

/-- Where the root sends the request: to its own shim if it has one, else to the selected children. -/
def firstLeg : Leg := if N.rootClusterEnable then .shim N.request else .dispatch N.root [] N.request

/-- Go's `addClusterController`, for a copy of the task with the given status. -/
def addClusterController (status : Option (GoMap String ClusterControllerStatus)) (s : Run) : Run :=
  if hasToProcessClusterController s.now N.creationTimestamp status then
    { s with
      pool := { s.pool with tasks := s.pool.tasks ++ [N.firstLeg] }
      published := s.published + 1 }
  else s

/-- One step. -/
def step (s : Run) : Action → Option Run
  | .tick seconds => some { s with now := s.now + seconds }
  | .start => some { s with listed := some (N.recorded s.pool.log) }
  | .addFunc => s.listed.map fun status => N.addClusterController status { s with listed := none }
  | .handle ch i => (N.work.step s.pool (ch, i)).map fun pool => { s with pool := pool }

/-- Before the first start. -/
def init : Run := ⟨⟨[], []⟩, N.creationTimestamp, 0, none⟩

/-- Everything that a step can do. -/
inductive Transition (s : Run) : Action → Run → Prop
  | tick (seconds : ℕ) : Transition s (.tick seconds) { s with now := s.now + seconds }
  | start : Transition s .start { s with listed := some (N.recorded s.pool.log) }
  | refused {status : Option (GoMap String ClusterControllerStatus)} (hlisted : s.listed = some status) :
      Transition s .addFunc { s with listed := none }
  | published {status : Option (GoMap String ClusterControllerStatus)} (hlisted : s.listed = some status)
      (h : hasToProcessClusterController s.now N.creationTimestamp status = true) :
      Transition s .addFunc ⟨⟨s.pool.tasks ++ [N.firstLeg], s.pool.log⟩, s.now, s.published + 1, none⟩
  | handled {ch : ControlChoice} {i : ℕ} {pool : Worklist.Pool Leg ControlEvent}
      (h : N.work.step s.pool (ch, i) = some pool) : Transition s (.handle ch i) { s with pool := pool }

variable {N} {s s' : Run} {a : Action}

theorem transition_of_step (h : N.step s a = some s') : N.Transition s a s' := by
  cases a with
  | tick seconds =>
      obtain rfl := Option.some.inj h
      exact .tick seconds
  | start =>
      obtain rfl := Option.some.inj h
      exact .start
  | addFunc =>
      obtain ⟨status, hlisted, rfl⟩ := Option.map_eq_some_iff.mp h
      unfold addClusterController
      split
      · exact .published hlisted ‹_›
      · exact .refused hlisted
  | handle ch i =>
      obtain ⟨pool, hpool, rfl⟩ := Option.map_eq_some_iff.mp h
      exact .handled hpool

/-! ## What is on its way -/

/-- A cluster that the request is meant for.  It is below the root, and a name selected at the root matches it,
in its branch; or it is the root itself, if that has a shim of its own. -/
def Addressed (N : ControlNet) (y : String) : Prop :=
  if N.rootClusterEnable then y = N.handler.clusterName
  else ∃ d ∈ N.root.clients, y ∈ d.names ∧
    ∃ x, SelectedThrough N.re N.root N.request d x ∧ N.re.matchString x y = true

/-- The message is the answer that its cluster gave to the request. -/
def IsAnswer (N : ControlNet) (log : List ControlEvent) (m : ClusterMessage) : Prop :=
  m.head.command = .controlResp ∧ m.head.messageID = N.name ∧
    ∃ resp, .performed m.head.clusterName (some resp) ∈ log ∧ m.body = N.marshal resp

/-- What holds of a message in flight, given what was observed. -/
def LegFits (N : ControlNet) (log : List ControlEvent) : Leg → Prop
  | .shim m => N.rootClusterEnable = true ∧ m.head.messageID = N.name
  | .tunnel c up m => N.rootClusterEnable = false ∧ up ≠ [] ∧ m.head.messageID = N.name ∧
      ∃ d ∈ N.root.clients, InBranch N.re N.root N.request d (.tunnel c m)
  | .dispatch c _ m => N.rootClusterEnable = false ∧ m.head.messageID = N.name ∧
      (c = N.root ∧ m = N.request ∨
        ∃ d ∈ N.root.clients, InBranch N.re N.root N.request d (.dispatch c m))
  | .answer up m => up ≠ [] ∧ N.IsAnswer log m

/-- What holds of an event. -/
def EventFits (N : ControlNet) (log : List ControlEvent) : ControlEvent → Prop
  | .performed y _ => N.Addressed y
  | .arrived m => N.IsAnswer log m

/-- All that is in flight and all that was observed fits. -/
def Fits (N : ControlNet) (pool : Worklist.Pool Leg ControlEvent) : Prop :=
  (∀ o ∈ pool.log, N.EventFits pool.log o) ∧ ∀ leg ∈ pool.tasks, N.LegFits pool.log leg

theorem IsAnswer.append {l l' : List ControlEvent} {m : ClusterMessage} (h : N.IsAnswer l m) :
    N.IsAnswer (l ++ l') m := by
  obtain ⟨hcmd, hid, resp, hresp, hbody⟩ := h
  exact ⟨hcmd, hid, resp, List.mem_append_left l' hresp, hbody⟩

theorem IsAnswer.withParent {l : List ControlEvent} {m : ClusterMessage} (h : N.IsAnswer l m) (p : String) :
    N.IsAnswer l (m.withParent p) := by
  unfold ClusterMessage.withParent
  split
  · exact h
  · exact h

theorem LegFits.append (l l' : List ControlEvent) (leg : Leg) (h : N.LegFits l leg) :
    N.LegFits (l ++ l') leg := by
  cases leg with
  | shim m => exact h
  | tunnel c up m => exact h
  | dispatch c up m => exact h
  | answer up m => exact ⟨h.1, h.2.append⟩

theorem EventFits.append (l l' : List ControlEvent) (o : ControlEvent) (h : N.EventFits l o) :
    N.EventFits (l ++ l') o := by
  cases o with
  | performed y reply => exact h
  | arrived m => exact IsAnswer.append h

/-- The first hop enters a branch of the root. -/
theorem inBranch_request (hroot : N.root.Wired) {it : MapOrder String} {hop : Hop}
    (h : hop ∈ handleMessageFromParent N.re it N.root N.request) :
    ∃ d ∈ N.root.clients, InBranch N.re N.root N.request d hop := by
  obtain ⟨d, hd, m, rfl, -, hpicks⟩ := of_mem_handleMessageFromParent hroot h
  refine ⟨d, hd, hroot.clients d hd, fun y hy => ⟨hy, ?_⟩, ?_⟩
  · exact hroot.keys y d.name (hroot.routed d hd y hy)
  · intro y _ hpick
    obtain ⟨x, hx, hxpick, hxy⟩ := (hpicks y).mp hpick
    exact ⟨x, ⟨hx, hxpick⟩, hxy⟩

/-- A cluster that carries the request out is one it is meant for. -/
theorem addressed_of_performs {c d : Cluster} {m : ClusterMessage} (hshim : N.rootClusterEnable = false)
    (hd : d ∈ N.root.clients) (h : InBranch N.re N.root N.request d (.tunnel c m)) (hperf : N.Performs c m) :
    N.Addressed c.name := by
  obtain ⟨-, hnames, hsel⟩ := h
  have hown : c.name ∈ c.names := by simp [Cluster.names_eq]
  rw [Addressed, hshim]
  exact ⟨d, hd, (hnames _ hown).1, hsel _ (hnames _ hown).2 hperf.1⟩

/-- A message stays in its branch on the way from the tunnel to the cluster handler. -/
theorem inBranch_dispatch {c d : Cluster} {m m' : ClusterMessage}
    (hpicks : ∀ y, m'.Picks N.re y ↔ m.Picks N.re y)
    (h : InBranch N.re N.root N.request d (.tunnel c m)) :
    InBranch N.re N.root N.request d (.dispatch c m') := by
  obtain ⟨hc, hnames, hsel⟩ := h
  refine ⟨hc, fun y hy => hnames y ?_, fun y hy hpick => hsel y hy ((hpicks y).mp hpick)⟩
  rw [Cluster.names_eq]
  exact List.mem_cons_of_mem _ hy

/-- What a cluster handler passes on fits. -/
theorem legFits_dispatch (hroot : N.root.Wired) {ch : ControlChoice} {l : List ControlEvent} {c : Cluster}
    {up : List String} {m : ClusterMessage} (h : N.LegFits l (.dispatch c up m)) :
    ∀ leg ∈ N.forward ch (.dispatch c up m), N.LegFits l leg := by
  intro leg hleg
  obtain ⟨hop, hhop, rfl⟩ := List.mem_map.mp hleg
  obtain ⟨hshim, hid, hplace⟩ := h
  obtain ⟨d, sel, rfl⟩ := eq_withSelector_of_mem hhop
  refine ⟨hshim, List.cons_ne_nil _ _, hid, ?_⟩
  rcases hplace with ⟨rfl, rfl⟩ | ⟨e, he, hin⟩
  · exact inBranch_request hroot hhop
  · exact ⟨e, he, inBranch_forward N.re hroot hin _ hhop⟩

/-- What a message that arrives in a tunnel leads to fits, and so does what is observed there. -/
theorem fits_tunnel {ch : ControlChoice} {l : List ControlEvent} {c : Cluster} {up : List String}
    {m : ClusterMessage} (h : N.LegFits l (.tunnel c up m)) :
    (∀ o ∈ N.observe ch (.tunnel c up m), N.EventFits (l ++ N.observe ch (.tunnel c up m)) o) ∧
      ∀ leg ∈ N.forward ch (.tunnel c up m), N.LegFits (l ++ N.observe ch (.tunnel c up m)) leg := by
  obtain ⟨hshim, hup, hid, d, hd, hin⟩ := h
  by_cases hperf : N.Performs c m
  · simp only [observe, forward, if_pos hperf]
    refine ⟨?_, ?_⟩
    · intro o ho
      obtain rfl := List.mem_singleton.mp ho
      exact addressed_of_performs hshim hd hin hperf
    · intro leg hleg
      rcases List.mem_cons.mp hleg with rfl | hleg
      · exact ⟨hshim, (ch.taken.messageID_message).trans hid,
          Or.inr ⟨d, hd, inBranch_dispatch (fun y => ch.taken.picks_message) hin⟩⟩
      · obtain ⟨resp, hreply, rfl⟩ := mem_answerOf.mp hleg
        exact ⟨hup, rfl, hid, resp, by simp [hreply, answerHead], rfl⟩
  · simp only [observe, forward, if_neg hperf]
    refine ⟨by simp, ?_⟩
    intro leg hleg
    obtain rfl := List.mem_singleton.mp hleg
    exact ⟨hshim, hid, Or.inr ⟨d, hd, inBranch_dispatch (fun y => Iff.rfl) hin⟩⟩

/-- So does what the shim of the root answers. -/
theorem fits_shim {ch : ControlChoice} {l : List ControlEvent} {m : ClusterMessage}
    (h : N.LegFits l (.shim m)) :
    (∀ o ∈ N.observe ch (.shim m), N.EventFits (l ++ N.observe ch (.shim m)) o) ∧
      ∀ leg ∈ N.forward ch (.shim m), N.LegFits (l ++ N.observe ch (.shim m)) leg := by
  obtain ⟨hshim, hid⟩ := h
  refine ⟨?_, ?_⟩
  · intro o ho
    obtain rfl := List.mem_singleton.mp ho
    simp [EventFits, Addressed, hshim]
  · intro leg hleg
    obtain ⟨resp, hreply, rfl⟩ := mem_answerOf.mp hleg
    exact ⟨List.cons_ne_nil _ _, rfl, hid, resp, by simp [observe, hreply, answerHead], rfl⟩

/-- An answer that is passed on or arrives is the same answer. -/
theorem fits_answer {ch : ControlChoice} {l : List ControlEvent} {up : List String} {m : ClusterMessage}
    (h : N.LegFits l (.answer up m)) :
    (∀ o ∈ N.observe ch (.answer up m), N.EventFits (l ++ N.observe ch (.answer up m)) o) ∧
      ∀ leg ∈ N.forward ch (.answer up m), N.LegFits (l ++ N.observe ch (.answer up m)) leg := by
  obtain ⟨-, hanswer⟩ := h
  match up with
  | [] => simp [observe, forward]
  | [p] =>
      refine ⟨?_, by simp [forward]⟩
      intro o ho
      obtain rfl := List.mem_singleton.mp ho
      exact (hanswer.withParent p).append
  | p :: q :: up =>
      refine ⟨by simp [observe], ?_⟩
      intro leg hleg
      obtain rfl := List.mem_singleton.mp hleg
      exact ⟨List.cons_ne_nil q up, (hanswer.withParent p).append⟩

/-- One handling. -/
theorem fits_handle (hroot : N.root.Wired) (ch : ControlChoice) (l : List ControlEvent) (leg : Leg)
    (h : N.LegFits l leg) :
    (∀ o ∈ N.work.emit ch leg, N.EventFits (l ++ N.work.emit ch leg) o) ∧
      ∀ leg' ∈ N.work.spawn ch leg, N.LegFits (l ++ N.work.emit ch leg) leg' := by
  cases leg with
  | dispatch c up m =>
      refine ⟨by simp [work, observe], ?_⟩
      intro leg' hleg'
      exact LegFits.append l _ leg' (legFits_dispatch hroot h leg' hleg')
  | shim m =>
      cases hlost : ch.lost with
      | true => simp [work, hlost]
      | false => simpa [work, hlost] using fits_shim h
  | tunnel c up m =>
      cases hlost : ch.lost with
      | true => simp [work, hlost]
      | false => simpa [work, hlost] using fits_tunnel h
  | answer up m =>
      cases hlost : ch.lost with
      | true => simp [work, hlost]
      | false => simpa [work, hlost] using fits_answer h

/-- What the root publishes fits. -/
theorem legFits_firstLeg (l : List ControlEvent) : N.LegFits l N.firstLeg := by
  unfold firstLeg
  split
  · exact ⟨‹_›, rfl⟩
  · rename_i hshim
    exact ⟨Bool.eq_false_iff.mpr hshim, rfl, Or.inl ⟨rfl, rfl⟩⟩

theorem Fits.step (hroot : N.root.Wired) (hs : N.Fits s.pool) (h : N.step s a = some s') :
    N.Fits s'.pool := by
  cases transition_of_step h with
  | tick seconds => exact hs
  | start => exact hs
  | refused _ => exact hs
  | published _ _ =>
      refine ⟨hs.1, ?_⟩
      intro leg hleg
      rcases List.mem_append.mp hleg with hleg | hleg
      · exact hs.2 leg hleg
      · obtain rfl := List.mem_singleton.mp hleg
        exact legFits_firstLeg _
  | handled hpool =>
      exact N.work.all_of_step LegFits.append EventFits.append (fits_handle hroot _) hpool hs

theorem fits_of_run (hroot : N.root.Wired) {as : List Action} (hrun : runSteps N.step N.init as = some s) :
    N.Fits s.pool :=
  runSteps_invariant (I := fun s => N.Fits s.pool) (fun hs h => hs.step hroot h)
    ⟨by simp [init], by simp [init]⟩ hrun

end ControlNet

end OteStack
