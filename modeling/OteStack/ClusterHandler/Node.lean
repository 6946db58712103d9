/-
# OteStack.ClusterHandler.Node — one cluster controller with its children's connections.

`pkg/clusterhandler/clusterhandler.go` and `pkg/tunnel/cloudtunnel.go`, seen from the tables.  A child
that connects is taken through a chain of goroutines: `accessHandler` checks its name and starts the
handling of its registration, `connect` stores the client, calls `AddChild` and reads messages until
the connection breaks; then `closeChild` is started, which calls `DelChild` and starts the handling of
the unregistration, while `connect` deletes the client.  Messages of children are queued and handled by
ten workers.

A goroutine is a `Task` that says what it does next, and `Node.step` lets any one of them move: between
two steps anything else may happen.  A critical section of the router is one step, so a subtree report
takes as many steps as it adds and deletes routes; handled alone it is `updateRouteToSubtree`
(`handling_subTreeRoute_alone`).
-/
import OteStack.Lib.StepSystem
import OteStack.Lib.TaskPool
import OteStack.ClusterRouter.Router

namespace OteStack

open OteStack.Lib (GoMap MapOrder runSteps runSteps_append)
open OteStack.Lib.TaskPool (swap)

/-! ## Messages of children -/

/-- The registration data of a cluster. -/
structure ClusterRegistry where
  name : String
  userDefineName : String
  listen : String
  time : Int
  parentName : String
  deriving DecidableEq, Repr

/-- A message of a child, as `handleMessageFromChild` takes it apart.  `none` is a body that does not
decode. -/
inductive ChildMessage where
  | undecodable
  | regist (cr : Option ClusterRegistry)
  | unregist (cr : Option ClusterRegistry)
  | subTreeRoute (clusterName : String) (subtrees : Option SubTreeRouter)
  | other
  deriving DecidableEq

/-- How far a goroutine has come with `handleMessageFromChild`. -/
inductive Handling where
  | start (client : String) (msg : ChildMessage)
  /-- in the first loop of `updateRouteToSubtree`, with the names still to add -/
  | adding (port : String) (dests : List String) (subtrees : SubTreeRouter)
  /-- before the call of `SubTreeOfPort` -/
  | listing (port : String) (subtrees : SubTreeRouter)
  /-- in the second loop, with the names still to look at -/
  | deleting (port : String) (childsOfChild : List String) (subtrees : SubTreeRouter)
  deriving DecidableEq

namespace Handling

open SubTreeRouter

/-- The next critical section of `handleMessageFromChild`: the table after it and what is left to do.
What is sent on to the parent or the controller manager does not concern the table. -/
def step (it : MapOrder String) (r : SubTreeRouter) : Handling → SubTreeRouter × Option Handling
  | .start client (.regist (some cr)) => (afterAddRoute r cr.name client, none)
  | .start client (.unregist (some cr)) => (delRoute it r cr.name client, none)
  | .start _ (.subTreeRoute port (some subtrees)) =>
      (r, some (.adding port (it.order subtrees) subtrees))
  | .start _ _ => (r, none)
  | .adding port (dest :: dests) subtrees =>
      (afterAddRoute r dest port, some (.adding port dests subtrees))
  | .adding port [] subtrees => (r, some (.listing port subtrees))
  | .listing port subtrees => (r, some (.deleting port (subTreeOfPort it r port) subtrees))
  | .deleting port (c :: cs) subtrees =>
      (if subtrees.get c = none then delRoute it r c port else r, some (.deleting port cs subtrees))
  | .deleting _ [] _ => (r, none)

/-- The handling of one message as a system of its own. -/
def alone (s : SubTreeRouter × Option Handling) (it : MapOrder String) :
    Option (SubTreeRouter × Option Handling) := s.2.map (step it s.1)

theorem adding_alone (it : MapOrder String) (port : String) (subtrees : SubTreeRouter) :
    ∀ (dests : List String) (r : SubTreeRouter),
      runSteps alone (r, some (.adding port dests subtrees)) (List.replicate (dests.length + 1) it) =
        some (dests.foldl (fun r dest => afterAddRoute r dest port) r, some (.listing port subtrees))
  | [], _ => rfl
  | dest :: dests, r => adding_alone it port subtrees dests (afterAddRoute r dest port)

theorem deleting_alone (it : MapOrder String) (port : String) (subtrees : SubTreeRouter) :
    ∀ (cs : List String) (r : SubTreeRouter),
      runSteps alone (r, some (.deleting port cs subtrees)) (List.replicate (cs.length + 1) it) =
        some (cs.foldl (fun r c => if subtrees.get c = none then delRoute it r c port else r) r, none)
  | [], _ => rfl
  | _ :: cs, _ => deleting_alone it port subtrees cs _

/-- A subtree report that nothing interrupts is `updateRouteToSubtree`. -/
theorem handling_subTreeRoute_alone (it : MapOrder String) (r : SubTreeRouter)
    (client port : String) (subtrees : Option SubTreeRouter) :
    ∃ n, runSteps alone (r, some (.start client (.subTreeRoute port subtrees)))
      (List.replicate n it) = some (updateRouteToSubtree it r port subtrees, none) := by
  cases subtrees with
  | none => exact ⟨1, rfl⟩
  | some subtrees =>
      set r₁ := (it.order subtrees).foldl (fun r dest => afterAddRoute r dest port) r with hr₁
      have hstart : runSteps alone (r, some (.start client (.subTreeRoute port (some subtrees))))
          (List.replicate 1 it) = some (r, some (.adding port (it.order subtrees) subtrees)) := rfl
      have hadd := adding_alone it port subtrees (it.order subtrees) r
      have hlist : runSteps alone (r₁, some (.listing port subtrees)) (List.replicate 1 it) =
          some (r₁, some (.deleting port (subTreeOfPort it r₁ port) subtrees)) := rfl
      have hdel := deleting_alone it port subtrees (subTreeOfPort it r₁ port) r₁
      have hrun := runSteps_append hstart (runSteps_append hadd (runSteps_append hlist hdel))
      simp only [List.replicate_append_replicate] at hrun
      exact ⟨_, hrun⟩

end Handling

/-! ## Goroutines -/

/-- A goroutine of the controller, by what it does next.  `conn` is the connection to the child. -/
inductive Task (γ : Type) where
  /-- `accessHandler`, before `clusterNameCheck` -/
  | checking (cr : ClusterRegistry) (conn : γ)
  /-- `accessHandler`, before `Upgrade` -/
  | upgrading (cr : ClusterRegistry) (conn : γ)
  /-- `connect`, before `LoadOrStore` -/
  | connecting (cr : ClusterRegistry) (conn : γ)
  /-- `connect`, before the critical section of `AddChild` -/
  | connected (cr : ClusterRegistry) (conn : γ)
  /-- `connect`, before `AddChild` notifies the children -/
  | announcing (cr : ClusterRegistry) (conn : γ)
  /-- `connect`, in `handleReceiveMessage` -/
  | reading (cr : ClusterRegistry) (conn : γ)
  /-- `connect`, before the client is deleted -/
  | closing (cr : ClusterRegistry) (conn : γ)
  /-- `closeChild`, before the critical section of `DelChild` -/
  | closeChild (cr : ClusterRegistry)
  /-- `closeChild`, before `DelChild` notifies the children -/
  | closed (cr : ClusterRegistry)
  /-- `go c.handleMessageFromChild` -/
  | handler (h : Handling)
  /-- one of the ten workers of `handleChildMessage`, with a message -/
  | worker (h : Handling)
  /-- `go c.tunn.Broadcast` -/
  | broadcast (msg : RouterMessage)
  /-- `go client.WriteMessage` -/
  | write (conn : γ) (msg : RouterMessage)
  deriving DecidableEq

/-- A goroutine that has a message of the queue in hand. -/
def Task.isWorker {γ : Type} : Task γ → Bool
  | .worker _ => true
  | _ => false

/-- The configuration the tunnel and the handler read. -/
structure HandlerConf where
  clusterName : String
  leaderListenAddr : String

/-- The controller: the clients of its cloud tunnel, its routing tables, the queue of its children's
messages and its goroutines. -/
structure Node (γ : Type) where
  clients : GoMap String γ
  router : ClusterRouter
  childMessageChan : List (String × ChildMessage)
  tasks : List (Task γ)

/-- A controller that has just started. -/
def Node.init (γ : Type) : Node γ := ⟨∅, defaultClusterRouter, [], []⟩

/-- The capacity of `ChildMessageChan`. -/
def childMessageChanSize : ℕ := 10000

/-- The number of goroutines `handleChildMessage` starts. -/
def childMessageWorkers : ℕ := 10

/-- Go's `isInParentPool`. -/
def isInParentPool (r : ClusterRouter) (clientName : String) : Bool :=
  match r.parentNeighbor with
  | some parentNeighbors => (parentNeighbors.get clientName).isSome
  | none => false

/-- How the open choices of a step are resolved: the order of a range over a map, whether `Upgrade`
succeeds, and the time. -/
structure Choice where
  order : MapOrder String
  upgraded : Bool
  now : Int

/-- Ranges go up, connections are upgraded, and no time passes. -/
def plainChoice : Choice := ⟨MapOrder.sorted, true, 0⟩

/-- What may happen next. -/
inductive NodeAction (γ : Type) where
  /-- a request of a child reaches `accessHandler` -/
  | request (cluster name listenAddr : String) (now : Int) (conn : γ)
  /-- a message of a connected child is read -/
  | receive (cr : ClusterRegistry) (conn : γ) (msg : ChildMessage)
  /-- an idle worker takes a message from the queue -/
  | take
  /-- a `NeighborRoute` message of the parent is handled -/
  | parentMessage (msg : Option RouterMessage)
  /-- a goroutine takes its next step; for a reading one this is the read error that ends it -/
  | run (c : Choice) (t : Task γ)

namespace Node

variable {γ : Type} [DecidableEq γ]

/-- A goroutine is replaced by what it becomes and what it starts. -/
def replace (s : Node γ) (t : Task γ) (new : List (Task γ)) : Node γ :=
  { s with tasks := swap s.tasks t new }

/-- The start of Go's `accessHandler`: a request is redirected, refused, or goes on to the check of
its name. -/
def accessHandler (conf : HandlerConf) (s : Node γ) (cluster name listenAddr : String) (now : Int)
    (conn : γ) : Node γ :=
  if conf.leaderListenAddr ≠ "" then s
  else if listenAddr = "" then s
  else if name = "" then s
  else match s.clients.get cluster with
    | some _ => s
    | none => { s with tasks := .checking ⟨cluster, name, listenAddr, now, ""⟩ conn :: s.tasks }

/-- Go's `handleMessageFromCloudTunnel`: a message that finds the queue full is dropped. -/
def handleMessageFromCloudTunnel (s : Node γ) (client : String) (msg : ChildMessage) : Node γ :=
  if s.childMessageChan.length < childMessageChanSize then
    { s with childMessageChan := s.childMessageChan ++ [(client, msg)] }
  else s

/-- The handling of a `NeighborRoute` message in Go's `handleMessageFromParent`. -/
def handleNeighborRoute (s : Node γ) (msg : Option RouterMessage) : Node γ :=
  let (router, notice) := s.router.updateRouter msg
  { s with router := router, tasks := (notice.map .broadcast).toList ++ s.tasks }

/-- The next critical section of the handling of a child's message. -/
def handle (c : Choice) (s : Node γ) (t : Task γ) (h : Handling) (goOn : Handling → Task γ) :
    Node γ :=
  let (subtreeRouter, rest) := h.step c.order s.router.subtreeRouter
  { s with router := { s.router with subtreeRouter := subtreeRouter } }.replace t
    (rest.map goOn).toList

/-- The next step of a goroutine. -/
def runTask (conf : HandlerConf) (c : Choice) (s : Node γ) : Task γ → Node γ
  | t@(.checking cr conn) =>
      -- `checkClusterName`
      if isInParentPool s.router cr.name then s.replace t []
      else
        let cr := { cr with parentName := conf.clusterName }
        s.replace t [.upgrading cr conn, .handler (.start cr.name (.regist (some cr)))]
  | t@(.upgrading cr conn) =>
      if c.upgraded then s.replace t [.connecting cr conn] else s.replace t []
  | t@(.connecting cr conn) =>
      match s.clients.get cr.name with
      | some _ => s.replace t []
      | none => { s with clients := s.clients.set cr.name conn }.replace t [.connected cr conn]
  | t@(.connected cr conn) =>
      -- `afterClusterConnect`, which ignores the error of `AddChild`
      match s.router.addChild cr.name cr.listen with
      | .ok router => { s with router := router }.replace t [.announcing cr conn]
      | .error _ => s.replace t [.reading cr conn]
  | t@(.announcing cr conn) =>
      s.replace t [.reading cr conn, .broadcast s.router.neighborRouterMessage]
  | t@(.reading cr conn) =>
      let cr := { cr with time := c.now }
      s.replace t [.closing cr conn, .closeChild cr]
  | t@(.closing cr _) => { s with clients := s.clients.delete cr.name }.replace t []
  | t@(.closeChild cr) =>
      let cr' := { cr with parentName := conf.clusterName }
      { s with router := s.router.delChild cr.name }.replace t [.closed cr']
  | t@(.closed cr) =>
      s.replace t [.broadcast s.router.neighborRouterMessage,
        .handler (.start cr.name (.unregist (some cr)))]
  | t@(.handler h) => s.handle c t h .handler
  | t@(.worker h) => s.handle c t h .worker
  | t@(.broadcast msg) =>
      -- `sync.Map.Range`, taken as one step
      s.replace t ((c.order.order s.clients).filterMap fun name =>
        (s.clients.get name).map fun conn => .write conn msg)
  | t@(.write _ _) => s.replace t []

/-- One step of the controller. -/
def step (conf : HandlerConf) (s : Node γ) : NodeAction γ → Option (Node γ)
  | .request cluster name listenAddr now conn =>
      some (s.accessHandler conf cluster name listenAddr now conn)
  | .receive cr conn msg =>
      if .reading cr conn ∈ s.tasks then some (s.handleMessageFromCloudTunnel cr.name msg) else none
  | .take =>
      match s.childMessageChan with
      | [] => none
      | (client, msg) :: rest =>
          if s.tasks.countP Task.isWorker < childMessageWorkers then
            some { s with childMessageChan := rest, tasks := .worker (.start client msg) :: s.tasks }
          else none
  | .parentMessage msg => some (s.handleNeighborRoute msg)
  | .run c t => if t ∈ s.tasks then some (s.runTask conf c t) else none

/-! ### What a step can do -/

/-- What happens outside the goroutines: a request, a message or a worker comes in, and no table that
the goroutines write changes. -/
structure Arrives (s s' : Node γ) : Prop where
  tasks : ∃ new, s'.tasks = new ++ s.tasks ∧ ∀ u ∈ new,
    (∃ cr conn, u = .checking cr conn) ∨ (∃ h, u = .worker h) ∨ ∃ msg, u = .broadcast msg
  clients : s'.clients = s.clients
  childs : s'.router.childs = s.router.childs
  subtreeRouter : s'.router.subtreeRouter = s.router.subtreeRouter

omit [DecidableEq γ] in
theorem arrives_accessHandler (conf : HandlerConf) (s : Node γ) (cluster name listenAddr : String)
    (now : Int) (conn : γ) : Arrives s (s.accessHandler conf cluster name listenAddr now conn) := by
  have hsame : Arrives s s := ⟨⟨[], rfl, by simp⟩, rfl, rfl, rfl⟩
  unfold accessHandler
  split
  · exact hsame
  · split
    · exact hsame
    · split
      · exact hsame
      · split
        · exact hsame
        · exact ⟨⟨[_], rfl, by simp⟩, rfl, rfl, rfl⟩

omit [DecidableEq γ] in
theorem arrives_handleNeighborRoute (s : Node γ) (msg : Option RouterMessage) :
    Arrives s (s.handleNeighborRoute msg) := by
  refine ⟨⟨_, rfl, ?_⟩, rfl, ?_, ?_⟩
  · intro u hu
    obtain ⟨notice, -, rfl⟩ := Option.map_eq_some_iff.mp (Option.mem_toList.mp hu)
    exact Or.inr (Or.inr ⟨notice, rfl⟩)
  · show (s.router.updateRouter msg).1.childs = s.router.childs
    cases msg with
    | none => rfl
    | some parentRouter => rw [ClusterRouter.updateRouter_some]
  · show (s.router.updateRouter msg).1.subtreeRouter = s.router.subtreeRouter
    cases msg with
    | none => rfl
    | some parentRouter => rw [ClusterRouter.updateRouter_some]

/-- Either a goroutine moves, or something comes in. -/
theorem step_cases {conf : HandlerConf} {s s' : Node γ} {a : NodeAction γ}
    (h : s.step conf a = some s') :
    (∃ c t, a = .run c t ∧ t ∈ s.tasks ∧ s' = s.runTask conf c t) ∨ Arrives s s' := by
  cases a with
  | request cluster name listenAddr now conn =>
      obtain rfl := Option.some.inj h
      exact Or.inr (arrives_accessHandler conf s cluster name listenAddr now conn)
  | receive cr conn msg =>
      simp only [step, Option.ite_none_right_eq_some, Option.some.injEq] at h
      obtain ⟨-, rfl⟩ := h
      refine Or.inr ?_
      unfold handleMessageFromCloudTunnel
      split
      · exact ⟨⟨[], rfl, by simp⟩, rfl, rfl, rfl⟩
      · exact ⟨⟨[], rfl, by simp⟩, rfl, rfl, rfl⟩
  | take =>
      simp only [step] at h
      split at h
      · cases h
      · simp only [Option.ite_none_right_eq_some, Option.some.injEq] at h
        obtain ⟨-, rfl⟩ := h
        exact Or.inr ⟨⟨[_], rfl, by simp⟩, rfl, rfl, rfl⟩
  | parentMessage msg =>
      obtain rfl := Option.some.inj h
      exact Or.inr (arrives_handleNeighborRoute s msg)
  | run c t =>
      simp only [step, Option.ite_none_right_eq_some, Option.some.injEq] at h
      exact Or.inl ⟨c, t, rfl, h.1, h.2.symm⟩

omit [DecidableEq γ] in
theorem of_mem_rest {rest : Option Handling} {goOn : Handling → Task γ} {u : Task γ}
    (hu : u ∈ (rest.map goOn).toList) : ∃ h, u = goOn h := by
  obtain ⟨h, -, rfl⟩ := Option.map_eq_some_iff.mp (Option.mem_toList.mp hu)
  exact ⟨h, rfl⟩

omit [DecidableEq γ] in
theorem of_mem_writes {names : List String} {clients : GoMap String γ} {msg : RouterMessage}
    {u : Task γ}
    (hu : u ∈ names.filterMap fun name => (clients.get name).map fun conn => .write conn msg) :
    ∃ name conn, clients.get name = some conn ∧ u = .write conn msg := by
  obtain ⟨name, -, hname⟩ := List.mem_filterMap.mp hu
  obtain ⟨conn, hconn, rfl⟩ := Option.map_eq_some_iff.mp hname
  exact ⟨name, conn, hconn, rfl⟩

end Node

end OteStack
