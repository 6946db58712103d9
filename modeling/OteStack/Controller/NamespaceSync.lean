/-
# OteStack.Controller.NamespaceSync — how the namespaces of the centre reach the clusters.

Two controllers of the manager copy namespaces: `NamespaceController` sends a namespace that the informer
adds to every cluster, `ClusterCrdController` sends all namespaces there are to a cluster whose record the
informer adds. Both messages go down the tree by the subtree tables, hop by hop, as the tables are when the
message comes by. The records and the tables come from the registrations, which climb the tree: every
cluster on the way enters the route before it passes the registration on, and the root enters it before it
writes the record.

Nothing is repeated: a message to a cluster that is not connected is dropped, a list that the apiserver does
not give is not asked for again, and a cluster that has a record already is never added again, however often it
registers.  What that means for the namespaces is in `OteStack.Controller.NamespaceDelivery` and
`OteStack.Controller.NamespaceMissed`.

Namespaces and records may be deleted in the apiserver and created again, by anybody.
-/
import OteStack.ClusterHandler.ControlTask

namespace OteStack.NamespaceSync

open OteStack.Lib (GoMap MapOrder Worklist)
open SubTreeRouter

/-! ## What the controllers send -/

/-- Go's `oteNamespace`, with the name in its metadata. -/
structure OteNamespace where
  kind : String
  apiVersion : String
  name : String
  deriving DecidableEq, Repr

/-- Go's `OteNamespaceURI`. -/
def oteNamespaceURI : String := "/api/v1/namespaces"

/-- Go's `SerializeNamespaceObject`, up to JSON. -/
def serializeNamespaceObject (name : String) : OteNamespace := ⟨"Namespace", "v1", name⟩

/-- A `ControllerTask` or `ControlMultiTask` of the two controllers, up to protobuf: the first has one body.
-/
structure NamespaceTask where
  destination : String
  method : String
  uri : String
  body : List OteNamespace
  deriving DecidableEq, Repr

/-- The namespaces that a cluster has once its shim has carried out the task.  An answer of the apiserver
that the namespace exists is as good as success. -/
def NamespaceTask.posted (task : NamespaceTask) : List String :=
  if task.method = "POST" ∧ task.uri = oteNamespaceURI then task.body.map OteNamespace.name else []

/-- The message of Go's `sendNamespaceToCluster`; its selector matches every cluster. -/
def sendNamespaceToCluster (name : String) : ClusterMessage × NamespaceTask :=
  (⟨⟨"", .controlReq, "", "", ""⟩, []⟩, ⟨"api", "POST", oteNamespaceURI, [serializeNamespaceObject name]⟩)

/-- Go's `getNamespaceList`: the names of the namespaces, unless the apiserver answers with an error. -/
def getNamespaceList (failure : Option String) (namespaces : List String) : Except String (List String) :=
  match failure with
  | some err => .error err
  | none => .ok namespaces

/-- The message with all namespaces for a cluster. -/
def namespaceListMessage (cluster : String) (nameList : List String) : ClusterMessage × NamespaceTask :=
  (⟨⟨"", .controlMultiReq, cluster, "", ""⟩, []⟩,
    ⟨"api", "POST", oteNamespaceURI, nameList.map serializeNamespaceObject⟩)

/-- The message of Go's `sendNamespaceToNewCluster`, with what `getNamespaceList` returned. -/
def sendNamespaceToNewCluster (cluster : String) (nameList : Except String (List String)) :
    Except String (ClusterMessage × NamespaceTask) :=
  match nameList with
  | .error err => .error ("get NamespaceList failed: " ++ err)
  | .ok names => .ok (namespaceListMessage cluster names)

@[simp] theorem posted_sendNamespaceToCluster (name : String) :
    (sendNamespaceToCluster name).2.posted = [name] := rfl

@[simp] theorem posted_namespaceListMessage (cluster : String) (nameList : List String) :
    (namespaceListMessage cluster nameList).2.posted = nameList := by
  simp [namespaceListMessage, NamespaceTask.posted, serializeNamespaceObject, Function.comp_def]

/-! ## The system -/

/-- A message on its way down, with its task. -/
structure Flight where
  hop : Hop
  task : NamespaceTask

/-- A registration of the cluster `name` that the cluster `handler` has got from its child `client`. -/
structure Registration where
  handler : String
  client : String
  name : String
  deriving DecidableEq, Repr

/-- The tables and connections of the clusters, the registrations on their way up, the records and the
namespaces of the centre, the informers' events that are not handled, and the messages on their way down,
with the namespaces that the clusters have got. -/
structure State where
  tables : String → SubTreeRouter
  connected : List (String × String)
  registrations : List Registration
  clusters : List String
  namespaces : List String
  namespaceEvents : List String
  clusterEvents : List String
  pool : Worklist.Pool Flight (String × String)

/-- A cluster, as one end of a connection. -/
def leaf (name : String) : Cluster := .node name ∅ []

@[simp] theorem name_leaf (name : String) : (leaf name).name = name := rfl

namespace State

/-- A cluster with its table and its clients as they are. -/
def node (s : State) (name : String) : Cluster :=
  .node name (s.tables name) ((s.connected.filter fun l => l.1 == name).map fun l => leaf l.2)

/-- The state with another table of one cluster. -/
def setTable (s : State) (name : String) (r : SubTreeRouter) : State :=
  { s with tables := Function.update s.tables name r }

/-- The state with one more message on its way. -/
def send (s : State) (f : Flight) : State :=
  { s with pool := { s.pool with tasks := s.pool.tasks ++ [f] } }

end State

/-- The open choices when a message is handled: the order of the maps, whether it is lost before (on its way
from the manager to the root, too), and what the cluster handler finds if the edge handler is quicker to
answer. -/
structure Choice where
  it : MapOrder String
  lost : Bool
  taken : Taken

/-- Go's `controllerMsgHandler` at a root without a shim of its own. -/
def controllerMsgHandler (root : String) (sent : ClusterMessage × NamespaceTask) : Flight :=
  ⟨.dispatch (leaf root) (sent.1.withParent root), sent.2⟩

/-- The way down, through the tables and connections of the moment.  A cluster that the selector matches
hands the message to its shim; only a control request has an answer, which may overtake the message. -/
def work (re : Regexp) (node : String → Cluster) : Worklist Choice Flight (String × String) where
  spawn ch f := match f.hop with
    | .tunnel c m =>
        if ch.lost then []
        else if m.Picks re c.name ∧ m.head.command = .controlReq then
          [⟨.dispatch c (ch.taken.message c.name m), f.task⟩]
        else [⟨.dispatch c m, f.task⟩]
    | .dispatch c m =>
        if ch.lost then []
        else (handleMessageFromParent re ch.it (node c.name) m).map fun hop => ⟨hop, f.task⟩
  emit ch f := match f.hop with
    | .tunnel c m =>
        if ch.lost then []
        else if m.Picks re c.name ∧ m.IsControl then f.task.posted.map fun n => (c.name, n)
        else []
    | .dispatch _ _ => []

/-- What comes of creating an object in the apiserver: it fails, or the informer of the manager calls `AddFunc`.
An informer that has missed that an object of this name was deleted takes the new one for an update. -/
inductive Creation where
  | failed
  | unnoticed
  | added
  deriving DecidableEq, Repr

/-- What may happen.  Routes may be added and deleted at any time by the reports of children and by
connections that close. -/
inductive Action where
  | createNamespace (name : String) (created : Creation)
  | deleteNamespace (name : String)
  | deleteCluster (name : String)
  | restart
  | namespaceAdded (name : String)
  | clusterAdded (cluster : String) (failure : Option String)
  | connect (parent child : String)
  | disconnect (parent child : String)
  | checkClusterName (parent child : String)
  | handleRegist (i : ℕ) (parent : Option String) (created : Creation)
  | addRoute (cluster dest port : String)
  | delRoute (it : MapOrder String) (cluster dest port : String)
  | handle (ch : Choice) (i : ℕ)

/-- The objects there are then. -/
def Creation.names (created : Creation) (name : String) (names : List String) : List String :=
  match created with
  | .failed => names
  | .unnoticed => name :: names
  | .added => name :: names

/-- The events that are to be handled then. -/
def Creation.events (created : Creation) (name : String) (events : List String) : List String :=
  match created with
  | .failed => events
  | .unnoticed => events
  | .added => name :: events

theorem Creation.mem_names {created : Creation} {x name : String} {names : List String}
    (h : x ∈ created.names name names) : x ∈ names ∨ x = name := by
  cases created with
  | failed => exact Or.inl h
  | unnoticed => exact (List.mem_cons.mp h).symm
  | added => exact (List.mem_cons.mp h).symm

theorem Creation.mem_events {created : Creation} {x name : String} {events : List String}
    (h : x ∈ created.events name events) : x ∈ events ∨ created = .added ∧ x = name := by
  cases created with
  | failed => exact Or.inl h
  | unnoticed => exact Or.inl h
  | added => exact (List.mem_cons.mp h).symm.imp_right fun hx => ⟨rfl, hx⟩

theorem Creation.mem_events_of_mem {x : String} {events : List String} (h : x ∈ events) (created : Creation)
    (name : String) : x ∈ created.events name events := by
  cases created with
  | failed => exact h
  | unnoticed => exact h
  | added => exact List.mem_cons_of_mem name h

/-- An object that is new is an event, if the informer notices it. -/
theorem Creation.mem_events_of_new {created : Creation} {x name : String} {names events : List String}
    (h : x ∈ created.names name names) (hx : x ∉ names) (hnoticed : created ≠ .unnoticed) :
    x ∈ created.events name events := by
  cases created with
  | failed => exact absurd h hx
  | unnoticed => exact absurd rfl hnoticed
  | added =>
      rcases List.mem_cons.mp h with rfl | h
      · exact List.mem_cons_self
      · exact absurd h hx

/-- A namespace that is not there is created. -/
def State.createNamespace (s : State) (name : String) (created : Creation) : State :=
  { s with
    namespaces := created.names name s.namespaces
    namespaceEvents := created.events name s.namespaceEvents }

/-- Go's `createOrUpdateCluster`: an update of a record that is there is no event for the manager. -/
def State.createOrUpdateCluster (s : State) (name : String) (created : Creation) : State :=
  if name ∈ s.clusters then s
  else
    { s with
      clusters := created.names name s.clusters
      clusterEvents := created.events name s.clusterEvents }

/-- Go's `handleRegistClusterMessage` for the `i`-th registration.  A cluster that is not the root passes it
on to its parent, if it has one. -/
def State.handleRegistClusterMessage (root : String) (s : State) (i : ℕ) (r : Registration)
    (parent : Option String) (created : Creation) : Option State :=
  let rest := { s with registrations := s.registrations.eraseIdx i }
  match addRoute (s.tables r.handler) r.name r.client with
  | .error _ => some rest
  | .ok table =>
      let routed := rest.setTable r.handler table
      if r.handler = root then some (routed.createOrUpdateCluster r.name created)
      else match parent with
        | none => some routed
        | some p =>
            if (p, r.handler) ∈ s.connected then
              some { routed with registrations := ⟨p, r.handler, r.name⟩ :: routed.registrations }
            else none

/-- One step.  The names of clusters are names of Kubernetes objects. -/
def step (re : Regexp) (root : String) (s : State) : Action → Option State
  | .createNamespace name created =>
      if name ∈ s.namespaces then none else some (s.createNamespace name created)
  | .deleteNamespace name => some { s with namespaces := s.namespaces.filter (· ≠ name) }
  | .deleteCluster name => some { s with clusters := s.clusters.filter (· ≠ name) }
  | .restart => some { s with namespaceEvents := s.namespaces, clusterEvents := s.clusters }
  | .namespaceAdded name =>
      if name ∈ s.namespaceEvents then
        some (State.send { s with namespaceEvents := s.namespaceEvents.erase name }
          (controllerMsgHandler root (sendNamespaceToCluster name)))
      else none
  | .clusterAdded cluster failure =>
      if cluster ∈ s.clusterEvents then
        let handled := { s with clusterEvents := s.clusterEvents.erase cluster }
        match sendNamespaceToNewCluster cluster (getNamespaceList failure s.namespaces) with
        -- the error is logged, and that is all
        | .error _ => some handled
        | .ok sent => some (handled.send (controllerMsgHandler root sent))
      else none
  | .connect parent child => some { s with connected := (parent, child) :: s.connected }
  | .disconnect parent child =>
      some { s with connected := s.connected.filter fun l => l ≠ (parent, child) }
  | .checkClusterName parent child =>
      if IsClusterName child then
        some { s with registrations := ⟨parent, child, child⟩ :: s.registrations }
      else none
  | .handleRegist i parent created =>
      s.registrations[i]?.bind fun r => s.handleRegistClusterMessage root i r parent created
  | .addRoute cluster dest port =>
      if IsClusterName dest then some (s.setTable cluster (afterAddRoute (s.tables cluster) dest port))
      else none
  | .delRoute it cluster dest port => some (s.setTable cluster (delRoute it (s.tables cluster) dest port))
  | .handle ch i => ((work re s.node).step s.pool (ch, i)).map fun pool => { s with pool := pool }

variable {re : Regexp} {root : String} {s s' : State} {a : Action}

/-- The steps with what they need. -/
inductive Transition (re : Regexp) (root : String) (s : State) : Action → State → Prop
  | createNamespace {name : String} {created : Creation} (h : name ∉ s.namespaces) :
      Transition re root s (.createNamespace name created) (s.createNamespace name created)
  | deleteNamespace {name : String} : Transition re root s (.deleteNamespace name)
      { s with namespaces := s.namespaces.filter (· ≠ name) }
  | deleteCluster {name : String} : Transition re root s (.deleteCluster name)
      { s with clusters := s.clusters.filter (· ≠ name) }
  | restart : Transition re root s .restart
      { s with namespaceEvents := s.namespaces, clusterEvents := s.clusters }
  | namespaceAdded {name : String} (h : name ∈ s.namespaceEvents) :
      Transition re root s (.namespaceAdded name)
        (State.send { s with namespaceEvents := s.namespaceEvents.erase name }
          (controllerMsgHandler root (sendNamespaceToCluster name)))
  | listFailed {cluster err : String} (h : cluster ∈ s.clusterEvents) :
      Transition re root s (.clusterAdded cluster (some err))
        { s with clusterEvents := s.clusterEvents.erase cluster }
  | clusterAdded {cluster : String} (h : cluster ∈ s.clusterEvents) :
      Transition re root s (.clusterAdded cluster none)
        (State.send { s with clusterEvents := s.clusterEvents.erase cluster }
          (controllerMsgHandler root (namespaceListMessage cluster s.namespaces)))
  | connect {parent child : String} : Transition re root s (.connect parent child)
      { s with connected := (parent, child) :: s.connected }
  | disconnect {parent child : String} : Transition re root s (.disconnect parent child)
      { s with connected := s.connected.filter fun l => l ≠ (parent, child) }
  | checkClusterName {parent child : String} (h : IsClusterName child) :
      Transition re root s (.checkClusterName parent child)
        { s with registrations := ⟨parent, child, child⟩ :: s.registrations }
  | refused {i : ℕ} {parent : Option String} {created : Creation} :
      Transition re root s (.handleRegist i parent created)
        { s with registrations := s.registrations.eraseIdx i }
  | recorded {i : ℕ} {parent : Option String} {created : Creation} {r : Registration}
      (hr : s.registrations[i]? = some r) (hroot : r.handler = root) {table : SubTreeRouter}
      (htable : SubTreeRouter.addRoute (s.tables r.handler) r.name r.client = .ok table) :
      Transition re root s (.handleRegist i parent created)
        (State.createOrUpdateCluster (State.setTable
          { s with registrations := s.registrations.eraseIdx i } r.handler table) r.name created)
  | ended {i : ℕ} {created : Creation} {r : Registration} (hr : s.registrations[i]? = some r)
      {table : SubTreeRouter}
      (htable : SubTreeRouter.addRoute (s.tables r.handler) r.name r.client = .ok table) :
      Transition re root s (.handleRegist i none created)
        (State.setTable { s with registrations := s.registrations.eraseIdx i } r.handler table)
  | passed {i : ℕ} {p : String} {created : Creation} {r : Registration}
      (hr : s.registrations[i]? = some r) (hp : (p, r.handler) ∈ s.connected) {table : SubTreeRouter}
      (htable : SubTreeRouter.addRoute (s.tables r.handler) r.name r.client = .ok table) :
      Transition re root s (.handleRegist i (some p) created)
        (State.setTable
          { s with registrations := ⟨p, r.handler, r.name⟩ :: s.registrations.eraseIdx i } r.handler table)
  | addRoute {cluster dest port : String} (h : IsClusterName dest) :
      Transition re root s (.addRoute cluster dest port)
        (s.setTable cluster (afterAddRoute (s.tables cluster) dest port))
  | delRoute {it : MapOrder String} {cluster dest port : String} :
      Transition re root s (.delRoute it cluster dest port)
        (s.setTable cluster (SubTreeRouter.delRoute it (s.tables cluster) dest port))
  | handle {ch : Choice} {i : ℕ} {pool : Worklist.Pool Flight (String × String)}
      (h : (work re s.node).step s.pool (ch, i) = some pool) :
      Transition re root s (.handle ch i) { s with pool := pool }

theorem transition_of_handleRegist {i : ℕ} {r : Registration} {parent : Option String} {created : Creation}
    (hr : s.registrations[i]? = some r)
    (h : s.handleRegistClusterMessage root i r parent created = some s') :
    Transition re root s (.handleRegist i parent created) s' := by
  unfold State.handleRegistClusterMessage at h
  cases htable : SubTreeRouter.addRoute (s.tables r.handler) r.name r.client with
  | error e =>
      simp only [htable, Option.some.injEq] at h
      subst h
      exact .refused
  | ok table =>
      simp only [htable] at h
      by_cases hroot : r.handler = root
      · rw [if_pos hroot, Option.some.injEq] at h
        subst h
        exact .recorded hr hroot htable
      · rw [if_neg hroot] at h
        cases parent with
        | none =>
            simp only [Option.some.injEq] at h
            subst h
            exact .ended hr htable
        | some p =>
            simp only [Option.ite_none_right_eq_some, Option.some.injEq] at h
            obtain ⟨hp, rfl⟩ := h
            exact .passed hr hp htable

theorem transition_of_step (h : step re root s a = some s') : Transition re root s a s' := by
  cases a with
  | createNamespace name created =>
      simp only [step, Option.ite_none_left_eq_some, Option.some.injEq] at h
      obtain ⟨hn, rfl⟩ := h
      exact .createNamespace hn
  | deleteNamespace name =>
      obtain rfl := Option.some.inj h
      exact .deleteNamespace
  | deleteCluster name =>
      obtain rfl := Option.some.inj h
      exact .deleteCluster
  | restart =>
      obtain rfl := Option.some.inj h
      exact .restart
  | namespaceAdded name =>
      simp only [step, Option.ite_none_right_eq_some, Option.some.injEq] at h
      obtain ⟨hn, rfl⟩ := h
      exact .namespaceAdded hn
  | clusterAdded cluster failure =>
      obtain ⟨hc, h⟩ := Option.ite_none_right_eq_some.mp h
      cases failure with
      | some err =>
          obtain rfl := Option.some.inj h
          exact .listFailed hc
      | none =>
          obtain rfl := Option.some.inj h
          exact .clusterAdded hc
  | connect parent child =>
      obtain rfl := Option.some.inj h
      exact .connect
  | disconnect parent child =>
      obtain rfl := Option.some.inj h
      exact .disconnect
  | checkClusterName parent child =>
      simp only [step, Option.ite_none_right_eq_some, Option.some.injEq] at h
      obtain ⟨hc, rfl⟩ := h
      exact .checkClusterName hc
  | handleRegist i parent created =>
      obtain ⟨r, hr, h⟩ := Option.bind_eq_some_iff.mp h
      exact transition_of_handleRegist hr h
  | addRoute cluster dest port =>
      simp only [step, Option.ite_none_right_eq_some, Option.some.injEq] at h
      obtain ⟨hd, rfl⟩ := h
      exact .addRoute hd
  | delRoute it cluster dest port =>
      obtain rfl := Option.some.inj h
      exact .delRoute
  | handle ch i =>
      obtain ⟨pool, hpool, rfl⟩ := Option.map_eq_some_iff.mp h
      exact .handle hpool

/-! ## Names -/

/-- The names that are used as patterns are names of clusters. -/
structure Named (s : State) : Prop where
  keys : ∀ c k port, (s.tables c).get k = some port → IsClusterName k
  registrations : ∀ r ∈ s.registrations, IsClusterName r.name
  clusters : ∀ c ∈ s.clusters, IsClusterName c
  events : ∀ c ∈ s.clusterEvents, IsClusterName c

/-- A table that is changed keeps names as its keys. -/
theorem Named.setTable (hs : Named s) {c : String} {table : SubTreeRouter}
    (h : ∀ k port, table.get k = some port → IsClusterName k) : Named (s.setTable c table) where
  keys d k port hk := by
    by_cases hd : d = c
    · subst hd
      exact h k port (by simpa [State.setTable] using hk)
    · exact hs.keys d k port (by simpa [State.setTable, hd] using hk)
  registrations := hs.registrations
  clusters := hs.clusters
  events := hs.events

theorem afterAddRoute_of_ok {r table : SubTreeRouter} {dest port : String}
    (h : addRoute r dest port = .ok table) : afterAddRoute r dest port = table := by
  rw [afterAddRoute, h]

theorem keys_afterAddRoute {r : SubTreeRouter} {dest port : String}
    (hr : ∀ k p, r.get k = some p → IsClusterName k) (hdest : IsClusterName dest) :
    ∀ k p, (afterAddRoute r dest port).get k = some p → IsClusterName k := by
  intro k p hk
  rw [get_afterAddRoute] at hk
  split at hk
  · rename_i hnew
    rw [hnew.1]
    exact hdest
  · exact hr k p hk

/-- `AddRoute` keeps the routes there are. -/
theorem get_afterAddRoute_of_some {r : SubTreeRouter} {dest port k d : String} (hk : r.get k = some d) :
    (afterAddRoute r dest port).get k = some d := by
  rw [get_afterAddRoute, if_neg]
  · exact hk
  · rintro ⟨rfl, hnone⟩
    rw [hk] at hnone
    cases hnone

theorem Named.createOrUpdateCluster (hs : Named s) {name : String} (hname : IsClusterName name)
    (created : Creation) : Named (s.createOrUpdateCluster name created) := by
  unfold State.createOrUpdateCluster
  split
  · exact hs
  · refine ⟨hs.keys, hs.registrations, fun c hc => ?_, fun c hc => ?_⟩
    · rcases Creation.mem_names hc with hc | rfl
      · exact hs.clusters c hc
      · exact hname
    · rcases Creation.mem_events hc with hc | ⟨-, rfl⟩
      · exact hs.events c hc
      · exact hname

theorem Named.step (hs : Named s) (h : step re root s a = some s') : Named s' := by
  have herase : ∀ i, ∀ r ∈ s.registrations.eraseIdx i, IsClusterName r.name := fun i r hr =>
    hs.registrations r (List.mem_of_mem_eraseIdx hr)
  have hrest : ∀ i, Named { s with registrations := s.registrations.eraseIdx i } := fun i =>
    ⟨hs.keys, herase i, hs.clusters, hs.events⟩
  have hgot : ∀ {i : ℕ} {r : Registration}, s.registrations[i]? = some r → IsClusterName r.name := fun hr =>
    hs.registrations _ (List.mem_of_getElem? hr)
  cases transition_of_step h with
  | createNamespace _ => exact ⟨hs.keys, hs.registrations, hs.clusters, hs.events⟩
  | deleteNamespace => exact ⟨hs.keys, hs.registrations, hs.clusters, hs.events⟩
  | deleteCluster =>
      exact ⟨hs.keys, hs.registrations, fun c hc => hs.clusters c (List.mem_filter.mp hc).1, hs.events⟩
  | restart => exact ⟨hs.keys, hs.registrations, hs.clusters, hs.clusters⟩
  | namespaceAdded _ => exact ⟨hs.keys, hs.registrations, hs.clusters, hs.events⟩
  | listFailed _ =>
      exact ⟨hs.keys, hs.registrations, hs.clusters, fun c hc => hs.events c (List.mem_of_mem_erase hc)⟩
  | clusterAdded _ =>
      exact ⟨hs.keys, hs.registrations, hs.clusters, fun c hc => hs.events c (List.mem_of_mem_erase hc)⟩
  | connect => exact ⟨hs.keys, hs.registrations, hs.clusters, hs.events⟩
  | disconnect => exact ⟨hs.keys, hs.registrations, hs.clusters, hs.events⟩
  | checkClusterName hc =>
      exact ⟨hs.keys, List.forall_mem_cons.mpr ⟨hc, hs.registrations⟩, hs.clusters, hs.events⟩
  | refused => exact hrest _
  | recorded hr _ htable =>
      refine Named.createOrUpdateCluster ?_ (hgot hr) _
      exact (hrest _).setTable (afterAddRoute_of_ok htable ▸ keys_afterAddRoute (hs.keys _) (hgot hr))
  | ended hr htable =>
      exact (hrest _).setTable (afterAddRoute_of_ok htable ▸ keys_afterAddRoute (hs.keys _) (hgot hr))
  | @passed i p created r hr hp table htable =>
      have hname : IsClusterName r.name := hgot hr
      have hup : Named { s with registrations := ⟨p, r.handler, r.name⟩ :: s.registrations.eraseIdx i } :=
        ⟨hs.keys, List.forall_mem_cons.mpr ⟨hname, herase i⟩, hs.clusters, hs.events⟩
      exact hup.setTable (afterAddRoute_of_ok htable ▸ keys_afterAddRoute (hs.keys _) hname)
  | addRoute hd => exact hs.setTable (keys_afterAddRoute (hs.keys _) hd)
  | delRoute =>
      refine hs.setTable fun k port hk => ?_
      rw [get_delRoute, Option.ite_none_left_eq_some] at hk
      exact hs.keys _ k port hk.2
  | handle _ => exact ⟨hs.keys, hs.registrations, hs.clusters, hs.events⟩

/-! ## Selectors and one hop -/

/-- A selector that is a name picks what the name matches. -/
theorem picks_of_selector {m : ClusterMessage} {z : String} (hm : m.head.clusterSelector = z)
    (hz : IsClusterName z) (w : String) : m.Picks re w ↔ re.matchString z w = true := by
  have hjoin : clustersToSelector [z] = z := by
    simp [clustersToSelector, OteStack.Lib.GoStrings.join]
  rw [ClusterMessage.Picks, hm, ← hjoin, has_clustersToSelector re (by simp) (by simpa using hz), hjoin]
  simp

/-- The empty selector picks every cluster. -/
theorem matchString_empty {w : String} (hw : IsClusterName w) : re.matchString "" w = true := by
  rw [re.matchString_name (by decide) hw]
  simp only [OteStack.Lib.PlainPattern.found, List.any_eq_true, List.mem_tails]
  exact ⟨w.toList, List.suffix_rfl, rfl⟩

/-- A cluster passes a message on to a connected client through which it routes a cluster that the selector
picks. -/
theorem exists_forward (it : MapOrder String) (hs : Named s) {c d y : String} {m : ClusterMessage}
    (hcmd : m.head.command ≠ .neighborRoute) (hroute : (s.tables c).get y = some d)
    (hconn : (c, d) ∈ s.connected) (hpick : m.Picks re y) :
    ∃ sel, Hop.tunnel (leaf d) (m.withSelector sel) ∈ handleMessageFromParent re it (s.node c) m ∧
      (m.withSelector sel).Picks re y := by
  have hbehind : y ∈ selectedBehind re it (s.tables c) m d := mem_selectedBehind.mpr ⟨hroute, hpick⟩
  have hne := List.ne_nil_of_mem hbehind
  have hget := get_selectChild re it (s.tables c) m d
  rw [if_neg hne] at hget
  have hclient : (s.node c).clientNamed d = some (leaf d) := by
    have hmem : leaf d ∈ (s.node c).clients :=
      List.mem_map.mpr ⟨(c, d), List.mem_filter.mpr ⟨hconn, by simp⟩, rfl⟩
    cases hfind : (s.node c).clientNamed d with
    | none => exact absurd (List.find?_eq_none.mp hfind _ hmem) (by simp)
    | some e =>
        obtain ⟨he, hname⟩ := Cluster.clientNamed_eq_some hfind
        obtain ⟨l, -, rfl⟩ := List.mem_map.mp he
        rw [name_leaf] at hname
        rw [hname]
  refine ⟨_, ?_, (picks_withSelector (hs.keys c) hne y).mpr
    ⟨y, hroute, hpick, matchString_self re (hs.keys c y d hroute)⟩⟩
  unfold handleMessageFromParent
  rw [if_neg hcmd]
  refine List.mem_filterMap.mpr ⟨d, (it.mem_order _ _).mpr (GoMap.mem_keys_of_get hget), ?_⟩
  change ((selectChild re it (s.tables c) m).get d).bind _ = _
  rw [hget, Option.bind_some, hclient, Option.map_some]

/-- What a cluster passes on picks only what a name that the selector picked matches. -/
theorem picks_of_forward {it : MapOrder String} (hs : Named s) {c : String} {m : ClusterMessage} {hop : Hop}
    (h : hop ∈ handleMessageFromParent re it (s.node c) m) :
    ∃ d m', hop = .tunnel d m' ∧
      ∀ w, m'.Picks re w → ∃ x, IsClusterName x ∧ m.Picks re x ∧ re.matchString x w = true := by
  obtain ⟨port, d, -, hne, rfl⟩ := exists_port_of_mem h
  refine ⟨d, _, rfl, fun w hw => ?_⟩
  obtain ⟨x, hx, hpick, hxw⟩ := (picks_withSelector (hs.keys c) hne w).mp hw
  exact ⟨x, hs.keys c x port hx, hpick, hxw⟩

/-! ## To run examples with -/

/-- The choice of a handling in which nothing goes wrong. -/
def plainChoice : Choice := ⟨MapOrder.sorted, false, .asRequest⟩

/-- Nothing has happened yet. -/
def initial : State := ⟨fun _ => ∅, [], [], [], [], [], [], ⟨[], []⟩⟩

theorem named_initial : Named initial :=
  ⟨by simp [initial], by simp [initial], by simp [initial], by simp [initial]⟩

end OteStack.NamespaceSync
