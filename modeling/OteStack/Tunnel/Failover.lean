/-
# OteStack.Tunnel.Failover — a tree of clusters whose members change their parents.

Every cluster runs a controller (`Node`, for its children) and, unless it is the root, an edge tunnel to
its parent.  A tunnel that fails over dials whatever address its tables offer, and the tables are filled
by messages that may be arbitrarily old, from parents it may have left long ago.

The invariant (`Network.Leveled`) is about depth in the configured tree.  Whatever a cluster holds as a
child, as a neighbour or as a neighbour of its parent is an address one level below, on, or one level
above its own, and so is what its goroutines and the messages on their way carry.  A cluster only ever
dials one level up, so it is only ever admitted as a child one level up; from this every step keeps the
invariant (`leveled_step`), and connections never form a cycle (`failover_acyclic`).
-/
import Mathlib.Data.Fin.VecNotation
import Mathlib.Logic.Function.Basic
import Mathlib.Logic.Relation
import OteStack.ClusterHandler.Neighbors
import OteStack.Tunnel.EdgeTunnel

namespace OteStack

open OteStack.Lib (GoMap MapOrder runSteps runSteps_invariant)

/-! ## The configured tree -/

/-- Clusters whose configured parents form a tree, each with an address of its own. -/
structure Clusters (ι : Type) where
  parent : ι → Option ι
  depth : ι → ℕ
  root_depth : ∀ n, parent n = none → depth n = 0
  child_depth : ∀ n m, parent n = some m → depth n = depth m + 1
  root_unique : ∀ n m, parent n = none → parent m = none → n = m
  name : ι → String
  listenAddr : ι → String
  listenAddr_injective : Function.Injective listenAddr
  conf : ι → HandlerConf

namespace Clusters

variable {ι : Type} (K : Clusters ι)

/-- The address of a cluster one level below `n`. -/
def Below (n : ι) (addr : String) : Prop := ∃ m, K.listenAddr m = addr ∧ K.depth m = K.depth n + 1

/-- The address of a cluster on the level of `n`. -/
def Beside (n : ι) (addr : String) : Prop := ∃ m, K.listenAddr m = addr ∧ K.depth m = K.depth n

/-- The address of a cluster one level above `n`. -/
def Above (n : ι) (addr : String) : Prop := ∃ m, K.listenAddr m = addr ∧ K.depth m + 1 = K.depth n

variable {K}

/-- Who is reached at an address one level up is one level up. -/
theorem depth_of_above {n m : ι} (h : K.Above n (K.listenAddr m)) : K.depth m + 1 = K.depth n := by
  obtain ⟨m', haddr, hdepth⟩ := h
  rwa [K.listenAddr_injective haddr] at hdepth

/-- What a cluster tells those below it. -/
theorem lists_below {n m : ι} (hdepth : K.depth n = K.depth m + 1) {msg : RouterMessage}
    (h : msg.Lists (K.Below m) (K.Beside m)) : msg.Lists (K.Beside n) (K.Above n) := by
  refine ⟨?_, ?_⟩
  · intro table htable k addr hk
    obtain ⟨j, hj, hlevel⟩ := h.1 table htable k addr hk
    exact ⟨j, hj, by omega⟩
  · intro table htable k addr hk
    obtain ⟨j, hj, hlevel⟩ := h.2 table htable k addr hk
    exact ⟨j, hj, by omega⟩

end Clusters

/-! ## The network -/

/-- What the edge tunnel of a cluster is doing. -/
inductive Link (ι : Type) where
  /-- about to dial -/
  | down
  /-- the request has reached the cluster -/
  | dialing (m : ι)
  /-- the cluster has upgraded the connection -/
  | accepted (m : ι)
  /-- connected -/
  | up (m : ι)
  deriving DecidableEq

/-- The cluster at the other end. -/
def Link.peer {ι : Type} : Link ι → Option ι
  | .down => none
  | .dialing m => some m
  | .accepted m => some m
  | .up m => some m

/-- The edge side of a cluster that is not the root. -/
structure Edge (ι : Type) where
  tunnel : EdgeTunnel
  link : Link ι
  /-- the first `connect` has succeeded, and `Start` has returned -/
  started : Bool

/-- All clusters, and the `NeighborRoute` messages that have been written and not yet handled. -/
structure Network (ι : Type) where
  nodes : ι → Node ι
  edges : ι → Option (Edge ι)
  inFlight : List (ι × RouterMessage)

/-- Every cluster has just started. -/
def Network.init {ι : Type} (K : Clusters ι) : Network ι where
  nodes _ := Node.init ι
  edges n := (K.parent n).map fun m => ⟨EdgeTunnel.new (K.listenAddr m), .down, false⟩
  inFlight := []

/-- What may happen next. -/
inductive NetAction (ι : Type) where
  /-- `n` dials its address, and the request reaches the cluster `m` -/
  | dial (n m : ι) (now : Int)
  /-- `m` upgrades the connection of `n` -/
  | upgrade (m : ι) (cr : ClusterRegistry) (n : ι) (c : Choice)
  /-- the dial of `n` has succeeded -/
  | connectedTo (n : ι)
  /-- the dial of `n` has failed, for whatever reason -/
  | dialFailed (n : ι) (order : MapOrder String) (now : Time)
  /-- the dial of `n` is answered with a redirect -/
  | redirected (n : ι)
  /-- `n` loses its connection -/
  | disconnected (n : ι)
  /-- a step inside the controller of `m` -/
  | node (m : ι) (a : NodeAction ι)
  /-- a goroutine of `m` writes a message to the connection of `n` -/
  | send (m n : ι) (msg : RouterMessage) (c : Choice)
  /-- `n` handles a message that was written to it -/
  | deliver (n : ι) (msg : RouterMessage)

/-- The steps of a controller that concern nobody else: all but requests, messages of the parent,
upgrades that succeed and writes. -/
def NodeAction.internal {ι : Type} : NodeAction ι → Bool
  | .request .. => false
  | .parentMessage _ => false
  | .receive .. => true
  | .take => true
  | .run c (.upgrading _ _) => !c.upgraded
  | .run _ (.write _ _) => false
  | .run _ _ => true

namespace Network

variable {ι : Type} [DecidableEq ι]

/-- The network with another controller at `n`. -/
def setNode (w : Network ι) (n : ι) (s : Node ι) : Network ι :=
  { w with nodes := Function.update w.nodes n s }

/-- The network with another edge side at `n`. -/
def setEdge (w : Network ι) (n : ι) (e : Edge ι) : Network ι :=
  { w with edges := Function.update w.edges n (some e) }

theorem nodes_setNode (w : Network ι) (n : ι) (s : Node ι) (m : ι) :
    (w.setNode n s).nodes m = if m = n then s else w.nodes m := Function.update_apply _ _ _ _

theorem edges_setEdge (w : Network ι) (n : ι) (e : Edge ι) (m : ι) :
    (w.setEdge n e).edges m = if m = n then some e else w.edges m := Function.update_apply _ _ _ _

/-- One round of `reconnect` that failed.  A tunnel whose first `connect` fails does not start; when
it is started again it is as new. -/
def failRound (w : Network ι) (n : ι) (e : Edge ι) (order : MapOrder String) (now : Time) : Edge ι :=
  if e.started then
    ⟨e.tunnel.dialFailed order now (w.nodes n).router.parentNeighbor, .down, true⟩
  else { e with link := .down }

/-- One step of the network. -/
def step (K : Clusters ι) (w : Network ι) : NetAction ι → Option (Network ι)
  | .dial n m now => do
      let e ← w.edges n
      if e.link = .down ∧ K.listenAddr m = e.tunnel.cloudAddr then
        some ((w.setNode m ((w.nodes m).accessHandler (K.conf m) (K.name n) (K.name n)
          (K.listenAddr n) now n)).setEdge n { e with link := .dialing m })
      else none
  | .upgrade m cr n c => do
      let e ← w.edges n
      let s ← (w.nodes m).step (K.conf m) (.run c (.upgrading cr n))
      if c.upgraded then
        some ((w.setNode m s).setEdge n
          (if e.link = .dialing m then { e with link := .accepted m } else e))
      else none
  | .connectedTo n => do
      let e ← w.edges n
      match e.link with
      | .accepted m =>
          some (w.setEdge n ⟨if e.started then e.tunnel.reconnected else e.tunnel, .up m, true⟩)
      | _ => none
  | .dialFailed n order now => do
      let e ← w.edges n
      match e.link with
      | .up _ => none
      | _ => some (w.setEdge n (w.failRound n e order now))
  | .redirected n => do
      let e ← w.edges n
      match e.link with
      | .dialing m =>
          if (K.conf m).leaderListenAddr ≠ "" then
            some (w.setEdge n
              { e with tunnel := e.tunnel.redirected (K.conf m).leaderListenAddr, link := .down })
          else none
      | _ => none
  | .disconnected n => do
      let e ← w.edges n
      match e.link with
      | .up _ => some (w.setEdge n { e with link := .down })
      | _ => none
  | .node m a => do
      let s ← (w.nodes m).step (K.conf m) a
      if a.internal then some (w.setNode m s) else none
  | .send m n msg c => do
      let s ← (w.nodes m).step (K.conf m) (.run c (.write n msg))
      some { w.setNode m s with inFlight := (n, msg) :: w.inFlight }
  | .deliver n msg =>
      if (n, msg) ∈ w.inFlight then
        some { w.setNode n ((w.nodes n).handleNeighborRoute (some msg)) with
          inFlight := w.inFlight.erase (n, msg) }
      else none

/-! ## Levels -/

variable {K : Clusters ι} {w w' : Network ι}

omit [DecidableEq ι] in
variable (K w) in
/-- Every address that a cluster holds for a child, a neighbour or a neighbour of its parent is of the
level that this means in the configured tree, and so is every peer and every address on its way. -/
structure Leveled : Prop where
  nodes : ∀ n, (w.nodes n).Conforms (fun m => K.depth m = K.depth n + 1) (K.Below n) (K.Beside n)
    (K.Above n)
  tunnels : ∀ n e, w.edges n = some e → e.tunnel.AddrsAll (K.Above n)
  links : ∀ n e m, w.edges n = some e → e.link.peer = some m → K.depth m + 1 = K.depth n
  inFlight : ∀ x ∈ w.inFlight, x.2.Lists (K.Beside x.1) (K.Above x.1)

omit [DecidableEq ι] in
variable (K) in
theorem leveled_init : Leveled K (Network.init K) where
  nodes _ := Node.conforms_init
  tunnels n e he := by
    obtain ⟨m, hm, rfl⟩ := Option.map_eq_some_iff.mp he
    exact EdgeTunnel.addrsAll_new ⟨m, rfl, (K.child_depth n m hm).symm⟩
  links n e m he hpeer := by
    obtain ⟨m', -, rfl⟩ := Option.map_eq_some_iff.mp he
    cases hpeer
  inFlight x hx := by cases hx

theorem Leveled.setNode (h : Leveled K w) {n : ι} {s : Node ι}
    (hs : s.Conforms (fun m => K.depth m = K.depth n + 1) (K.Below n) (K.Beside n) (K.Above n)) :
    Leveled K (w.setNode n s) := by
  refine ⟨?_, h.tunnels, h.links, h.inFlight⟩
  intro m
  rw [nodes_setNode]
  split
  · rename_i hm
    exact hm ▸ hs
  · exact h.nodes m

theorem Leveled.setEdge (h : Leveled K w) {n : ι} {e : Edge ι}
    (htunnel : e.tunnel.AddrsAll (K.Above n))
    (hlink : ∀ m, e.link.peer = some m → K.depth m + 1 = K.depth n) : Leveled K (w.setEdge n e) := by
  -- an edge side of the new network is the new one of `n` or an old one
  have hcases : ∀ j e', (w.setEdge n e).edges j = some e' →
      (j = n ∧ e' = e) ∨ w.edges j = some e' := by
    intro j e' he'
    rw [edges_setEdge] at he'
    split at he'
    · exact Or.inl ⟨‹_›, (Option.some.inj he').symm⟩
    · exact Or.inr he'
  refine ⟨h.nodes, ?_, ?_, h.inFlight⟩
  · intro j e' he'
    rcases hcases j e' he' with ⟨rfl, rfl⟩ | hold
    · exact htunnel
    · exact h.tunnels j e' hold
  · intro j e' m he' hpeer
    rcases hcases j e' he' with ⟨rfl, rfl⟩ | hold
    · exact hlink m hpeer
    · exact h.links j e' m hold hpeer

/-- A step of a goroutine of one controller. -/
theorem Leveled.runTask (h : Leveled K w) {m : ι} {c : Choice} {t : Task ι} {s : Node ι}
    (hs : (w.nodes m).step (K.conf m) (.run c t) = some s) :
    t ∈ (w.nodes m).tasks ∧ Leveled K (w.setNode m s) := by
  simp only [Node.step, Option.ite_none_right_eq_some, Option.some.injEq] at hs
  obtain ⟨ht, rfl⟩ := hs
  exact ⟨ht, h.setNode ((h.nodes m).runTask (K.conf m) c ht)⟩

/-- A step inside one controller. -/
theorem Leveled.internal (h : Leveled K w) {m : ι} {a : NodeAction ι} {s : Node ι}
    (ha : a.internal = true) (hs : (w.nodes m).step (K.conf m) a = some s) :
    Leveled K (w.setNode m s) := by
  cases a with
  | request cluster name listenAddr now conn => cases ha
  | parentMessage msg => cases ha
  | run c t => exact (h.runTask hs).2
  | receive cr conn msg =>
      simp only [Node.step, Option.ite_none_right_eq_some, Option.some.injEq] at hs
      obtain ⟨-, rfl⟩ := hs
      apply h.setNode
      unfold Node.handleMessageFromCloudTunnel
      split
      · exact ⟨(h.nodes m).clients, (h.nodes m).childs, (h.nodes m).neighbor,
          (h.nodes m).parentNeighbor, (h.nodes m).tasks⟩
      · exact h.nodes m
  | take =>
      simp only [Node.step] at hs
      split at hs
      · cases hs
      · simp only [Option.ite_none_right_eq_some, Option.some.injEq] at hs
        obtain ⟨-, rfl⟩ := hs
        apply h.setNode
        refine ⟨(h.nodes m).clients, (h.nodes m).childs, (h.nodes m).neighbor,
          (h.nodes m).parentNeighbor, ?_⟩
        intro t ht
        rcases List.mem_cons.mp ht with rfl | ht
        · trivial
        · exact (h.nodes m).tasks t ht

/-- A failed round leaves the tunnel with an address one level up. -/
theorem Leveled.failRound (h : Leveled K w) {n : ι} {e : Edge ι} (he : w.edges n = some e)
    (order : MapOrder String) (now : Time) :
    Leveled K (w.setEdge n (w.failRound n e order now)) := by
  have htunnel := h.tunnels n e he
  unfold Network.failRound
  split
  · refine h.setEdge (htunnel.dialFailed order now (h.nodes n).parentNeighbor) ?_
    intro m hm
    cases hm
  · refine h.setEdge htunnel ?_
    intro m hm
    cases hm

/-- Whoever is reached by a dial is one level up, and admits one of the level below. -/
theorem Leveled.dial (h : Leveled K w) {n m : ι} {e : Edge ι} (he : w.edges n = some e)
    (haddr : K.listenAddr m = e.tunnel.cloudAddr) (now : Int) :
    Leveled K ((w.setNode m ((w.nodes m).accessHandler (K.conf m) (K.name n) (K.name n)
      (K.listenAddr n) now n)).setEdge n { e with link := .dialing m }) := by
  have htunnel := h.tunnels n e he
  have hdepth : K.depth m + 1 = K.depth n := Clusters.depth_of_above (haddr ▸ htunnel.cloudAddr)
  have hnode := (h.nodes m).accessHandler (K.conf m) (K.name n) (K.name n) now hdepth.symm
    ⟨n, rfl, hdepth.symm⟩
  refine (h.setNode hnode).setEdge htunnel ?_
  rintro m' ⟨⟩
  exact hdepth

/-- An upgrade lets the dialling side go on with the cluster it has dialled. -/
theorem Leveled.upgrade (h : Leveled K w) {n m : ι} {e : Edge ι} {s : Node ι}
    (hs : Leveled K (w.setNode m s)) (he : w.edges n = some e) :
    Leveled K ((w.setNode m s).setEdge n
      (if e.link = .dialing m then { e with link := .accepted m } else e)) := by
  split
  · rename_i hdial
    refine hs.setEdge (h.tunnels n e he) ?_
    rintro m' ⟨⟩
    exact h.links n e m he (by rw [hdial]; rfl)
  · exact hs.setEdge (h.tunnels n e he) fun m' => h.links n e m' he

/-- What is written to a connection is of the levels of its receiver. -/
theorem Leveled.send (h : Leveled K w) {n m : ι} {msg : RouterMessage} {s : Node ι}
    (hs : Leveled K (w.setNode m s)) (ht : .write n msg ∈ (w.nodes m).tasks) :
    Leveled K { w.setNode m s with inFlight := (n, msg) :: w.inFlight } := by
  obtain ⟨hpeer, hmsg⟩ := (h.nodes m).tasks _ ht
  refine ⟨hs.nodes, hs.tunnels, hs.links, ?_⟩
  intro x hx
  rcases List.mem_cons.mp hx with rfl | hx
  · exact Clusters.lists_below hpeer hmsg
  · exact h.inFlight x hx

/-- Every step keeps the levels, when nobody redirects. -/
theorem leveled_step (hredirect : ∀ n, (K.conf n).leaderListenAddr = "") {a : NetAction ι}
    (h : Leveled K w) (hstep : w.step K a = some w') : Leveled K w' := by
  cases a with
  | dial n m now =>
      obtain ⟨e, he, hrest⟩ := Option.bind_eq_some_iff.mp hstep
      simp only [Option.ite_none_right_eq_some, Option.some.injEq] at hrest
      obtain ⟨⟨-, haddr⟩, rfl⟩ := hrest
      exact h.dial he haddr now
  | upgrade m cr n c =>
      obtain ⟨e, he, hrest⟩ := Option.bind_eq_some_iff.mp hstep
      obtain ⟨s, hs, hrest⟩ := Option.bind_eq_some_iff.mp hrest
      simp only [Option.ite_none_right_eq_some, Option.some.injEq] at hrest
      obtain ⟨-, rfl⟩ := hrest
      exact h.upgrade (h.runTask hs).2 he
  | connectedTo n =>
      obtain ⟨e, he, hrest⟩ := Option.bind_eq_some_iff.mp hstep
      split at hrest
      · rename_i m hlink
        obtain rfl := Option.some.inj hrest
        refine h.setEdge ?_ ?_
        · show (if e.started then e.tunnel.reconnected else e.tunnel).AddrsAll (K.Above n)
          split
          · exact (h.tunnels n e he).reconnected
          · exact h.tunnels n e he
        · rintro m' ⟨⟩
          exact h.links n e m he (by rw [hlink]; rfl)
      · cases hrest
  | dialFailed n order now =>
      obtain ⟨e, he, hrest⟩ := Option.bind_eq_some_iff.mp hstep
      split at hrest
      · cases hrest
      · obtain rfl := Option.some.inj hrest
        exact h.failRound he order now
  | redirected n =>
      obtain ⟨e, he, hrest⟩ := Option.bind_eq_some_iff.mp hstep
      split at hrest
      · -- without a leader address there is nowhere to be sent to
        rename_i m hlink
        rw [hredirect m] at hrest
        cases hrest
      · cases hrest
  | disconnected n =>
      obtain ⟨e, he, hrest⟩ := Option.bind_eq_some_iff.mp hstep
      split at hrest
      · obtain rfl := Option.some.inj hrest
        refine h.setEdge (h.tunnels n e he) ?_
        rintro m' ⟨⟩
      · cases hrest
  | node m a =>
      obtain ⟨s, hs, hrest⟩ := Option.bind_eq_some_iff.mp hstep
      simp only [Option.ite_none_right_eq_some, Option.some.injEq] at hrest
      obtain ⟨ha, rfl⟩ := hrest
      exact h.internal ha hs
  | send m n msg c =>
      obtain ⟨s, hs, hrest⟩ := Option.bind_eq_some_iff.mp hstep
      obtain rfl := Option.some.inj hrest
      obtain ⟨ht, hnext⟩ := h.runTask hs
      exact h.send hnext ht
  | deliver n msg =>
      simp only [Network.step, Option.ite_none_right_eq_some, Option.some.injEq] at hstep
      obtain ⟨hmem, rfl⟩ := hstep
      have hnext := h.setNode ((h.nodes n).handleNeighborRoute (h.inFlight (n, msg) hmem))
      exact ⟨hnext.nodes, hnext.tunnels, hnext.links,
        fun x hx => h.inFlight x (List.mem_of_mem_erase hx)⟩

/-! ## No cycles -/

omit [DecidableEq ι] in
variable (w) in
/-- The edge tunnel of `n` is connected to `m`, or `m` has a client that is `n`. -/
def ConnectedTo (n m : ι) : Prop :=
  (∃ e, w.edges n = some e ∧ e.link = .up m) ∨ ∃ k, (w.nodes m).clients.get k = some n

omit [DecidableEq ι] in
theorem Leveled.depth_connectedTo (h : Leveled K w) {n m : ι} (hc : w.ConnectedTo n m) :
    K.depth m + 1 = K.depth n := by
  rcases hc with ⟨e, he, hlink⟩ | ⟨k, hk⟩
  · exact h.links n e m he (by rw [hlink]; rfl)
  · exact ((h.nodes m).clients k n hk).symm

omit [DecidableEq ι] in
/-- Along connections the depth decreases. -/
theorem Leveled.depth_lt (h : Leveled K w) {n m : ι} (hc : Relation.TransGen w.ConnectedTo n m) :
    K.depth m < K.depth n := by
  induction hc with
  | single hstep =>
      have := h.depth_connectedTo hstep
      omega
  | tail _ hstep ih =>
      have := h.depth_connectedTo hstep
      omega

end Network

/-- In every state that the network reaches, the address of every edge tunnel is that of a cluster one
level above its own in the configured tree, and connections form no cycle. -/
theorem failover_acyclic {ι : Type} [DecidableEq ι] (K : Clusters ι)
    (hredirect : ∀ n, (K.conf n).leaderListenAddr = "") {as : List (NetAction ι)} {w : Network ι}
    (hrun : runSteps (Network.step K) (Network.init K) as = some w) :
    (∀ n e, w.edges n = some e →
      ∃ m, K.listenAddr m = e.tunnel.cloudAddr ∧ K.depth m + 1 = K.depth n) ∧
    ∀ n, ¬ Relation.TransGen w.ConnectedTo n n := by
  have h : Network.Leveled K w :=
    runSteps_invariant (I := Network.Leveled K)
      (fun hI hstep => Network.leveled_step hredirect hI hstep) (Network.leveled_init K) hrun
  refine ⟨fun n e he => (h.tunnels n e he).cloudAddr, ?_⟩
  intro n hcycle
  exact absurd (h.depth_lt hcycle) (by omega)

/-- A root `0` with two children `1` and `2`, and a child `3` of `1`. -/
def fourClusters : Clusters (Fin 4) where
  parent := ![none, some 0, some 0, some 1]
  depth := ![0, 1, 1, 2]
  root_depth := by decide
  child_depth := by decide
  root_unique := by decide
  name := !["root", "a", "b", "c"]
  listenAddr := !["10.0.0.1:8272", "10.0.0.2:8272", "10.0.0.3:8272", "10.0.0.4:8272"]
  listenAddr_injective := by
    intro n m
    revert n m
    decide
  conf := ![⟨"root", ""⟩, ⟨"a", ""⟩, ⟨"b", ""⟩, ⟨"c", ""⟩]

/-- The registration of `n` with `m`. -/
def registryOf (n m : Fin 4) : ClusterRegistry :=
  ⟨fourClusters.name n, fourClusters.name n, fourClusters.listenAddr n, 0, fourClusters.name m⟩

/-- The cluster `n` connects to `m` and is announced. -/
def connectTo (n m : Fin 4) : List (NetAction (Fin 4)) :=
  [.dial n m 0,
    .node m (.run plainChoice (.checking { registryOf n m with parentName := "" } n)),
    .upgrade m (registryOf n m) n plainChoice, .connectedTo n,
    .node m (.run plainChoice (.connecting (registryOf n m) n)),
    .node m (.run plainChoice (.connected (registryOf n m) n)),
    .node m (.run plainChoice (.announcing (registryOf n m) n))]

/-- A message that `m` broadcasts reaches `n`. -/
def tell (m n : Fin 4) (msg : RouterMessage) : List (NetAction (Fin 4)) :=
  [.node m (.run plainChoice (.broadcast msg)), .send m n msg plainChoice, .deliver n msg]

/-- The children of the root. -/
def rootChilds : GoMap String String := GoMap.ofList [("a", "10.0.0.2:8272"), ("b", "10.0.0.3:8272")]

/-- The leaf learns the neighbours of its parent, loses its parent and connects to the neighbour. -/
def leafFailsOver : List (NetAction (Fin 4)) :=
  connectTo 1 0 ++ connectTo 2 0 ++ connectTo 3 1 ++ tell 0 1 ⟨some rootChilds, none, none⟩ ++
    tell 1 3 ⟨some (GoMap.ofList [("c", "10.0.0.4:8272")]), some rootChilds, none⟩ ++
    [.disconnected 3, .dialFailed 3 MapOrder.sorted 0] ++ connectTo 3 2

/-- After the failover the leaf is connected to the other cluster one level up. -/
theorem failover_acyclic_leaf :
    ∃ w, runSteps (Network.step fourClusters) (Network.init fourClusters) leafFailsOver = some w ∧
      (w.edges 3).map (fun e => (e.tunnel.cloudAddr, e.link)) = some ("10.0.0.3:8272", .up 2) ∧
      ∀ n, ¬ Relation.TransGen w.ConnectedTo n n := by
  have hrun : (runSteps (Network.step fourClusters) (Network.init fourClusters) leafFailsOver).map
      (fun w => (w.edges 3).map fun e => (e.tunnel.cloudAddr, e.link)) =
      some (some ("10.0.0.3:8272", .up 2)) := by decide
  obtain ⟨w, hw, hend⟩ := Option.map_eq_some_iff.mp hrun
  exact ⟨w, hw, hend, (failover_acyclic fourClusters (by decide) hw).2⟩

end OteStack
