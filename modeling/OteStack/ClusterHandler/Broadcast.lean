/-
# OteStack.ClusterHandler.Broadcast — directed broadcast down a tree of clusters.

A control message carries a selector.  At every hop `selectChild` picks the clusters of the subtree
table that the selector matches, groups them by the child through which they are reached, and sends
each child the message with a new selector: the comma-joined NAMES of its group.  The child reads
those names back as patterns (`receiveMessageFromTunnel`), handles the message when one of them
matches its own name, and passes it on in the same way.

The network is a `Worklist`: a hop is a task, a call of `handleMessage` an output, and hops are
handled in any order.  What a run delivers is characterised exactly (`handled_selected` and
`handled_of_selected`): a cluster below the child `d` handles the message iff some cluster that the
root selected and routes through `d`, read as a pattern, matches its name.  Two facts about names as
patterns carry this through the hops, that they match themselves and that they compose.

* `broadcast_selected_only_iff`: exactly when no selected name matches an unselected cluster in its
  branch, only selected clusters handle the message;
* `broadcast_exactly_once`: every selected cluster handles it exactly once.
-/
import Mathlib.Algebra.BigOperators.Ring.List
import Mathlib.Algebra.Order.BigOperators.Group.List
import OteStack.Lib.Worklist
import OteStack.ClusterMessage
import OteStack.ClusterSelector
import OteStack.ClusterRouter.Router

namespace OteStack

open OteStack.Lib (GoMap MapOrder Worklist runSteps)
open SubTreeRouter

/-! ## `selectChild` -/

/-- The selector of the message matches the name. -/
def ClusterMessage.Picks (re : Regexp) (msg : ClusterMessage) (name : String) : Prop :=
  (newSelector msg.head.clusterSelector).has re name = true

instance (re : Regexp) (msg : ClusterMessage) (name : String) : Decidable (msg.Picks re name) :=
  inferInstanceAs (Decidable (_ = true))

/-- The clusters of the table that the selector of the message matches. -/
def selectedSubTreeClusters (re : Regexp) (it : MapOrder String) (r : SubTreeRouter)
    (msg : ClusterMessage) : List String :=
  (subTreeClusters it r).filter fun c => (newSelector msg.head.clusterSelector).has re c

/-- Go's `selectChild`: for every port with a selected cluster behind it, the message to send. -/
def selectChild (re : Regexp) (it : MapOrder String) (r : SubTreeRouter) (msg : ClusterMessage) :
    GoMap String ClusterMessage :=
  let ports := portsToSubtreeClusters r (selectedSubTreeClusters re it r msg)
  (it.order ports).foldl (fun ret port =>
    match ports.get port with
    | some subtree => ret.set port (msg.withSelector (clustersToSelector subtree))
    | none => ret) ∅

/-- The selected clusters routed through a port. -/
def selectedBehind (re : Regexp) (it : MapOrder String) (r : SubTreeRouter) (msg : ClusterMessage)
    (port : String) : List String :=
  (selectedSubTreeClusters re it r msg).filter fun c => r.get c == some port

theorem mem_selectedBehind {re : Regexp} {it : MapOrder String} {r : SubTreeRouter}
    {msg : ClusterMessage} {port x : String} :
    x ∈ selectedBehind re it r msg port ↔ r.get x = some port ∧ msg.Picks re x := by
  simp only [selectedBehind, selectedSubTreeClusters, List.mem_filter, mem_subTreeClusters,
    beq_iff_eq, ClusterMessage.Picks]
  constructor
  · rintro ⟨⟨-, hhas⟩, hport⟩
    exact ⟨hport, hhas⟩
  · rintro ⟨hport, hhas⟩
    exact ⟨⟨⟨port, hport⟩, hhas⟩, hport⟩

/-- What `selectChild` holds for a port. -/
theorem get_selectChild (re : Regexp) (it : MapOrder String) (r : SubTreeRouter)
    (msg : ClusterMessage) (port : String) :
    (selectChild re it r msg).get port =
      if selectedBehind re it r msg port = [] then none
      else some (msg.withSelector (clustersToSelector (selectedBehind re it r msg port))) := by
  have hgroup := get_portsToSubtreeClusters r (selectedSubTreeClusters re it r msg) port
  unfold selectChild
  rw [it.obs_range _ GoMap.get _ (fun port v =>
    match (portsToSubtreeClusters r (selectedSubTreeClusters re it r msg)).get port with
    | some subtree => some (msg.withSelector (clustersToSelector subtree))
    | none => v)]
  · change _ = if selectedBehind re it r msg port = [] then none
      else some (selectedBehind re it r msg port) at hgroup
    by_cases hnil : selectedBehind re it r msg port = []
    · simp [hgroup, hnil]
    · simp [hgroup, hnil]
  · intro k _ s
    cases (portsToSubtreeClusters r (selectedSubTreeClusters re it r msg)).get k with
    | none => rfl
    | some subtree => exact GoMap.get_set_self s k _
  · intro k _ s a ha
    cases (portsToSubtreeClusters r (selectedSubTreeClusters re it r msg)).get k with
    | none => rfl
    | some subtree => exact GoMap.get_set_of_ne s ha _

/-- What the message to a port selects: the names that a cluster selected behind it matches. -/
theorem picks_withSelector {re : Regexp} {it : MapOrder String} {r : SubTreeRouter}
    (hkeys : ∀ k port, r.get k = some port → IsClusterName k) {msg : ClusterMessage} {port : String}
    (hne : selectedBehind re it r msg port ≠ []) (y : String) :
    (msg.withSelector (clustersToSelector (selectedBehind re it r msg port))).Picks re y ↔
      ∃ x, r.get x = some port ∧ msg.Picks re x ∧ re.matchString x y = true := by
  have hnames : ∀ x ∈ selectedBehind re it r msg port, IsClusterName x := fun x hx =>
    hkeys x port (mem_selectedBehind.mp hx).1
  rw [ClusterMessage.Picks, ClusterMessage.withSelector_selector,
    has_clustersToSelector re hne hnames]
  constructor
  · rintro ⟨x, hx, hxy⟩
    exact ⟨x, (mem_selectedBehind.mp hx).1, (mem_selectedBehind.mp hx).2, hxy⟩
  · rintro ⟨x, hport, hpick, hxy⟩
    exact ⟨x, mem_selectedBehind.mpr ⟨hport, hpick⟩, hxy⟩

/-! ## Trees of clusters -/

/-- A cluster with its subtree table and the clients of its cloud tunnel. -/
inductive Cluster where
  | node (name : String) (subtreeRouter : SubTreeRouter) (clients : List Cluster)

namespace Cluster

/-- The name of the cluster. -/
def name : Cluster → String
  | .node n _ _ => n

/-- Its subtree table. -/
def subtreeRouter : Cluster → SubTreeRouter
  | .node _ r _ => r

/-- The clusters connected to its cloud tunnel. -/
def clients : Cluster → List Cluster
  | .node _ _ cs => cs

mutual

/-- The names in a tree, the root first. -/
def names : Cluster → List String
  | .node n _ cs => n :: namesList cs

/-- The names in a list of trees. -/
def namesList : List Cluster → List String
  | [] => []
  | c :: cs => c.names ++ namesList cs

end

/-- The names of the proper descendants. -/
def descendants (c : Cluster) : List String := namesList c.clients

theorem names_eq (c : Cluster) : c.names = c.name :: c.descendants := by
  cases c with
  | node n r cs => rw [names]; rfl

theorem mem_namesList {cs : List Cluster} {y : String} :
    y ∈ namesList cs ↔ ∃ c ∈ cs, y ∈ c.names := by
  induction cs with
  | nil => simp [namesList]
  | cons c cs ih => simp [namesList, ih]

theorem mem_descendants {c : Cluster} {y : String} : y ∈ c.descendants ↔ ∃ d ∈ c.clients, y ∈ d.names :=
  mem_namesList

theorem count_namesList (y : String) (cs : List Cluster) :
    (namesList cs).count y = (cs.map fun c => c.names.count y).sum := by
  induction cs with
  | nil => rfl
  | cons c cs ih => rw [namesList, List.count_append, ih, List.map_cons, List.sum_cons]

theorem length_namesList (cs : List Cluster) :
    (namesList cs).length = (cs.map fun c => c.names.length).sum := by
  induction cs with
  | nil => rfl
  | cons c cs ih => rw [namesList, List.length_append, ih, List.map_cons, List.sum_cons]

/-- The routing state a broadcast relies on, all the way down: no two clients share a name (they are
the keys of a map), the table of every cluster maps each proper descendant to the client on the path
to it, and whatever is in a table is a cluster name. -/
inductive Wired : Cluster → Prop
  | node {n : String} {r : SubTreeRouter} {cs : List Cluster}
      (distinct : (cs.map Cluster.name).Nodup)
      (routed : ∀ c ∈ cs, ∀ x ∈ c.names, r.get x = some c.name)
      (keys : ∀ k port, r.get k = some port → IsClusterName k)
      (wired : ∀ c ∈ cs, Wired c) : Wired (.node n r cs)

variable {c : Cluster}

theorem Wired.distinct (h : c.Wired) : (c.clients.map Cluster.name).Nodup := by
  cases h with
  | node hd _ _ _ => exact hd

theorem Wired.routed (h : c.Wired) :
    ∀ d ∈ c.clients, ∀ x ∈ d.names, c.subtreeRouter.get x = some d.name := by
  cases h with
  | node _ hr _ _ => exact hr

theorem Wired.keys (h : c.Wired) :
    ∀ k port, c.subtreeRouter.get k = some port → IsClusterName k := by
  cases h with
  | node _ _ hk _ => exact hk

theorem Wired.clients (h : c.Wired) : ∀ d ∈ c.clients, d.Wired := by
  cases h with
  | node _ _ _ hw => exact hw

theorem Wired.isClusterName (h : c.Wired) {y : String} (hy : y ∈ c.descendants) : IsClusterName y := by
  obtain ⟨d, hd, hyd⟩ := mem_descendants.mp hy
  exact h.keys y d.name (h.routed d hd y hyd)

/-- The client the cloud tunnel has under a name (`clients.Load`). -/
def clientNamed (c : Cluster) (name : String) : Option Cluster :=
  c.clients.find? fun d => d.name == name

theorem clientNamed_eq_some {d : Cluster} {name : String} (h : c.clientNamed name = some d) :
    d ∈ c.clients ∧ d.name = name :=
  ⟨List.mem_of_find?_eq_some h, by simpa using List.find?_some h⟩

theorem Wired.clientNamed_self (h : c.Wired) {d : Cluster} (hd : d ∈ c.clients) :
    c.clientNamed d.name = some d := by
  cases hfind : c.clientNamed d.name with
  | none =>
      exact absurd (List.find?_eq_none.mp hfind d hd) (by simp)
  | some d' =>
      obtain ⟨hd', hname⟩ := clientNamed_eq_some hfind
      rw [List.inj_on_of_nodup_map h.distinct hd' hd hname]

end Cluster

/-! ## Hops -/

/-- A step of the message through the network: it arrives at a cluster's edge tunnel, or it waits in
`EdgeToClusterChan` for the cluster's own handler to pass it on. -/
inductive Hop where
  | tunnel (c : Cluster) (msg : ClusterMessage)
  | dispatch (c : Cluster) (msg : ClusterMessage)

/-- The cluster a hop is at. -/
def Hop.cluster : Hop → Cluster
  | .tunnel c _ => c
  | .dispatch c _ => c

/-- Go's `handleMessageFromParent` (and `addClusterController` at the root) for a message that is
passed on: one `Send` for each selected port; a port without a client is dropped by the tunnel.  A
`NeighborRoute` message goes to `UpdateRouter` and is not part of the broadcast. -/
def handleMessageFromParent (re : Regexp) (it : MapOrder String) (c : Cluster)
    (msg : ClusterMessage) : List Hop :=
  if msg.head.command = .neighborRoute then []
  else
    let selectedChild := selectChild re it c.subtreeRouter msg
    (it.order selectedChild).filterMap fun port =>
      (selectedChild.get port).bind fun portMsg =>
        (c.clientNamed port).map fun d => .tunnel d portMsg

/-- The broadcast.  `receiveMessageFromTunnel` puts every message on `EdgeToClusterChan` and calls
`handleMessage` when the selector matches the cluster's own name; the outputs are the names of the
clusters that did. -/
def broadcast (re : Regexp) : Worklist (MapOrder String) Hop String where
  spawn it hop := match hop with
    | .tunnel c msg => [.dispatch c msg]
    | .dispatch c msg => handleMessageFromParent re it c msg
  emit _ hop := match hop with
    | .tunnel c msg => if msg.Picks re c.name then [c.name] else []
    | .dispatch _ _ => []

/-- The broadcast of a message from the root, with nothing handled yet. -/
def broadcastFrom (root : Cluster) (msg : ClusterMessage) : Worklist.Pool Hop String :=
  ⟨[.dispatch root msg], []⟩

section Forward

variable {re : Regexp} {it : MapOrder String} {c : Cluster} {msg : ClusterMessage}

/-- What is passed on goes to the client of a port, with a selector for the clusters selected behind it. -/
theorem exists_port_of_mem {hop : Hop} (h : hop ∈ handleMessageFromParent re it c msg) :
    ∃ port d, c.clientNamed port = some d ∧ selectedBehind re it c.subtreeRouter msg port ≠ [] ∧
      hop = .tunnel d
        (msg.withSelector (clustersToSelector (selectedBehind re it c.subtreeRouter msg port))) := by
  unfold handleMessageFromParent at h
  split at h
  · exact absurd h List.not_mem_nil
  · obtain ⟨port, -, hport⟩ := List.mem_filterMap.mp h
    obtain ⟨m, hm, hd⟩ := Option.bind_eq_some_iff.mp hport
    obtain ⟨d, hfind, rfl⟩ := Option.map_eq_some_iff.mp hd
    rw [get_selectChild, Option.ite_none_left_eq_some, Option.some.injEq] at hm
    obtain ⟨hne, rfl⟩ := hm
    exact ⟨port, d, hfind, hne, rfl⟩

/-- What is passed on: a message to a client, whose selector matches the names that a cluster
selected behind that client matches. -/
theorem of_mem_handleMessageFromParent (hc : c.Wired) {hop : Hop}
    (h : hop ∈ handleMessageFromParent re it c msg) :
    ∃ d ∈ c.clients, ∃ m, hop = .tunnel d m ∧ m.head.command = msg.head.command ∧
      ∀ y, m.Picks re y ↔
        ∃ x, c.subtreeRouter.get x = some d.name ∧ msg.Picks re x ∧ re.matchString x y = true := by
  obtain ⟨port, d, hfind, hne, rfl⟩ := exists_port_of_mem h
  obtain ⟨hmem, rfl⟩ := Cluster.clientNamed_eq_some hfind
  exact ⟨d, hmem, _, rfl, rfl, picks_withSelector hc.keys hne⟩

/-- A client with a selected cluster behind it is sent the message. -/
theorem exists_mem_handleMessageFromParent (it : MapOrder String) (hc : c.Wired)
    (hcmd : msg.head.command ≠ .neighborRoute) {d : Cluster} (hd : d ∈ c.clients) {x : String}
    (hx : c.subtreeRouter.get x = some d.name) (hpick : msg.Picks re x) :
    ∃ m, Hop.tunnel d m ∈ handleMessageFromParent re it c msg ∧
      m.head.command = msg.head.command ∧
      ∀ y, re.matchString x y = true → m.Picks re y := by
  have hbehind : x ∈ selectedBehind re it c.subtreeRouter msg d.name :=
    mem_selectedBehind.mpr ⟨hx, hpick⟩
  have hne := List.ne_nil_of_mem hbehind
  have hget := get_selectChild re it c.subtreeRouter msg d.name
  rw [if_neg hne] at hget
  refine ⟨_, ?_, ?_, fun y hxy => (picks_withSelector hc.keys hne y).mpr ⟨x, hx, hpick, hxy⟩⟩
  · unfold handleMessageFromParent
    rw [if_neg hcmd]
    refine List.mem_filterMap.mpr ⟨d.name, (it.mem_order _ _).mpr (GoMap.mem_keys_of_get hget), ?_⟩
    rw [hget, Option.bind_some, hc.clientNamed_self hd, Option.map_some]
  · rfl

/-- No client is sent the message twice. -/
theorem subperm_handleMessageFromParent (re : Regexp) (it : MapOrder String) (c : Cluster)
    (msg : ClusterMessage) :
    ((handleMessageFromParent re it c msg).map Hop.cluster).Subperm c.clients := by
  unfold handleMessageFromParent
  split
  · exact List.nil_subperm
  · have hport : ∀ port hop, ((selectChild re it c.subtreeRouter msg).get port).bind (fun portMsg =>
        (c.clientNamed port).map fun d => Hop.tunnel d portMsg) = some hop →
        hop.cluster ∈ c.clients ∧ hop.cluster.name = port := by
      intro port hop h
      obtain ⟨m, -, hd⟩ := Option.bind_eq_some_iff.mp h
      obtain ⟨d, hfind, rfl⟩ := Option.map_eq_some_iff.mp hd
      exact Cluster.clientNamed_eq_some hfind
    apply List.subperm_of_subset
    · -- the ports are the keys of a map, and a client is found under its own name
      rw [List.map_filterMap]
      refine (it.nodup _).filterMap ?_
      intro p q d hp hq
      obtain ⟨hop, hhop, rfl⟩ := Option.map_eq_some_iff.mp hp
      obtain ⟨hop', hhop', heq⟩ := Option.map_eq_some_iff.mp hq
      rw [← (hport p hop hhop).2, ← (hport q hop' hhop').2, heq]
    · intro d hd
      obtain ⟨hop, hhop, rfl⟩ := List.mem_map.mp hd
      obtain ⟨port, -, h⟩ := List.mem_filterMap.mp hhop
      exact (hport port hop h).1

/-- A weight summed over what is passed on is at most its sum over the clients. -/
theorem sum_handleMessageFromParent_le (re : Regexp) (it : MapOrder String) (c : Cluster)
    (msg : ClusterMessage) (f : Hop → ℕ) (g : Cluster → ℕ)
    (hfg : ∀ d m, f (.tunnel d m) = g d) :
    ((handleMessageFromParent re it c msg).map f).sum ≤ (c.clients.map g).sum := by
  have hmap : (handleMessageFromParent re it c msg).map f =
      ((handleMessageFromParent re it c msg).map Hop.cluster).map g := by
    rw [List.map_map]
    refine List.map_congr_left fun hop hhop => ?_
    obtain ⟨_, d, -, -, rfl⟩ := exists_port_of_mem hhop
    exact hfg d _
  obtain ⟨l, hperm, hsub⟩ := subperm_handleMessageFromParent re it c msg
  rw [hmap, ← (hperm.map g).sum_eq]
  exact (hsub.map g).sum_le_sum (fun _ _ => Nat.zero_le _)

end Forward

/-! ## What a run delivers -/

section Delivery

variable (re : Regexp) {root : Cluster} {msg : ClusterMessage}

/-- A cluster that the root selected and routes through the client `d`. -/
def SelectedThrough (root : Cluster) (msg : ClusterMessage) (d : Cluster) (x : String) : Prop :=
  root.subtreeRouter.get x = some d.name ∧ msg.Picks re x

/-- A hop in the branch of the root's client `d` whose message selects no more than the names
selected through `d` match. -/
def InBranch (root : Cluster) (msg : ClusterMessage) (d : Cluster) : Hop → Prop
  | .tunnel c m => c.Wired ∧ (∀ y ∈ c.names, y ∈ d.names ∧ IsClusterName y) ∧
      ∀ y, IsClusterName y → m.Picks re y →
        ∃ x, SelectedThrough re root msg d x ∧ re.matchString x y = true
  | .dispatch c m => c.Wired ∧ (∀ y ∈ c.descendants, y ∈ d.names ∧ IsClusterName y) ∧
      ∀ y, IsClusterName y → m.Picks re y →
        ∃ x, SelectedThrough re root msg d x ∧ re.matchString x y = true

/-- A hop keeps a message in its branch; the names it selects compose with those selected before. -/
theorem inBranch_forward {it : MapOrder String} {c d : Cluster} {m : ClusterMessage}
    (hroot : root.Wired) (h : InBranch re root msg d (.dispatch c m)) :
    ∀ hop ∈ handleMessageFromParent re it c m, InBranch re root msg d hop := by
  intro hop hhop
  obtain ⟨hc, hnames, hsel⟩ := h
  obtain ⟨e, he, m', rfl, -, hpicks⟩ := of_mem_handleMessageFromParent hc hhop
  refine ⟨hc.clients e he, fun y hy => hnames y (Cluster.mem_descendants.mpr ⟨e, he, hy⟩), ?_⟩
  intro y hy hpick
  obtain ⟨z, hz, hzpick, hzy⟩ := (hpicks y).mp hpick
  have hzname := hc.keys z e.name hz
  obtain ⟨x, hx, hxz⟩ := hsel z hzname hzpick
  exact ⟨x, hx, matchString_trans re (hroot.keys x d.name hx.1) hzname hy hxz hzy⟩

/-- Whatever handles the message lies in a branch of the root, and a name selected through that
branch matches it. -/
theorem handled_selected (hroot : root.Wired) {as : List (MapOrder String × ℕ)}
    {s : Worklist.Pool Hop String}
    (hrun : runSteps (broadcast re).step (broadcastFrom root msg) as = some s) :
    ∀ y ∈ s.log, ∃ d ∈ root.clients, y ∈ d.names ∧
      ∃ x, SelectedThrough re root msg d x ∧ re.matchString x y = true := by
  refine ((broadcast re).all_of_handle
    (P := fun hop => hop = .dispatch root msg ∨ ∃ d ∈ root.clients, InBranch re root msg d hop)
    ?_ hrun ⟨by simp [broadcastFrom], by simp [broadcastFrom]⟩).1
  rintro it hop (rfl | ⟨d, hd, hin⟩)
  · -- the root itself: a message enters a branch
    refine ⟨by simp [broadcast], fun hop hhop => Or.inr ?_⟩
    obtain ⟨d, hd, m, rfl, -, hpicks⟩ := of_mem_handleMessageFromParent hroot hhop
    refine ⟨d, hd, hroot.clients d hd, fun y hy => ⟨hy, ?_⟩, ?_⟩
    · exact hroot.keys y d.name (hroot.routed d hd y hy)
    · intro y _ hpick
      obtain ⟨x, hx, hxpick, hxy⟩ := (hpicks y).mp hpick
      exact ⟨x, ⟨hx, hxpick⟩, hxy⟩
  · cases hop with
    | tunnel c m =>
        obtain ⟨hc, hnames, hsel⟩ := hin
        have hown : c.name ∈ c.names := by simp [Cluster.names_eq]
        refine ⟨?_, ?_⟩
        · intro y hy
          simp only [broadcast, List.mem_ite_nil_right, List.mem_singleton] at hy
          obtain ⟨hpick, rfl⟩ := hy
          exact ⟨d, hd, (hnames _ hown).1, hsel _ (hnames _ hown).2 hpick⟩
        · intro hop hhop
          obtain rfl : hop = .dispatch c m := by simpa [broadcast] using hhop
          refine Or.inr ⟨d, hd, hc, fun y hy => hnames y ?_, hsel⟩
          rw [Cluster.names_eq]
          exact List.mem_cons_of_mem _ hy
    | dispatch c m =>
        exact ⟨by simp [broadcast],
          fun hop hhop => Or.inr ⟨d, hd, inBranch_forward re hroot hin hop hhop⟩⟩

/-- The message on its way to the cluster `y`. -/
def OnTheWay (y : String) : Hop → Prop
  | .tunnel c m => c.Wired ∧ m.head.command ≠ .neighborRoute ∧ y ∈ c.names ∧ m.Picks re y
  | .dispatch c m => c.Wired ∧ m.head.command ≠ .neighborRoute ∧ y ∈ c.descendants ∧ m.Picks re y

/-- A message on its way to a cluster is handled there or stays on its way. -/
theorem onTheWay_kept (y : String) (it : MapOrder String) (hop : Hop) (h : OnTheWay re y hop) :
    (∃ o ∈ (broadcast re).emit it hop, o = y) ∨
      ∃ hop' ∈ (broadcast re).spawn it hop, OnTheWay re y hop' := by
  cases hop with
  | tunnel c m =>
      obtain ⟨hc, hcmd, hy, hpick⟩ := h
      rw [Cluster.names_eq] at hy
      rcases List.mem_cons.mp hy with rfl | hy
      · exact Or.inl ⟨c.name, by simp [broadcast, hpick], rfl⟩
      · exact Or.inr ⟨.dispatch c m, by simp [broadcast], hc, hcmd, hy, hpick⟩
  | dispatch c m =>
      obtain ⟨hc, hcmd, hy, hpick⟩ := h
      obtain ⟨d, hd, hyd⟩ := Cluster.mem_descendants.mp hy
      obtain ⟨m', hm', hcmd', hpicks⟩ := exists_mem_handleMessageFromParent it hc hcmd hd
        (hc.routed d hd y hyd) hpick
      refine Or.inr ⟨.tunnel d m', hm', hc.clients d hd, by rwa [hcmd'], hyd, ?_⟩
      exact hpicks y (matchString_self re (hc.isClusterName hy))

/-- A cluster that a name selected through its branch matches is not missed: once nothing is in
flight, it has handled the message. -/
theorem handled_of_selected (hroot : root.Wired) (hcmd : msg.head.command ≠ .neighborRoute)
    {d : Cluster} (hd : d ∈ root.clients) {x y : String} (hx : SelectedThrough re root msg d x)
    (hy : y ∈ d.names) (hxy : re.matchString x y = true) {as : List (MapOrder String × ℕ)}
    {s : Worklist.Pool Hop String}
    (hrun : runSteps (broadcast re).step (broadcastFrom root msg) as = some s)
    (hdone : s.tasks = []) : y ∈ s.log := by
  have hkept := (broadcast re).kept_of_handle
    (P := fun hop => hop = .dispatch root msg ∨ OnTheWay re y hop) (Q := fun o => o = y) ?_ hrun
    (Or.inr ⟨_, by simp [broadcastFrom], Or.inl rfl⟩)
  · rcases hkept with ⟨o, ho, rfl⟩ | ⟨hop, hhop, -⟩
    · exact ho
    · rw [hdone] at hhop
      exact absurd hhop List.not_mem_nil
  · rintro it hop (rfl | hway)
    · obtain ⟨m, hm, hcmd', hpicks⟩ :=
        exists_mem_handleMessageFromParent it hroot hcmd hd hx.1 hx.2
      exact Or.inr ⟨_, hm, Or.inr ⟨hroot.clients d hd, by rwa [hcmd'], hy, hpicks y hxy⟩⟩
    · rcases onTheWay_kept re y it hop hway with hemit | ⟨hop', hhop', hway'⟩
      · exact Or.inl hemit
      · exact Or.inr ⟨hop', hhop', Or.inr hway'⟩

/-! ## Runs are short and never stuck -/

/-- How many hops a hop can still cause, itself included. -/
def Hop.rank : Hop → ℕ
  | .tunnel c _ => 2 * c.names.length
  | .dispatch c _ => 2 * c.descendants.length + 1

theorem rank_decreases (it : MapOrder String) (hop : Hop) :
    (((broadcast re).spawn it hop).map Hop.rank).sum < hop.rank := by
  cases hop with
  | tunnel c m =>
      simp only [broadcast, List.map_cons, List.map_nil, List.sum_cons, List.sum_nil, Hop.rank,
        Cluster.names_eq, List.length_cons]
      omega
  | dispatch c m =>
      have hle := sum_handleMessageFromParent_le re it c m Hop.rank (fun d => 2 * d.names.length)
        (fun _ _ => rfl)
      have hlen : (c.clients.map fun d => 2 * d.names.length).sum = 2 * c.descendants.length := by
        rw [Cluster.descendants, Cluster.length_namesList, List.sum_map_mul_left]
      show ((handleMessageFromParent re it c m).map Hop.rank).sum < 2 * c.descendants.length + 1
      omega

/-- How often a cluster named `y` can still handle the message. -/
def Hop.chances (y : String) : Hop → ℕ
  | .tunnel c _ => c.names.count y
  | .dispatch c _ => c.descendants.count y

theorem chances_suffice (y : String) (it : MapOrder String) (hop : Hop) :
    (((broadcast re).emit it hop).map fun o => if o = y then 1 else 0).sum +
      (((broadcast re).spawn it hop).map (Hop.chances y)).sum ≤ hop.chances y := by
  cases hop with
  | tunnel c m =>
      simp only [broadcast, Hop.chances, Cluster.names_eq, List.count_cons, List.map_cons,
        List.map_nil, List.sum_cons, List.sum_nil, beq_iff_eq]
      split
      · simp only [List.map_cons, List.map_nil, List.sum_cons, List.sum_nil]
        omega
      · simp
  | dispatch c m =>
      have hle := sum_handleMessageFromParent_le re it c m (Hop.chances y) (fun d => d.names.count y)
        (fun _ _ => rfl)
      rw [← Cluster.count_namesList] at hle
      simpa [broadcast, Hop.chances, Cluster.descendants] using hle

end Delivery

/-! ## Only the selected clusters -/

/-- No name the root selects matches, as a pattern, an unselected cluster in the branch it is routed
through. -/
def SelectionClosed (re : Regexp) (root : Cluster) (msg : ClusterMessage) : Prop :=
  ∀ d ∈ root.clients, ∀ x, root.subtreeRouter.get x = some d.name → msg.Picks re x →
    ∀ y ∈ d.names, re.matchString x y = true → msg.Picks re y

/-- In every run only clusters that the selector matched at the root handle the message, if and only
if no selected name matches, as a pattern, an unselected cluster of its branch. -/
theorem broadcast_selected_only_iff (re : Regexp) {root : Cluster} (hroot : root.Wired)
    (msg : ClusterMessage) (hmsg : msg.IsControl) :
    (∀ as s, runSteps (broadcast re).step (broadcastFrom root msg) as = some s →
      ∀ y ∈ s.log, msg.Picks re y) ↔ SelectionClosed re root msg := by
  have hcmd : msg.head.command ≠ .neighborRoute := by
    rcases hmsg with h | h <;> simp [h]
  constructor
  · intro honly d hd x hx hpick y hy hxy
    have : Inhabited (MapOrder String) := ⟨MapOrder.sorted⟩
    obtain ⟨as, s, hrun, hdone⟩ :=
      (broadcast re).exists_complete (rank_decreases re) (broadcastFrom root msg)
    exact honly as s hrun y (handled_of_selected re hroot hcmd hd ⟨hx, hpick⟩ hy hxy hrun hdone)
  · intro hclosed as s hrun y hy
    obtain ⟨d, hd, hyd, x, hx, hxy⟩ := handled_selected re hroot hrun y hy
    exact hclosed d hd x hx.1 hx.2 y hyd hxy

/-- A control message with the given selector. -/
def controlMessage (selector : String) : ClusterMessage :=
  ⟨⟨"task", .controlReq, selector, "", ""⟩, []⟩

/-- A root with one child `edge`, which has the children `c1` and `c10`. -/
def edgeTree : Cluster :=
  .node "root" (GoMap.ofList [("edge", "edge"), ("c1", "edge"), ("c10", "edge")])
    [.node "edge" (GoMap.ofList [("c1", "c1"), ("c10", "c10")])
      [.node "c1" ∅ [], .node "c10" ∅ []]]

theorem wired_leaf (n : String) : (Cluster.node n ∅ []).Wired :=
  .node (by simp) (by simp) (by simp) (by simp)

theorem isClusterName_of_forall_keys {r : SubTreeRouter} (h : ∀ k ∈ r.keys, IsClusterName k) :
    ∀ k port, r.get k = some port → IsClusterName k :=
  fun k _ hk => h k (GoMap.mem_keys_of_get hk)

theorem wired_edgeTree : edgeTree.Wired := by
  have hedge : (Cluster.node "edge" (GoMap.ofList [("c1", "c1"), ("c10", "c10")])
      [.node "c1" ∅ [], .node "c10" ∅ []]).Wired := by
    refine .node (by decide) ?_ (isClusterName_of_forall_keys (by decide)) ?_
    · intro c hc
      rcases List.mem_pair.mp hc with rfl | rfl
      · decide
      · decide
    · intro c hc
      rcases List.mem_pair.mp hc with rfl | rfl
      · exact wired_leaf "c1"
      · exact wired_leaf "c10"
  refine .node (by decide) ?_ (isClusterName_of_forall_keys (by decide)) ?_
  · intro c hc
    obtain rfl := List.mem_singleton.mp hc
    decide
  · intro c hc
    obtain rfl := List.mem_singleton.mp hc
    exact hedge

/-- The selector `^c1$` picks `c1` alone at the root.  The root sends `edge` the selector `c1`, which
`edge` reads as a pattern that `c10` matches too. -/
theorem broadcast_reaches_unselected :
    edgeTree.Wired ∧ (controlMessage "^c1$").IsControl ∧
      (runSteps (broadcast Regexp.anchored).step (broadcastFrom edgeTree (controlMessage "^c1$"))
        (List.replicate 5 (MapOrder.sorted, 0))).map Worklist.Pool.log = some ["c1", "c10"] ∧
      ¬ (controlMessage "^c1$").Picks Regexp.anchored "c10" := by
  exact ⟨wired_edgeTree, by decide, by decide, by decide⟩

/-- The selector `^edge$` is safe in the same tree: the name `edge` matches nothing else. -/
theorem broadcast_selected_only_edge :
    SelectionClosed Regexp.anchored edgeTree (controlMessage "^edge$") ∧
      ∀ as s, runSteps (broadcast Regexp.anchored).step
          (broadcastFrom edgeTree (controlMessage "^edge$")) as = some s →
        ∀ y ∈ s.log, (controlMessage "^edge$").Picks Regexp.anchored y := by
  have hclosed : SelectionClosed Regexp.anchored edgeTree (controlMessage "^edge$") := by
    have hall : ∀ x ∈ edgeTree.subtreeRouter.keys, (controlMessage "^edge$").Picks Regexp.anchored x →
        ∀ y ∈ edgeTree.names, Regexp.anchored.matchString x y = true →
          (controlMessage "^edge$").Picks Regexp.anchored y := by decide
    intro d hd x hx hpick y hy
    refine hall x (GoMap.mem_keys_of_get hx) hpick y ?_
    rw [Cluster.names_eq]
    exact List.mem_cons_of_mem _ (Cluster.mem_descendants.mpr ⟨d, hd, hy⟩)
  exact ⟨hclosed,
    (broadcast_selected_only_iff Regexp.anchored wired_edgeTree _ (by decide)).mpr hclosed⟩

/-! ## Every selected cluster, once -/

theorem sum_indicator_eq_count (y : String) (l : List String) :
    (l.map fun o => if o = y then 1 else 0).sum = l.count y := by
  induction l with
  | nil => rfl
  | cons o l ih => rw [List.map_cons, List.sum_cons, ih, List.count_cons, add_comm]; simp

/-- In a tree of clusters with distinct names no run handles a message twice at a cluster; every run
is at most twice as long as the tree is large, and can be continued until nothing is in flight; and
then every cluster below the root that the selector matched there has handled the message once. -/
theorem broadcast_exactly_once (re : Regexp) {root : Cluster} (hroot : root.Wired)
    (hnodup : root.names.Nodup) (msg : ClusterMessage) (hmsg : msg.IsControl) {as} {s}
    (hrun : runSteps (broadcast re).step (broadcastFrom root msg) as = some s) :
    (∀ y, s.log.count y ≤ 1) ∧
      as.length ≤ 2 * root.names.length ∧
      (∃ bs s', runSteps (broadcast re).step s bs = some s' ∧ s'.tasks = []) ∧
      (s.tasks = [] → ∀ y ∈ root.descendants, msg.Picks re y → s.log.count y = 1) := by
  have hcmd : msg.head.command ≠ .neighborRoute := by
    rcases hmsg with h | h <;> simp [h]
  have honce : ∀ y, s.log.count y ≤ 1 := by
    -- at the start a cluster has as many chances to handle the message as its name occurs below the root
    intro y
    have hle := (broadcast re).emits_le_of_potential (chances_suffice re y) hrun
    have hbelow : root.descendants.count y ≤ 1 := by
      rw [Cluster.names_eq, List.nodup_cons] at hnodup
      exact List.nodup_iff_count_le_one.mp hnodup.2 y
    simp only [broadcastFrom, sum_indicator_eq_count, List.map_cons, List.map_nil, List.sum_cons,
      List.sum_nil, Hop.chances] at hle
    omega
  refine ⟨honce, ?_, ?_, ?_⟩
  · have hlen := (broadcast re).length_le_of_rank (rank_decreases re) hrun
    simp only [broadcastFrom, List.map_cons, List.map_nil, List.sum_cons, List.sum_nil,
      Hop.rank] at hlen
    rw [Cluster.names_eq, List.length_cons]
    omega
  · have : Inhabited (MapOrder String) := ⟨MapOrder.sorted⟩
    exact (broadcast re).exists_complete (rank_decreases re) s
  · intro hdone y hy hpick
    obtain ⟨d, hd, hyd⟩ := Cluster.mem_descendants.mp hy
    have hhandled : y ∈ s.log := handled_of_selected re hroot hcmd hd
      ⟨hroot.routed d hd y hyd, hpick⟩ hyd (matchString_self re (hroot.isClusterName hy)) hrun hdone
    have hpos := List.count_pos_iff.mpr hhandled
    have hle := honce y
    omega

/-- A whole broadcast of `c1,edge` in the tree above. -/
theorem broadcast_exactly_once_edgeTree :
    ∃ as s, runSteps (broadcast Regexp.anchored).step
        (broadcastFrom edgeTree (controlMessage "c1, edge")) as = some s ∧ s.tasks = [] ∧
      s.log.count "edge" = 1 ∧ s.log.count "c1" = 1 := by
  have : Inhabited (MapOrder String) := ⟨MapOrder.sorted⟩
  obtain ⟨as, s, hrun, hdone⟩ := (broadcast Regexp.anchored).exists_complete
    (rank_decreases Regexp.anchored) (broadcastFrom edgeTree (controlMessage "c1, edge"))
  have hall := (broadcast_exactly_once Regexp.anchored wired_edgeTree (by decide)
    (controlMessage "c1, edge") (by decide) hrun).2.2.2 hdone
  exact ⟨as, s, hrun, hdone, hall "edge" (by decide) (by decide), hall "c1" (by decide) (by decide)⟩

end OteStack
