/-
# OteStack.ClusterRouter.Router — the routing tables of one cluster controller.

`pkg/clusterrouter/router.go`.  A controller keeps the listen addresses of its children, of its
siblings and of its parent's siblings, and for every cluster below it the child ("port") through
which that cluster is reached.

Every function of the subtree table gets one lemma that says what the table answers afterwards
(`get_afterAddRoute`, `get_delRoute`, `get_updateRouteToSubtree`, `get_portsToSubtreeClusters`); the
order in which Go ranges over a map does not occur on the right-hand side of any of them.
-/
import OteStack.Lib.GoMap

namespace OteStack

open OteStack.Lib (GoMap MapOrder foldl_obs_of_notMem foldl_obs_slot)

/-! ## The tables -/

/-- The subtree table: from a cluster below to the child through which it is reached. -/
abbrev SubTreeRouter := GoMap String String

/-- The router information of a cluster.  `Neighbor` and `ParentNeighbor` are nil maps until the
parent sends them. -/
structure ClusterRouter where
  childs : GoMap String String
  neighbor : Option (GoMap String String)
  parentNeighbor : Option (GoMap String String)
  subtreeRouter : SubTreeRouter
  deriving DecidableEq

/-- The router a controller starts with. -/
def defaultClusterRouter : ClusterRouter := ⟨∅, none, none, ∅⟩

/-- The error of `AddRoute` for a name that is routed elsewhere. -/
inductive RouteError where
  | duplicatedName
  deriving DecidableEq, Repr

namespace SubTreeRouter

/-! ## Adding and deleting routes -/

/-- Go's `AddRoute`: on an error the table is as it was. -/
def addRoute (r : SubTreeRouter) (dest port : String) : Except RouteError SubTreeRouter :=
  match r.get dest with
  | none => .ok (r.set dest port)
  | some oldPort => if port ≠ oldPort then .error .duplicatedName else .ok r

/-- The table after `AddRoute`, refused or not. -/
def afterAddRoute (r : SubTreeRouter) (dest port : String) : SubTreeRouter :=
  match addRoute r dest port with
  | .ok r' => r'
  | .error _ => r

/-- One round of the loop of `DelRoute` over the table. -/
def dropIfPort (port : String) (r : SubTreeRouter) (key : String) : SubTreeRouter :=
  if r.get key = some port then r.delete key else r

/-- The first branch of `DelRoute`. -/
def delRouteTo (r : SubTreeRouter) (dest port : String) : SubTreeRouter :=
  match r.get dest with
  | some oldPort => if oldPort = port then r.delete dest else r
  | none => r

/-- Go's `DelRoute`.  When the target is the port itself, the second branch runs whatever the first
one did. -/
def delRoute (it : MapOrder String) (r : SubTreeRouter) (dest port : String) : SubTreeRouter :=
  let r₁ := delRouteTo r dest port
  if dest = port then
    let r₂ := r₁.delete dest
    (it.order r₂).foldl (dropIfPort port) r₂
  else r₁

/-- Go's `HasRoute`. -/
def hasRoute (r : SubTreeRouter) (dest port : String) : Bool := r.get dest == some port

theorem get_afterAddRoute (r : SubTreeRouter) (dest port k : String) :
    (afterAddRoute r dest port).get k =
      if k = dest ∧ r.get dest = none then some port else r.get k := by
  unfold afterAddRoute addRoute
  cases hdest : r.get dest with
  | none => simp [GoMap.get_set]
  | some oldPort =>
      by_cases hp : port = oldPort
      · simp [hp]
      · simp [hp]

theorem get_dropIfPort_self (port : String) (r : SubTreeRouter) (k : String) :
    (dropIfPort port r k).get k = if r.get k = some port then none else r.get k := by
  unfold dropIfPort
  by_cases h : r.get k = some port
  · simp [h]
  · simp [h]

theorem get_dropIfPort_of_ne {port : String} {r : SubTreeRouter} {k k' : String} (h : k' ≠ k) :
    (dropIfPort port r k).get k' = r.get k' := by
  unfold dropIfPort
  split
  · exact GoMap.get_delete_of_ne r h
  · rfl

/-- The loop of `DelRoute` drops every route through the port, in whatever order it ranges. -/
theorem get_dropPort (it : MapOrder String) (r : SubTreeRouter) (port k : String) :
    ((it.order r).foldl (dropIfPort port) r).get k =
      if r.get k = some port then none else r.get k := by
  rw [it.obs_range r GoMap.get (dropIfPort port) (fun _ v => if v = some port then none else v)
    (fun k _ s => get_dropIfPort_self port s k) (fun _ _ _ _ h => get_dropIfPort_of_ne h)]
  by_cases hk : r.get k = none
  · simp [hk]
  · rw [if_neg hk]

theorem get_delRouteTo (r : SubTreeRouter) (dest port k : String) :
    (delRouteTo r dest port).get k =
      if k = dest ∧ r.get dest = some port then none else r.get k := by
  unfold delRouteTo
  cases hdest : r.get dest with
  | none => simp
  | some oldPort =>
      by_cases hp : oldPort = port
      · simp [hp, GoMap.get_delete]
      · simp [hp]

/-- What the table answers after `DelRoute`. -/
theorem get_delRoute (it : MapOrder String) (r : SubTreeRouter) (dest port k : String) :
    (delRoute it r dest port).get k =
      if (k = dest ∧ (dest = port ∨ r.get dest = some port)) ∨ (dest = port ∧ r.get k = some port)
      then none else r.get k := by
  unfold delRoute
  by_cases hdp : dest = port
  · subst hdp
    simp only [if_true, get_dropPort, GoMap.get_delete, get_delRouteTo]
    by_cases hk : k = dest
    · simp [hk]
    · simp [hk]
  · simp [hdp, get_delRouteTo]

/-! ## Reading the table -/

/-- Go's `SubTreeClusters`. -/
def subTreeClusters (it : MapOrder String) (r : SubTreeRouter) : List String := it.order r

/-- Go's `SubTreeOfPort`. -/
def subTreeOfPort (it : MapOrder String) (r : SubTreeRouter) (port : String) : List String :=
  (it.order r).filter fun dest => r.get dest == some port && dest != port

/-- One round of the loop of `PortsToSubtreeClusters`. -/
def groupByPort (r : SubTreeRouter) (ret : GoMap String (List String)) (c : String) :
    GoMap String (List String) :=
  match r.get c with
  | none => ret
  | some port =>
      match ret.get port with
      | some subs => ret.set port (subs ++ [c])
      | none => ret.set port [c]

/-- Go's `PortsToSubtreeClusters`. -/
def portsToSubtreeClusters (r : SubTreeRouter) (clusters : List String) :
    GoMap String (List String) :=
  clusters.foldl (groupByPort r) ∅

theorem mem_subTreeClusters {it : MapOrder String} {r : SubTreeRouter} {k : String} :
    k ∈ subTreeClusters it r ↔ ∃ port, r.get k = some port :=
  (it.mem_order r k).trans GoMap.mem_keys

theorem mem_subTreeOfPort {it : MapOrder String} {r : SubTreeRouter} {port k : String} :
    k ∈ subTreeOfPort it r port ↔ r.get k = some port ∧ k ≠ port := by
  simp only [subTreeOfPort, List.mem_filter, it.mem_order, Bool.and_eq_true, beq_iff_eq, bne_iff_ne]
  constructor
  · rintro ⟨-, h⟩
    exact h
  · intro h
    exact ⟨GoMap.mem_keys_of_get h.1, h⟩

theorem get_groupByPort (r : SubTreeRouter) (ret : GoMap String (List String)) (c port : String) :
    (groupByPort r ret c).get port =
      if r.get c = some port then some ((ret.get port).getD [] ++ [c]) else ret.get port := by
  unfold groupByPort
  cases hc : r.get c with
  | none => simp
  | some q =>
      dsimp only
      by_cases hq : q = port
      · subst hq
        cases hg : ret.get q with
        | none => simp
        | some subs => simp
      · have hne : port ≠ q := fun h => hq h.symm
        cases hg : ret.get q with
        | none => simp [hq, GoMap.get_set_of_ne _ hne]
        | some subs => simp [hq, GoMap.get_set_of_ne _ hne]

/-- The group of a port is the list of the clusters routed through it, in the order given; a port
without any has no group. -/
theorem get_portsToSubtreeClusters (r : SubTreeRouter) (clusters : List String) (port : String) :
    (portsToSubtreeClusters r clusters).get port =
      if clusters.filter (fun c => r.get c == some port) = [] then none
      else some (clusters.filter fun c => r.get c == some port) := by
  -- induction on the clusters taken so far, the last one first
  induction clusters using List.reverseRecOn with
  | nil => simp [portsToSubtreeClusters]
  | append_singleton l c ih =>
      rw [portsToSubtreeClusters, List.foldl_append, List.foldl_cons, List.foldl_nil,
        get_groupByPort]
      rw [portsToSubtreeClusters] at ih
      rw [ih, List.filter_append]
      by_cases hc : r.get c = some port
      · by_cases hnil : l.filter (fun c => r.get c == some port) = []
        · simp [hc, hnil]
        · simp only [hnil, if_false, Option.getD_some]
          simp [hc]
      · simp [hc]

/-! ## The report of a child's subtree -/

/-- Go's `updateRouteToSubtree`, for a report of the child `clusterName`.  `none` is a body that does
not decode to a map, which is refused. -/
def updateRouteToSubtree (it : MapOrder String) (r : SubTreeRouter) (clusterName : String)
    (subtrees : Option SubTreeRouter) : SubTreeRouter :=
  match subtrees with
  | none => r
  | some subtrees =>
      let r₁ := (it.order subtrees).foldl (fun r dest => afterAddRoute r dest clusterName) r
      let childsOfChild := subTreeOfPort it r₁ clusterName
      childsOfChild.foldl (fun r c =>
        if subtrees.get c = none then delRoute it r c clusterName else r) r₁

/-- The first loop of a report: every reported cluster without a route gets one. -/
theorem get_addLoop (it : MapOrder String) (r subtrees : SubTreeRouter) (p k : String) :
    ((it.order subtrees).foldl (fun r dest => afterAddRoute r dest p) r).get k =
      if r.get k = none ∧ subtrees.get k ≠ none then some p else r.get k := by
  rw [it.obs_range subtrees GoMap.get (fun r dest => afterAddRoute r dest p)
    (fun _ v => if v = none then some p else v)]
  · cases hs : subtrees.get k with
    | none => simp
    | some v => simp
  · intro k _ s
    simp [get_afterAddRoute]
  · intro k _ s a ha
    rw [get_afterAddRoute, if_neg fun h => ha h.1]

/-- The second loop of a report: the routes through the child that it did not report go.  The target
is never the child itself, so `DelRoute` stays in its first branch. -/
theorem get_delLoop (listing deleting : MapOrder String) (r subtrees : SubTreeRouter) (p k : String) :
    ((subTreeOfPort listing r p).foldl (fun r c =>
        if subtrees.get c = none then delRoute deleting r c p else r) r).get k =
      if r.get k = some p ∧ k ≠ p ∧ subtrees.get k = none then none else r.get k := by
  have hother : ∀ i ∈ subTreeOfPort listing r p, ∀ (s : SubTreeRouter) (a : String), a ≠ id i →
      (if subtrees.get i = none then delRoute deleting s i p else s).get a = s.get a := by
    -- a round concerns its own name only
    intro i hi s a ha
    have hip : i ≠ p := (mem_subTreeOfPort.mp hi).2
    have hai : a ≠ i := ha
    split
    · simp [get_delRoute, hai, hip]
    · rfl
  by_cases hk : k ∈ subTreeOfPort listing r p
  · obtain ⟨hkp, hne⟩ := mem_subTreeOfPort.mp hk
    have hslot := foldl_obs_slot GoMap.get id
      (fun (r : SubTreeRouter) c => if subtrees.get c = none then delRoute deleting r c p else r)
      (fun i v => if subtrees.get i = none ∧ v = some p then none else v)
      (by rw [List.map_id]; exact (listing.nodup r).filter _)
      (fun i hi s => by
        have hip : i ≠ p := (mem_subTreeOfPort.mp hi).2
        by_cases hs : subtrees.get i = none
        · simp [hs, get_delRoute, hip]
        · simp [hs]) hother k hk r
    simpa [hkp, hne] using hslot
  · have hkeep := foldl_obs_of_notMem GoMap.get id
      (fun (r : SubTreeRouter) c => if subtrees.get c = none then delRoute deleting r c p else r)
      hother (by simpa using hk) r
    have hnot : ¬(r.get k = some p ∧ k ≠ p) := fun h => hk (mem_subTreeOfPort.mpr h)
    rw [hkeep, if_neg fun h => hnot ⟨h.1, h.2.1⟩]

/-- A report handled with an order of its own for every `range`: the one over the report, the one of
`SubTreeOfPort` over the table and the one inside `DelRoute`. -/
def reportInOrders (adding listing deleting : MapOrder String) (r : SubTreeRouter)
    (clusterName : String) (subtrees : SubTreeRouter) : SubTreeRouter :=
  let r₁ := (adding.order subtrees).foldl (fun r dest => afterAddRoute r dest clusterName) r
  (subTreeOfPort listing r₁ clusterName).foldl (fun r c =>
    if subtrees.get c = none then delRoute deleting r c clusterName else r) r₁

theorem updateRouteToSubtree_some (it : MapOrder String) (r : SubTreeRouter) (p : String)
    (subtrees : SubTreeRouter) :
    updateRouteToSubtree it r p (some subtrees) = reportInOrders it it it r p subtrees := rfl

/-- What the table answers after the report of a child: an entry of another port stays, a free name
that was reported goes to the child, and of the child's own routes those remain that were reported
and the one to the child itself. -/
theorem get_reportInOrders (adding listing deleting : MapOrder String) (r subtrees : SubTreeRouter)
    (p k : String) :
    (reportInOrders adding listing deleting r p subtrees).get k =
      match r.get k with
      | none => if subtrees.get k = none then none else some p
      | some q => if q = p ∧ k ≠ p ∧ subtrees.get k = none then none else some q := by
  simp only [reportInOrders, get_delLoop, get_addLoop]
  cases hr : r.get k with
  | none =>
      by_cases hs : subtrees.get k = none
      · simp [hs]
      · simp [hs]
  | some q => simp

/-- The same for a report handled in one order. -/
theorem get_updateRouteToSubtree (it : MapOrder String) (r subtrees : SubTreeRouter)
    (p k : String) :
    (updateRouteToSubtree it r p (some subtrees)).get k =
      match r.get k with
      | none => if subtrees.get k = none then none else some p
      | some q => if q = p ∧ k ≠ p ∧ subtrees.get k = none then none else some q :=
  get_reportInOrders it it it r subtrees p k

end SubTreeRouter

/-! ## Children and neighbours -/

/-- Every address of a table that may be nil has the property. -/
def TableOf (ok : String → Prop) (table : Option (GoMap String String)) : Prop :=
  ∀ m, table = some m → ∀ k addr, m.get k = some addr → ok addr

/-- The body of a `NeighborRoute` message: the exported fields of the sender's `ClusterRouter`, as
they decode. -/
structure RouterMessage where
  childs : Option (GoMap String String)
  neighbor : Option (GoMap String String)
  parentNeighbor : Option (GoMap String String)
  deriving DecidableEq

namespace ClusterRouter

/-- The part of Go's `AddChild` under the lock; on success the caller notifies the children. -/
def addChild (r : ClusterRouter) (clusterName listen : String) : Except String ClusterRouter :=
  match r.childs.get clusterName with
  | some ip => .error (clusterName ++ " has been used at " ++ ip ++
      ", refuse to add this one at " ++ listen)
  | none => .ok { r with childs := r.childs.set clusterName listen }

/-- The part of Go's `DelChild` under the lock; the caller notifies the children in any case. -/
def delChild (r : ClusterRouter) (clusterName : String) : ClusterRouter :=
  match r.childs.get clusterName with
  | some _ => { r with childs := r.childs.delete clusterName }
  | none => r

/-- Go's `HasChild`. -/
def hasChild (r : ClusterRouter) (clusterName : String) : Bool :=
  (r.childs.get clusterName).isSome

/-- Go's `NeighborRouterMessage`. -/
def neighborRouterMessage (r : ClusterRouter) : RouterMessage :=
  ⟨some r.childs, r.neighbor, r.parentNeighbor⟩

/-- Go's `updateNeighbor`: whether the table changed, and the router afterwards. -/
def updateNeighbor (r : ClusterRouter) (parentRouter : RouterMessage) : Bool × ClusterRouter :=
  if r.neighbor = parentRouter.childs then (false, r)
  else (true, { r with neighbor := parentRouter.childs })

/-- Go's `updateParentNeighbor`. -/
def updateParentNeighbor (r : ClusterRouter) (parentRouter : RouterMessage) :
    Bool × ClusterRouter :=
  if r.parentNeighbor = parentRouter.neighbor then (false, r)
  else (true, { r with parentNeighbor := parentRouter.neighbor })

/-- Go's `UpdateRouter`: the router afterwards, and the message for the children if the neighbours
changed.  The message is built before the parent's neighbours are updated.  `none` is a body that does
not decode. -/
def updateRouter (r : ClusterRouter) : Option RouterMessage → ClusterRouter × Option RouterMessage
  | none => (r, none)
  | some parentRouter =>
      let (changed, r₁) := r.updateNeighbor parentRouter
      ((r₁.updateParentNeighbor parentRouter).2,
        if changed then some r₁.neighborRouterMessage else none)

theorem get_childs_of_addChild {r r' : ClusterRouter} {clusterName listen : String}
    (h : r.addChild clusterName listen = .ok r') :
    r.childs.get clusterName = none ∧ r' = { r with childs := r.childs.set clusterName listen } := by
  unfold addChild at h
  split at h
  · cases h
  · exact ⟨‹_›, (Except.ok.inj h).symm⟩

theorem addChild_of_absent {r : ClusterRouter} {clusterName : String} (listen : String)
    (h : r.childs.get clusterName = none) :
    r.addChild clusterName listen =
      .ok { r with childs := r.childs.set clusterName listen } := by
  rw [addChild, h]

@[simp] theorem delChild_neighbor (r : ClusterRouter) (clusterName : String) :
    (r.delChild clusterName).neighbor = r.neighbor := by
  unfold delChild
  split <;> rfl

@[simp] theorem delChild_parentNeighbor (r : ClusterRouter) (clusterName : String) :
    (r.delChild clusterName).parentNeighbor = r.parentNeighbor := by
  unfold delChild
  split <;> rfl

@[simp] theorem delChild_subtreeRouter (r : ClusterRouter) (clusterName : String) :
    (r.delChild clusterName).subtreeRouter = r.subtreeRouter := by
  unfold delChild
  split <;> rfl

theorem get_childs_delChild (r : ClusterRouter) (clusterName k : String) :
    (r.delChild clusterName).childs.get k = if k = clusterName then none else r.childs.get k := by
  unfold delChild
  cases h : r.childs.get clusterName with
  | some ip => exact GoMap.get_delete _ _ _
  | none =>
      by_cases hk : k = clusterName
      · rw [if_pos hk, hk]
        exact h
      · rw [if_neg hk]

theorem updateNeighbor_snd (r : ClusterRouter) (parentRouter : RouterMessage) :
    (r.updateNeighbor parentRouter).2 = { r with neighbor := parentRouter.childs } := by
  unfold updateNeighbor
  split
  · rename_i h
    rw [← h]
  · rfl

theorem updateParentNeighbor_snd (r : ClusterRouter) (parentRouter : RouterMessage) :
    (r.updateParentNeighbor parentRouter).2 =
      { r with parentNeighbor := parentRouter.neighbor } := by
  unfold updateParentNeighbor
  split
  · rename_i h
    rw [← h]
  · rfl

/-- After `UpdateRouter` the two tables are those of the message; the children and the subtree table
are as they were. -/
theorem updateRouter_some (r : ClusterRouter) (parentRouter : RouterMessage) :
    (r.updateRouter (some parentRouter)).1 =
      { r with neighbor := parentRouter.childs, parentNeighbor := parentRouter.neighbor } := by
  show ((r.updateNeighbor parentRouter).2.updateParentNeighbor parentRouter).2 = _
  rw [updateNeighbor_snd, updateParentNeighbor_snd]

/-- The message `UpdateRouter` sends on lists the children, and as neighbours those just received. -/
theorem updateRouter_message {r : ClusterRouter} {parentRouter msg : RouterMessage}
    (h : (r.updateRouter (some parentRouter)).2 = some msg) :
    msg = ⟨some r.childs, parentRouter.childs, r.parentNeighbor⟩ := by
  unfold updateRouter updateNeighbor at h
  by_cases h₁ : r.neighbor = parentRouter.childs
  · simp [h₁] at h
  · simp only [h₁, if_false, if_true, Option.some.injEq] at h
    exact h.symm

end ClusterRouter

end OteStack
