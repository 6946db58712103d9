/-
# OteStack.ClusterRouter.Locks — the mutex of the router.

The functions of `pkg/clusterrouter/router.go` as what they do to `rwMutex` and to the four tables.  The
outcome of a call that decides what it does next (whether a name was taken, a route was there, a table
changed) is given with the call, whatever the tables hold: the theorems are about interleavings of the
operations that calls with these outcomes make.  A `range` over a table and printing one are one access each.

`NeighborRouterMessage` holds the read lock when it calls `Serialize`, which takes it again.  A writer
that calls `Lock` between the two waits for the first, and the second waits for the writer.

* `router_locks_up_iff`: goroutines that call the router can come to a state from which their calls will
  never all return, exactly if one of them gets to `NeighborRouterMessage` and another one to `Lock`;
* `router_race_iff`: two of them can meet at a table that one of them writes, exactly if one of the two
  calls accesses it without the mutex, as `SubTreeOfPort`, `ParentNeighbors` and `UpdateRouter` do; the last
  one reads all four tables when it logs the router.
-/
import Mathlib.Data.Fintype.Basic
import OteStack.Lib.LockUp

namespace OteStack

open OteStack.Lib (runSteps runSteps_append)
open OteStack.Lib.RWMutex

/-! ## The calls -/

/-- The tables of a router. -/
inductive RouterTable where
  | childs
  | neighbor
  | parentNeighbor
  | subtreeRouter
  deriving DecidableEq, Repr

/-- What a call does, one operation after the other. -/
abbrev RouterOp := LockOp RouterTable

/-- Looking into a table. -/
abbrev RouterTable.read (x : RouterTable) : RouterOp := .access x false

/-- Writing into a table. -/
abbrev RouterTable.write (x : RouterTable) : RouterOp := .access x true

open RouterTable

/-- `klog` prints the whole router. -/
def printRouter : List RouterOp := [childs.read, neighbor.read, parentNeighbor.read, subtreeRouter.read]

/-- Go's `Serialize` of a `ClusterRouter`: the exported fields. -/
def serializeOps : List RouterOp := rLocked [childs.read, neighbor.read, parentNeighbor.read]

/-- Go's `NeighborRouterMessage`. -/
def neighborRouterMessageOps : List RouterOp := rLocked serializeOps

/-- How `AddRoute` ends. -/
inductive AddRouteOutcome where
  | added
  | present
  | refused
  deriving DecidableEq, Repr

/-- A call of the router with what it met. -/
inductive RouterCall where
  | serialize
  | neighborRouterMessage
  | subTreeMessage
  | addChild (taken : Bool)
  | delChild (found : Bool)
  | hasChild
  | addRoute (outcome : AddRouteOutcome)
  | delRoute (deleted : Bool) (dropped : Option ℕ)
  | hasRoute
  | portsToSubtreeClusters (lookups : ℕ)
  | subTreeOfPort
  | subTreeClusters
  | parentNeighbors
  | updateRouter (neighborChanged parentNeighborChanged : Bool)
  deriving DecidableEq, Repr

/-- What `DelRoute` does to the table.  With `dropped`, the target is the port itself: it is deleted once
more, and then every route through the port. -/
def delRouteAccesses (deleted : Bool) (dropped : Option ℕ) : List RouterOp :=
  subtreeRouter.read :: (if deleted then [subtreeRouter.write] else []) ++
    (match dropped with
      | none => []
      | some n => subtreeRouter.write :: subtreeRouter.read :: List.replicate n subtreeRouter.write) ++
    [subtreeRouter.read]

/-- What the calls do. -/
def RouterCall.ops : RouterCall → List RouterOp
  | .serialize => serializeOps
  | .neighborRouterMessage => neighborRouterMessageOps
  | .subTreeMessage => rLocked [subtreeRouter.read]
  | .addChild taken =>
      if taken then locked [childs.read]
      else locked ([childs.read, childs.write] ++ printRouter) ++ neighborRouterMessageOps
  | .delChild found =>
      locked (childs.read :: if found then childs.write :: printRouter else []) ++
        neighborRouterMessageOps
  | .hasChild => rLocked [childs.read]
  | .addRoute .added => locked [subtreeRouter.read, subtreeRouter.write, subtreeRouter.read]
  | .addRoute .present => locked [subtreeRouter.read, subtreeRouter.read]
  | .addRoute .refused => locked [subtreeRouter.read]
  | .delRoute deleted dropped => locked (delRouteAccesses deleted dropped)
  | .hasRoute => rLocked [subtreeRouter.read]
  | .portsToSubtreeClusters lookups => rLocked (List.replicate lookups subtreeRouter.read)
  | .subTreeOfPort => [subtreeRouter.read]
  | .subTreeClusters => rLocked [subtreeRouter.read]
  | .parentNeighbors => [parentNeighbor.read]
  | .updateRouter neighborChanged parentNeighborChanged =>
      neighbor.read :: (if neighborChanged then neighbor.write :: neighborRouterMessageOps else []) ++
        parentNeighbor.read :: (if parentNeighborChanged then [parentNeighbor.write] else []) ++
        printRouter

/-- A goroutine calls the router some times in turn. -/
def routerProgram (calls : List RouterCall) : List RouterOp := calls.flatMap RouterCall.ops

/-! ## What the calls do with the mutex -/

/-- The call gets to `NeighborRouterMessage`. -/
def RouterCall.notifies : RouterCall → Bool
  | .neighborRouterMessage => true
  | .addChild taken => !taken
  | .delChild _ => true
  | .updateRouter neighborChanged _ => neighborChanged
  | _ => false

/-- The call takes the write lock. -/
def RouterCall.locks : RouterCall → Bool
  | .addChild _ | .delChild _ | .addRoute _ | .delRoute _ _ => true
  | _ => false

/-- The accesses of a call that it makes without the mutex. -/
def RouterCall.unlocked : RouterCall → List (RouterTable × Bool)
  | .subTreeOfPort => [(subtreeRouter, false)]
  | .parentNeighbors => [(parentNeighbor, false)]
  | .updateRouter neighborChanged parentNeighborChanged =>
      (neighbor, false) :: (if neighborChanged then [(neighbor, true)] else []) ++
        (parentNeighbor, false) :: (if parentNeighborChanged then [(parentNeighbor, true)] else []) ++
        [(childs, false), (neighbor, false), (parentNeighbor, false), (subtreeRouter, false)]
  | _ => []

/-- The calls without a number of accesses that depends on the tables. -/
def fixedCalls : List RouterCall :=
  [.serialize, .neighborRouterMessage, .subTreeMessage, .addChild true, .addChild false, .delChild true,
    .delChild false, .hasChild, .addRoute .added, .addRoute .present, .addRoute .refused, .hasRoute,
    .subTreeOfPort, .subTreeClusters, .parentNeighbors, .updateRouter true true, .updateRouter true false,
    .updateRouter false true, .updateRouter false false]

/-- What holds of `DelRoute`, of `PortsToSubtreeClusters` and of the fixed calls holds of every call. -/
theorem RouterCall.forall_of_fixed {P : RouterCall → Prop} (hdel : ∀ b n, P (.delRoute b n))
    (hports : ∀ n, P (.portsToSubtreeClusters n)) (hfixed : ∀ c ∈ fixedCalls, P c) (c : RouterCall) :
    P c := by
  cases c with
  | delRoute deleted dropped => exact hdel deleted dropped
  | portsToSubtreeClusters lookups => exact hports lookups
  | addChild taken => cases taken <;> exact hfixed _ (by decide)
  | delChild found => cases found <;> exact hfixed _ (by decide)
  | addRoute outcome => cases outcome <;> exact hfixed _ (by decide)
  | updateRouter neighborChanged parentNeighborChanged =>
      cases neighborChanged <;> cases parentNeighborChanged <;> exact hfixed _ (by decide)
  | serialize | neighborRouterMessage | subTreeMessage | hasChild | hasRoute
  | subTreeOfPort | subTreeClusters | parentNeighbors => exact hfixed _ (by decide)

theorem onlyAccesses_delRoute (deleted : Bool) (dropped : Option ℕ) :
    OnlyAccesses (delRouteAccesses deleted dropped) := by
  cases deleted <;> cases dropped <;> simp [OnlyAccesses, LockOp.isAccess, delRouteAccesses]

theorem onlyAccesses_lookups (n : ℕ) : OnlyAccesses (List.replicate n subtreeRouter.read) := by
  simp [OnlyAccesses, LockOp.isAccess]

/-- Every call gives back what it takes. -/
theorem within_ops : ∀ c : RouterCall, Within (.reading 0) c.ops :=
  RouterCall.forall_of_fixed (fun b n => ((onlyAccesses_delRoute b n).within _).locked)
    (fun n => ((onlyAccesses_lookups n).within _).rLocked) (by decide)

/-- What `DelRoute` comes to, and with which lock. -/
theorem mem_uses_delRoute {deleted : Bool} {dropped : Option ℕ} {m : Mode} {op : RouterOp} :
    (m, op) ∈ uses (.reading 0) (RouterCall.delRoute deleted dropped).ops ↔
      (m = .reading 0 ∧ op = .lock) ∨ (m = .writing ∧ op ∈ delRouteAccesses deleted dropped) ∨
        (m = .writing ∧ op = .unlock) :=
  (onlyAccesses_delRoute deleted dropped).mem_uses_locked

/-- What `PortsToSubtreeClusters` comes to, and with which lock. -/
theorem mem_uses_portsToSubtreeClusters {lookups : ℕ} {m : Mode} {op : RouterOp} :
    (m, op) ∈ uses (.reading 0) (RouterCall.portsToSubtreeClusters lookups).ops ↔
      (m = .reading 0 ∧ op = .rLock) ∨
        (m = .reading 1 ∧ op ∈ List.replicate lookups subtreeRouter.read) ∨
        (m = .reading 1 ∧ op = .rUnlock) :=
  (onlyAccesses_lookups lookups).mem_uses_rLocked

/-- The read lock that is taken under a read lock is the one of `NeighborRouterMessage`. -/
theorem rLock_use_iff (c : RouterCall) (n : ℕ) :
    (Mode.reading (n + 1), LockOp.rLock) ∈ uses (.reading 0) c.ops ↔ n = 0 ∧ c.notifies = true := by
  refine RouterCall.forall_of_fixed (P := fun c =>
    (Mode.reading (n + 1), LockOp.rLock) ∈ uses (.reading 0) c.ops ↔ n = 0 ∧ c.notifies = true)
    (fun b k => by simp [mem_uses_delRoute, RouterCall.notifies])
    (fun k => by simp [mem_uses_portsToSubtreeClusters, RouterCall.notifies]) ?_ c
  rcases n with _ | n
  · decide
  · -- no call goes deeper than two
    have hdepth : ∀ c ∈ fixedCalls, ∀ u ∈ uses (.reading 0) c.ops, u.2 = .rLock →
        u.1 = .reading 0 ∨ u.1 = .reading 1 := by decide
    intro c hc
    refine ⟨fun h => ?_, fun h => absurd h.1 (by simp)⟩
    simpa using hdepth c hc _ h rfl

/-- The calls that get to `Lock`. -/
theorem lock_use_iff (c : RouterCall) :
    (Mode.reading 0, LockOp.lock) ∈ uses (.reading 0) c.ops ↔ c.locks = true :=
  RouterCall.forall_of_fixed (P := fun c =>
    (Mode.reading 0, LockOp.lock) ∈ uses (.reading 0) c.ops ↔ c.locks = true)
    (fun b k => by simp [mem_uses_delRoute, RouterCall.locks])
    (fun k => by simp [mem_uses_portsToSubtreeClusters, RouterCall.locks]) (by decide) c

/-- The accesses without a lock. -/
theorem unlocked_use_iff (c : RouterCall) (x : RouterTable) (w : Bool) :
    (Mode.reading 0, LockOp.access x w) ∈ uses (.reading 0) c.ops ↔ (x, w) ∈ c.unlocked := by
  refine RouterCall.forall_of_fixed (P := fun c =>
    (Mode.reading 0, LockOp.access x w) ∈ uses (.reading 0) c.ops ↔ (x, w) ∈ c.unlocked)
    (fun b k => by simp [mem_uses_delRoute, RouterCall.unlocked])
    (fun k => by simp [mem_uses_portsToSubtreeClusters, RouterCall.unlocked]) ?_ c
  cases x <;> cases w <;> decide

/-- No table is written under a read lock. -/
theorem no_write_while_reading (c : RouterCall) (n : ℕ) (x : RouterTable) :
    (Mode.reading (n + 1), LockOp.access x true) ∉ uses (.reading 0) c.ops := by
  refine RouterCall.forall_of_fixed (P := fun c =>
    (Mode.reading (n + 1), LockOp.access x true) ∉ uses (.reading 0) c.ops)
    (fun b k => by simp [mem_uses_delRoute])
    (fun k => by simp [mem_uses_portsToSubtreeClusters]) ?_ c
  have hmode : ∀ c ∈ fixedCalls, ∀ u ∈ uses (.reading 0) c.ops, u.2 = x.write →
      u.1 = .reading 0 ∨ u.1 = .writing := by
    cases x <;> decide
  intro c hc h
  simpa using hmode c hc _ h rfl

/-! ## Goroutines that call the router -/

theorem balanced_routerProgram (calls : List RouterCall) : Balanced (routerProgram calls) := by
  induction calls with
  | nil => rfl
  | cons c calls ih => exact (within_ops c).append ih

theorem mem_uses_routerProgram {calls : List RouterCall} {u : Mode × RouterOp} :
    u ∈ uses (.reading 0) (routerProgram calls) ↔ ∃ c ∈ calls, u ∈ uses (.reading 0) c.ops := by
  induction calls with
  | nil => simp [routerProgram, uses]
  | cons c calls ih =>
      rw [routerProgram, List.flatMap_cons, (within_ops c).mem_uses_append]
      rw [routerProgram] at ih
      simp [ih]

/-- The goroutines before their first call. -/
def routerStart {ι : Type} (goroutines : ι → List RouterCall) : State ι RouterTable :=
  start fun i => routerProgram (goroutines i)

section Goroutines

variable {ι : Type} [Fintype ι] [DecidableEq ι]

/-- Some interleaving of calls with the given outcomes comes to a state from which they can never all return, if
and only if one goroutine gets to `NeighborRouterMessage` and another one to `Lock`. -/
theorem router_locks_up_iff (goroutines : ι → List RouterCall) :
    (∃ as s, runSteps State.step (routerStart goroutines) as = some s ∧
      ¬ ∃ bs t, runSteps State.step s bs = some t ∧ t.Finished) ↔
      ∃ i j, i ≠ j ∧ (∃ c ∈ goroutines i, c.notifies = true) ∧ ∃ c ∈ goroutines j, c.locks = true := by
  have hcaught : (∃ as s, runSteps State.step (routerStart goroutines) as = some s ∧
      ¬ ∃ bs t, runSteps State.step s bs = some t ∧ t.Finished) ↔
      ∃ as s, runSteps State.step (routerStart goroutines) as = some s ∧ s.Caught := by
    refine exists_congr fun as => exists_congr fun s => and_congr_right fun hrun => ?_
    rw [canFinish_iff (fun i => balanced_routerProgram (goroutines i)) (sound_of_run hrun), not_not]
  rw [hcaught, routerStart, exists_caught_iff]
  refine exists_congr fun i => exists_congr fun j => and_congr_right fun _ => and_congr ?_ ?_
  · simp only [mem_uses_routerProgram, rLock_use_iff]
    constructor
    · rintro ⟨-, c, hc, -, hnot⟩
      exact ⟨c, hc, hnot⟩
    · rintro ⟨c, hc, hnot⟩
      exact ⟨0, c, hc, rfl, hnot⟩
  · simp only [mem_uses_routerProgram, lock_use_iff]

/-- Some interleaving of calls with the given outcomes lets two goroutines meet at a table that one of them
writes, if and only if one of two such accesses is made without the mutex. -/
theorem router_race_iff (goroutines : ι → List RouterCall) :
    (∃ as s, runSteps State.step (routerStart goroutines) as = some s ∧ s.Race) ↔
      ∃ i j, i ≠ j ∧ ∃ c ∈ goroutines i, ∃ d ∈ goroutines j, ∃ x v w, (x, v) ∈ c.unlocked ∧
        LockOp.access x w ∈ d.ops ∧ (v = true ∨ w = true) := by
  have hread : ∀ i n x, (Mode.reading (n + 1), LockOp.access x true) ∉
      uses (.reading 0) (routerProgram (goroutines i)) := by
    intro i n x huse
    obtain ⟨c, -, hc⟩ := mem_uses_routerProgram.mp huse
    exact no_write_while_reading c n x hc
  rw [routerStart, exists_race_iff hread]
  constructor
  · rintro ⟨i, j, x, v, w, m, hij, hi, hj, hvw⟩
    obtain ⟨c, hc, hcu⟩ := mem_uses_routerProgram.mp hi
    obtain ⟨d, hd, hdu⟩ := mem_uses_routerProgram.mp hj
    exact ⟨i, j, hij, c, hc, d, hd, x, v, w, (unlocked_use_iff c x v).mp hcu,
      (exists_use_iff (within_ops d)).mp ⟨m, hdu⟩, hvw⟩
  · rintro ⟨i, j, hij, c, hc, d, hd, x, v, w, hxv, hxw, hvw⟩
    obtain ⟨m, hm⟩ := (exists_use_iff (within_ops d)).mpr hxw
    exact ⟨i, j, x, v, w, m, hij, mem_uses_routerProgram.mpr ⟨c, hc, (unlocked_use_iff c x v).mpr hxv⟩,
      mem_uses_routerProgram.mpr ⟨d, hd, hm⟩, hvw⟩

end Goroutines

end OteStack
