/-
# OteStack.ClusterHandler.Connections — the client map and the child table under any schedule.

Two tables follow the connections of a controller's children: `cloudTunnel.clients`, written by
`connect`, and `ClusterRouter.Childs`, written by `connect` through `AddChild` and by `closeChild`
through `DelChild`.  The client of a name is there exactly while one goroutine of `connect` holds it
(`clientsHeld_step`).  The entry in `Childs` is there exactly while a connection or its pending
`closeChild` holds it, as long as `AddChild` never meets the entry of the connection before
(`childsHeld_step`); then the two tables agree whenever nothing is half done
(`childTable_agrees_of_run`).  A child that reconnects before its old `closeChild` has run is dropped
from `Childs` while it is connected (`reconnected_child_is_dropped`).
-/
import OteStack.ClusterHandler.Node

namespace OteStack

open OteStack.Lib (GoMap MapOrder runSteps runSteps_invariant_of_meet StepsMeet)
open OteStack.Lib.TaskPool

variable {γ : Type} [DecidableEq γ]

/-! ## Goroutines that hold nothing -/

section Quiet

variable {owner : Task γ → Option String} {T : Set String} {s : Node γ} {t : Task γ}

/-- The handling of a message holds nothing and leaves nothing that does. -/
theorem ledger_handle {goOn : Handling → Task γ} (c : Choice) (hd : Handling)
    (h : Ledger owner T s.tasks) (ht : t ∈ s.tasks) (hnone : owner t = none)
    (hgo : ∀ hd, owner (goOn hd) = none) : Ledger owner T (s.handle c t hd goOn).tasks := by
  refine h.swap_idle ht hnone fun u hu => ?_
  obtain ⟨hd', rfl⟩ := Node.of_mem_rest hu
  exact hgo hd'

/-- Nor does a broadcast, which only starts writes. -/
theorem ledger_broadcast {msg : RouterMessage} (conf : HandlerConf) (c : Choice)
    (h : Ledger owner T s.tasks) (ht : .broadcast msg ∈ s.tasks)
    (hnone : owner (.broadcast msg) = none) (hwrite : ∀ conn msg, owner (.write conn msg) = none) :
    Ledger owner T (s.runTask conf c (.broadcast msg)).tasks := by
  refine h.swap_idle ht hnone fun u hu => ?_
  obtain ⟨name, conn, -, rfl⟩ := Node.of_mem_writes hu
  exact hwrite conn msg

omit [DecidableEq γ] in
/-- Nor does what comes in from outside. -/
theorem ledger_arrives {s' : Node γ} (harr : Node.Arrives s s') (h : Ledger owner T s.tasks)
    (hcheck : ∀ cr conn, owner (.checking cr conn) = none) (hworker : ∀ hd, owner (.worker hd) = none)
    (hnotice : ∀ msg, owner (.broadcast msg) = none) : Ledger owner T s'.tasks := by
  obtain ⟨new, htasks, hnew⟩ := harr.tasks
  rw [htasks]
  refine h.spawn fun u hu => ?_
  rcases hnew u hu with ⟨cr, conn, rfl⟩ | ⟨hd, rfl⟩ | ⟨msg, rfl⟩
  · exact hcheck cr conn
  · exact hworker hd
  · exact hnotice msg

end Quiet

/-! ## The clients -/

/-- The name whose client the goroutine has stored and not yet deleted. -/
def Task.client : Task γ → Option String
  | .connected cr _ => some cr.name
  | .announcing cr _ => some cr.name
  | .reading cr _ => some cr.name
  | .closing cr _ => some cr.name
  | _ => none

/-- Every client has been stored by exactly one running goroutine. -/
def ClientsHeld (s : Node γ) : Prop :=
  Ledger Task.client {p | s.clients.get p ≠ none} s.tasks

/-- `LoadOrStore` takes the slot of a name, the final `Delete` gives it up. -/
theorem clientsHeld_runTask {conf : HandlerConf} {c : Choice} {s : Node γ} {t : Task γ}
    (h : ClientsHeld s) (ht : t ∈ s.tasks) : ClientsHeld (s.runTask conf c t) := by
  cases t with
  | checking cr conn =>
      simp only [Node.runTask]
      split
      · exact h.swap_idle ht rfl (by simp)
      · exact h.swap_idle ht rfl (by simp [Task.client])
  | upgrading cr conn =>
      simp only [Node.runTask]
      split
      · exact h.swap_idle ht rfl (by simp [Task.client])
      · exact h.swap_idle ht rfl (by simp)
  | connecting cr conn =>
      simp only [Node.runTask]
      split
      · exact h.swap_idle ht rfl (by simp)
      · rename_i hfree
        refine h.acquire (k := cr.name) ht rfl (by simp [hfree]) ?_ fun j => GoMap.get_set_ne_none
        intro j
        simp [held_cons, Task.client, eq_comm]
  | connected cr conn =>
      simp only [Node.runTask]
      split
      · exact h.swap_same ht fun k => by simp [held_cons, Task.client]
      · exact h.swap_same ht fun k => by simp [held_cons, Task.client]
  | announcing cr conn => exact h.swap_same ht fun k => by simp [held_cons, Task.client]
  | reading cr conn => exact h.swap_same ht fun k => by simp [held_cons, Task.client]
  | closing cr conn =>
      exact h.release (k := cr.name) ht rfl (by simp) fun j => GoMap.get_delete_ne_none
  | closeChild cr => exact h.swap_idle ht rfl (by simp [Task.client])
  | closed cr => exact h.swap_idle ht rfl (by simp [Task.client])
  | handler hd => exact ledger_handle c hd h ht rfl fun _ => rfl
  | worker hd => exact ledger_handle c hd h ht rfl fun _ => rfl
  | broadcast msg => exact ledger_broadcast conf c h ht rfl fun _ _ => rfl
  | write conn msg => exact h.swap_idle ht rfl (by simp)

theorem clientsHeld_step {conf : HandlerConf} {s s' : Node γ} {a : NodeAction γ}
    (h : ClientsHeld s) (hstep : s.step conf a = some s') : ClientsHeld s' := by
  rcases Node.step_cases hstep with ⟨c, t, rfl, ht, rfl⟩ | harr
  · exact clientsHeld_runTask h ht
  · rw [ClientsHeld, harr.clients]
    exact ledger_arrives harr h (fun _ _ => rfl) (fun _ => rfl) fun _ => rfl

omit [DecidableEq γ] in
variable (γ) in
theorem clientsHeld_init : ClientsHeld (Node.init γ) := by
  intro k
  simp [Node.init]

/-! ## The children -/

/-- The name whose entry in `Childs` the goroutine has made or will delete. -/
def Task.child : Task γ → Option String
  | .announcing cr _ => some cr.name
  | .reading cr _ => some cr.name
  | .closeChild cr => some cr.name
  | _ => none

/-- The name whose `DelChild` is pending. -/
def Task.closesChild : Task γ → Option String
  | .closeChild cr => some cr.name
  | _ => none

/-- Every entry of `Childs` belongs to exactly one connection that is up or one pending `DelChild`. -/
def ChildsHeld (s : Node γ) : Prop :=
  Ledger Task.child {p | s.router.childs.get p ≠ none} s.tasks

/-- The name for which the step calls `AddChild`. -/
def NodeAction.addsChild : NodeAction γ → Option String
  | .run _ (.connected cr _) => some cr.name
  | _ => none

/-- `AddChild` is called for a name only when no `DelChild` of an earlier connection of that name is
pending. -/
def DelChildDone (s : Node γ) (a : NodeAction γ) : Prop :=
  ∀ p ∈ a.addsChild, ∀ t ∈ s.tasks, t.closesChild ≠ some p

instance (s : Node γ) (a : NodeAction γ) : Decidable (DelChildDone s a) :=
  inferInstanceAs (Decidable (∀ p ∈ a.addsChild, ∀ t ∈ s.tasks, t.closesChild ≠ some p))

/-- The client of a name belongs to one goroutine only. -/
theorem ClientsHeld.client_ne {s : Node γ} {cr : ClusterRegistry} {conn : γ} {u : Task γ}
    (hcl : ClientsHeld s) (ht : .connected cr conn ∈ s.tasks) (hu : u ∈ s.tasks)
    (hne : u ≠ .connected cr conn) : u.client ≠ some cr.name := by
  have hzero := hcl.held_erase ht (k := cr.name) rfl
  rw [held_eq_zero_iff] at hzero
  exact hzero u ((List.mem_erase_of_ne hne).mpr hu)

/-- A goroutine about to call `AddChild` finds no entry of its name. -/
theorem absent_of_delChildDone {s : Node γ} {cr : ClusterRegistry} {conn : γ}
    (hcl : ClientsHeld s) (hch : ChildsHeld s) (ht : .connected cr conn ∈ s.tasks)
    (hdone : ∀ t ∈ s.tasks, t.closesChild ≠ some cr.name) :
    s.router.childs.get cr.name = none := by
  by_contra hsome
  obtain ⟨u, hu, hname⟩ := hch.mem_iff.mp hsome
  -- whoever holds the entry holds the client too, or is a pending `DelChild`
  have hother : u.client = some cr.name ∨ u.closesChild = some cr.name := by
    cases u <;> simp_all [Task.child, Task.client, Task.closesChild]
  rcases hother with hclient | hcloses
  · have hne : u ≠ .connected cr conn := by
      rintro rfl
      cases hname
    exact hcl.client_ne ht hu hne hclient
  · exact hdone u hu hcloses

/-- `AddChild` takes the entry of a name and `DelChild` gives it up; what becomes of the error of
`AddChild` does not matter when there is none. -/
theorem childsHeld_runTask {conf : HandlerConf} {c : Choice} {s : Node γ} {t : Task γ}
    (hcl : ClientsHeld s) (h : ChildsHeld s) (hdone : DelChildDone s (.run c t))
    (ht : t ∈ s.tasks) : ChildsHeld (s.runTask conf c t) := by
  cases t with
  | checking cr conn =>
      simp only [Node.runTask]
      split
      · exact h.swap_idle ht rfl (by simp)
      · exact h.swap_idle ht rfl (by simp [Task.child])
  | upgrading cr conn =>
      simp only [Node.runTask]
      split
      · exact h.swap_idle ht rfl (by simp [Task.child])
      · exact h.swap_idle ht rfl (by simp)
  | connecting cr conn =>
      simp only [Node.runTask]
      split
      · exact h.swap_idle ht rfl (by simp)
      · exact h.swap_idle ht rfl (by simp [Task.child])
  | connected cr conn =>
      have habsent := absent_of_delChildDone hcl h ht (hdone cr.name rfl)
      simp only [Node.runTask, ClusterRouter.addChild_of_absent cr.listen habsent]
      refine h.acquire (k := cr.name) ht rfl (by simp [habsent]) ?_ fun j => GoMap.get_set_ne_none
      intro j
      simp [held_cons, Task.child, eq_comm]
  | announcing cr conn => exact h.swap_same ht fun k => by simp [held_cons, Task.child]
  | reading cr conn => exact h.swap_same ht fun k => by simp [held_cons, Task.child]
  | closing cr conn => exact h.swap_idle ht rfl (by simp)
  | closeChild cr =>
      refine h.release (k := cr.name) ht rfl (by simp [Task.child]) fun j => ?_
      show (s.router.delChild cr.name).childs.get j ≠ none ↔ _
      rw [ClusterRouter.get_childs_delChild, ← GoMap.get_delete]
      exact GoMap.get_delete_ne_none
  | closed cr => exact h.swap_idle ht rfl (by simp [Task.child])
  | handler hd => exact ledger_handle c hd h ht rfl fun _ => rfl
  | worker hd => exact ledger_handle c hd h ht rfl fun _ => rfl
  | broadcast msg => exact ledger_broadcast conf c h ht rfl fun _ _ => rfl
  | write conn msg => exact h.swap_idle ht rfl (by simp)

theorem childsHeld_step {conf : HandlerConf} {s s' : Node γ} {a : NodeAction γ}
    (hcl : ClientsHeld s) (h : ChildsHeld s) (hdone : DelChildDone s a)
    (hstep : s.step conf a = some s') : ChildsHeld s' := by
  rcases Node.step_cases hstep with ⟨c, t, rfl, ht, rfl⟩ | harr
  · exact childsHeld_runTask hcl h hdone ht
  · rw [ChildsHeld, harr.childs]
    exact ledger_arrives harr h (fun _ _ => rfl) (fun _ => rfl) fun _ => rfl

/-! ## Agreement -/

/-- A goroutine of `connect` that is not just reading, or one of `closeChild`. -/
def Task.pendingConnection : Task γ → Bool
  | .connecting _ _ => true
  | .connected _ _ => true
  | .announcing _ _ => true
  | .closing _ _ => true
  | .closeChild _ => true
  | .closed _ => true
  | _ => false

/-- No `connect` and no `closeChild` is half done. -/
def Node.ConnectionsSettled (s : Node γ) : Prop := ∀ t ∈ s.tasks, t.pendingConnection = false

instance (s : Node γ) : Decidable s.ConnectionsSettled :=
  inferInstanceAs (Decidable (∀ t ∈ s.tasks, t.pendingConnection = false))

/-- In every run whose calls of `AddChild` come after the `DelChild` of the connection before,
whenever nothing is half done the children are the clients. -/
theorem childTable_agrees_of_run (conf : HandlerConf) {as : List (NodeAction γ)} {s : Node γ}
    (hdone : StepsMeet (Node.step conf) DelChildDone (Node.init γ) as)
    (hrun : runSteps (Node.step conf) (Node.init γ) as = some s) (hs : s.ConnectionsSettled) :
    s.router.childs.keys = s.clients.keys := by
  have hinit : ClientsHeld (Node.init γ) ∧ ChildsHeld (Node.init γ) := by
    refine ⟨clientsHeld_init γ, fun k => ?_⟩
    simp [Node.init, defaultClusterRouter]
  obtain ⟨hcl, hch⟩ : ClientsHeld s ∧ ChildsHeld s :=
    runSteps_invariant_of_meet (I := fun s => ClientsHeld s ∧ ChildsHeld s)
      (fun hI hok hstep => ⟨clientsHeld_step hI.1 hstep, childsHeld_step hI.1 hI.2 hok hstep⟩)
      hinit hdone hrun
  -- nothing but reading goroutines holds a client or an entry
  have hread : ∀ t ∈ s.tasks, t.child = t.client := by
    intro t ht
    have hpending := hs t ht
    cases t <;> first | rfl | cases hpending
  ext p
  rw [GoMap.mem_keys, GoMap.mem_keys]
  simp only [← Option.ne_none_iff_exists']
  refine hch.mem_iff.trans (Iff.trans ?_ hcl.mem_iff.symm)
  refine exists_congr fun t => and_congr_right fun ht => ?_
  rw [hread t ht]

/-- The child `edge` of `root`, as its goroutines carry it. -/
def edgeRegistry : ClusterRegistry := ⟨"edge", "edge", "10.0.0.2:8272", 0, "root"⟩

/-- The child `edge` connects, up to the point where its messages are read. -/
def connectEdge (conn : ℕ) : List (NodeAction ℕ) :=
  [.request "edge" "edge" "10.0.0.2:8272" 0 conn,
    .run plainChoice (.checking { edgeRegistry with parentName := "" } conn),
    .run plainChoice (.upgrading edgeRegistry conn),
    .run plainChoice (.connecting edgeRegistry conn),
    .run plainChoice (.connected edgeRegistry conn)]

/-- The connection is lost after the child was announced, and its client deleted. -/
def loseEdge (conn : ℕ) : List (NodeAction ℕ) :=
  [.run plainChoice (.announcing edgeRegistry conn), .run plainChoice (.reading edgeRegistry conn),
    .run plainChoice (.closing edgeRegistry conn)]

/-- The `closeChild` of the connection that was lost. -/
def closeEdge : List (NodeAction ℕ) :=
  [.run plainChoice (.closeChild edgeRegistry), .run plainChoice (.closed edgeRegistry)]

/-- A child that reconnects before the `closeChild` of its first connection has run is connected and
not in `Childs` when nothing is half done any more. -/
theorem reconnected_child_is_dropped :
    ∃ s, runSteps (Node.step ⟨"root", ""⟩) (Node.init ℕ)
      (connectEdge 1 ++ loseEdge 1 ++ connectEdge 2 ++ closeEdge) = some s ∧
      s.ConnectionsSettled ∧ s.router.childs.keys ≠ s.clients.keys := by
  have hrun : (runSteps (Node.step ⟨"root", ""⟩) (Node.init ℕ)
      (connectEdge 1 ++ loseEdge 1 ++ connectEdge 2 ++ closeEdge)).map
      (fun s => (decide s.ConnectionsSettled, decide (s.router.childs.keys = s.clients.keys))) =
      some (true, false) := by decide
  obtain ⟨s, hs, hend⟩ := Option.map_eq_some_iff.mp hrun
  rw [Prod.mk.injEq, decide_eq_true_iff, decide_eq_false_iff_not] at hend
  exact ⟨s, hs, hend.1, hend.2⟩

/-- The child reconnects after its old `closeChild`, and the tables agree. -/
theorem childTable_agrees_slowReconnect :
    ∃ s, runSteps (Node.step ⟨"root", ""⟩) (Node.init ℕ)
        (connectEdge 1 ++ loseEdge 1 ++ closeEdge ++ connectEdge 2 ++
          [.run plainChoice (.announcing edgeRegistry 2)]) = some s ∧
      s.clients.get "edge" = some 2 ∧ s.router.childs.keys = s.clients.keys := by
  have hrun : (runSteps (Node.step ⟨"root", ""⟩) (Node.init ℕ)
      (connectEdge 1 ++ loseEdge 1 ++ closeEdge ++ connectEdge 2 ++
        [.run plainChoice (.announcing edgeRegistry 2)])).map
      (fun s => (decide s.ConnectionsSettled, s.clients.get "edge")) = some (true, some 2) := by
    decide
  obtain ⟨s, hs, hend⟩ := Option.map_eq_some_iff.mp hrun
  rw [Prod.mk.injEq, decide_eq_true_iff] at hend
  exact ⟨s, hs, hend.2, childTable_agrees_of_run _ (by decide) hs hend.1⟩

end OteStack
