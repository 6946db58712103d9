/-
# OteStack.ClusterHandler.NeighborSync — do the children's tables follow their parent's?

A parent that adds or deletes a child, or learns new neighbours, sends all its children its tables; a child
takes what it gets as its `Neighbor` and `ParentNeighbor`.  Every notification is broadcast by a goroutine
of its own, which starts a goroutine for every client, so two notifications can reach a child in either
order, and nothing in them says which one is newer (`stale_neighbours_win`).

`Family` is a parent with all its goroutines, the messages that are on their way, and the routers at the other
ends of its connections.  A child is up to date or something is on its way to it, whatever the parent does
(`upToDate_parent`); what can break this is only the handling of a message (`upToDate_deliver_iff`).  So the
tables of a child agree with its parent's whenever nothing is on its way to it, throughout a run, exactly when
no child handles an outdated message as its last one (`neighbours_follow_iff`).  They do in every run in which
the parent changes its tables only when no notification of an earlier change is being sent or on its way
(`neighbours_follow_calm_parent`).
-/
import OteStack.ClusterHandler.Connections

namespace OteStack

open OteStack.Lib (GoMap MapOrder runSteps StepsMeet forall_prefix_iff_stepsMeet runSteps_invariant_of_meet
  exists_run)
open OteStack.Lib.TaskPool

variable {γ : Type}

/-! ## A parent and its children -/

/-- A parent, the routers of the controllers at the other ends of its connections, and the messages written
to connections that have not been handled.  No message is lost. -/
structure Family (γ : Type) where
  parent : Node γ
  children : γ → ClusterRouter
  inFlight : List (γ × RouterMessage)

/-- The parent moves, or a child handles one of the messages that have reached it. -/
inductive FamilyAction (γ : Type) where
  | parent (a : NodeAction γ)
  | deliver (conn : γ) (msg : RouterMessage)

/-- The message that a step of the parent writes to a connection. -/
def NodeAction.sent : NodeAction γ → List (γ × RouterMessage)
  | .run _ (.write conn msg) => [(conn, msg)]
  | _ => []

/-- A goroutine that will still send a notification to the connection: `AddChild` notifies everybody when it
adds the child, `DelChild` in any case. -/
def Task.notifies [DecidableEq γ] (conn : γ) : Task γ → Bool
  | .connected _ conn' => conn' == conn
  | .announcing _ _ => true
  | .closeChild _ => true
  | .closed _ => true
  | .broadcast _ => true
  | .write conn' _ => conn' == conn
  | _ => false

/-- The message says what the parent's tables are now. -/
def RouterMessage.Current (msg : RouterMessage) (r : ClusterRouter) : Prop :=
  msg.childs = some r.childs ∧ msg.neighbor = r.neighbor

instance (msg : RouterMessage) (r : ClusterRouter) : Decidable (msg.Current r) :=
  inferInstanceAs (Decidable (_ ∧ _))

namespace Family

variable [DecidableEq γ]

/-- A parent without children, among any controllers. -/
def init (children : γ → ClusterRouter) : Family γ := ⟨Node.init γ, children, []⟩

/-- One step. -/
def step (conf : HandlerConf) (s : Family γ) : FamilyAction γ → Option (Family γ)
  | .parent a =>
      (s.parent.step conf a).map fun parent => { s with parent := parent, inFlight := s.inFlight ++ a.sent }
  | .deliver conn msg =>
      if s.inFlight.contains (conn, msg) then
        some { s with
          children := Function.update s.children conn ((s.children conn).updateRouter (some msg)).1
          inFlight := s.inFlight.erase (conn, msg) }
      else none

/-- The connection is one of the parent's clients. -/
def Connected (s : Family γ) (conn : γ) : Prop :=
  ∃ n ∈ s.parent.clients.keys, s.parent.clients.get n = some conn

instance (s : Family γ) (conn : γ) : Decidable (s.Connected conn) :=
  inferInstanceAs (Decidable (∃ n ∈ s.parent.clients.keys, _))

/-- A notification is on its way to the connection. -/
def Pending (s : Family γ) (conn : γ) : Prop :=
  (∃ t ∈ s.parent.tasks, t.notifies conn = true) ∨ ∃ m ∈ s.inFlight, m.1 = conn

instance (s : Family γ) (conn : γ) : Decidable (s.Pending conn) := inferInstanceAs (Decidable (_ ∨ _))

/-- The child's tables are those of its parent. -/
def Agrees (s : Family γ) (conn : γ) : Prop :=
  (s.children conn).neighbor = some s.parent.router.childs ∧
    (s.children conn).parentNeighbor = s.parent.router.neighbor

instance (s : Family γ) (conn : γ) : Decidable (s.Agrees conn) := inferInstanceAs (Decidable (_ ∧ _))

/-- Every connected child that nothing is on its way to has its parent's tables. -/
def UpToDate (s : Family γ) : Prop := ∀ conn, s.Connected conn → ¬ s.Pending conn → s.Agrees conn

/-- A connected child handles a message only if it says what the parent's tables are now, or another
notification is still on its way. -/
def HandlesInOrder (s : Family γ) : FamilyAction γ → Prop
  | .parent _ => True
  | .deliver conn msg => s.Connected conn → msg.Current s.parent.router ∨
      { s with inFlight := s.inFlight.erase (conn, msg) }.Pending conn

instance (s : Family γ) : ∀ a : FamilyAction γ, Decidable (s.HandlesInOrder a)
  | .parent _ => .isTrue trivial
  | .deliver _ _ => inferInstanceAs (Decidable (_ → _))

end Family

/-! ## The parent -/

variable [DecidableEq γ]

/-- Every entry of `Childs` belongs to a connection that is up or to a pending `DelChild`. -/
def ChildsOwned (s : Node γ) : Prop :=
  ∀ p, s.router.childs.get p ≠ none → ∃ t ∈ s.tasks, t.child = some p

/-- The first two steps of a request touch no table. -/
theorem runTask_checking (conf : HandlerConf) (c : Choice) (s : Node γ) (cr : ClusterRegistry) (conn : γ) :
    ∃ new, s.runTask conf c (.checking cr conn) = s.replace (.checking cr conn) new := by
  simp only [Node.runTask]
  split
  · exact ⟨_, rfl⟩
  · exact ⟨_, rfl⟩

theorem runTask_upgrading (conf : HandlerConf) (c : Choice) (s : Node γ) (cr : ClusterRegistry) (conn : γ) :
    ∃ new, s.runTask conf c (.upgrading cr conn) = s.replace (.upgrading cr conn) new := by
  simp only [Node.runTask]
  split
  · exact ⟨_, rfl⟩
  · exact ⟨_, rfl⟩

/-- A goroutine that owned an entry must leave one that does. -/
theorem owned_swap {pool new : List (Task γ)} {t : Task γ} {p : String}
    (h : ∃ u ∈ pool, u.child = some p) (hnew : t.child = some p → ∃ u ∈ new, u.child = some p) :
    ∃ u ∈ swap pool t new, u.child = some p := by
  obtain ⟨u, hu, hup⟩ := h
  by_cases hut : u = t
  · subst hut
    obtain ⟨v, hv, hvp⟩ := hnew hup
    exact ⟨v, mem_swap.mpr (Or.inl hv), hvp⟩
  · exact ⟨u, mem_swap_of_mem new hu hut, hup⟩

theorem owned_swap_idle {pool new : List (Task γ)} {t : Task γ} {p : String}
    (h : ∃ u ∈ pool, u.child = some p) (hidle : t.child = none) :
    ∃ u ∈ swap pool t new, u.child = some p :=
  owned_swap h fun hchild => absurd (hidle.symm.trans hchild) (by simp)

theorem childsOwned_runTask {conf : HandlerConf} {c : Choice} {s : Node γ} {t : Task γ}
    (h : ChildsOwned s) : ChildsOwned (s.runTask conf c t) := by
  intro p hp
  cases t with
  | checking cr conn =>
      obtain ⟨new, hrun⟩ := runTask_checking conf c s cr conn
      rw [hrun] at hp ⊢
      exact owned_swap_idle (h p hp) rfl
  | upgrading cr conn =>
      obtain ⟨new, hrun⟩ := runTask_upgrading conf c s cr conn
      rw [hrun] at hp ⊢
      exact owned_swap_idle (h p hp) rfl
  | connecting cr conn =>
      simp only [Node.runTask] at hp ⊢
      rcases hfree : s.clients.get cr.name with _ | other
      · rw [hfree] at hp
        exact owned_swap_idle (h p hp) rfl
      · rw [hfree] at hp
        exact owned_swap_idle (h p hp) rfl
  | connected cr conn =>
      simp only [Node.runTask] at hp ⊢
      rcases hadd : s.router.addChild cr.name cr.listen with e | router
      · rw [hadd] at hp
        exact owned_swap_idle (h p hp) rfl
      · rw [hadd] at hp
        change router.childs.get p ≠ none at hp
        rw [(ClusterRouter.get_childs_of_addChild hadd).2] at hp
        rcases GoMap.get_set_ne_none.mp hp with rfl | hold
        · -- the new entry belongs to the connection
          exact ⟨.announcing cr conn, mem_swap.mpr (Or.inl (by simp)), rfl⟩
        · exact owned_swap_idle (h p hold) rfl
  | announcing cr conn => exact owned_swap (h p hp) fun hcr => ⟨.reading cr conn, by simp, hcr⟩
  | reading cr conn =>
      exact owned_swap (h p hp) fun hcr => ⟨.closeChild { cr with time := c.now }, by simp, hcr⟩
  | closing cr conn => exact owned_swap_idle (h p hp) rfl
  | closeChild cr =>
      change (s.router.delChild cr.name).childs.get p ≠ none at hp
      rw [ClusterRouter.get_childs_delChild] at hp
      split at hp
      · exact absurd rfl hp
      · rename_i hne
        exact owned_swap (h p hp) fun hcr => absurd (Option.some.inj hcr).symm hne
  | closed cr => exact owned_swap_idle (h p hp) rfl
  | handler hd => exact owned_swap_idle (h p hp) rfl
  | worker hd => exact owned_swap_idle (h p hp) rfl
  | broadcast msg => exact owned_swap_idle (h p hp) rfl
  | write conn msg => exact owned_swap_idle (h p hp) rfl

theorem childsOwned_step {conf : HandlerConf} {s s' : Node γ} {a : NodeAction γ} (h : ChildsOwned s)
    (hstep : s.step conf a = some s') : ChildsOwned s' := by
  rcases Node.step_cases hstep with ⟨c, t, rfl, ht, rfl⟩ | harr
  · exact childsOwned_runTask h
  · intro p hp
    rw [harr.childs] at hp
    obtain ⟨new, htasks, -⟩ := harr.tasks
    obtain ⟨u, hu, hup⟩ := h p hp
    exact ⟨u, by rw [htasks]; exact List.mem_append_right _ hu, hup⟩

/-- A step that does not concern a client: the tables are as they were, and whoever was going to notify it
still is. -/
structure Unconcerned (s s' : Node γ) (n : String) (conn : γ) : Prop where
  childs : s'.router.childs = s.router.childs
  neighbor : s'.router.neighbor = s.router.neighbor
  client : s.clients.get n = some conn
  tasks : ∀ u ∈ s.tasks, u.notifies conn = true → u ∈ s'.tasks

/-- A goroutine with nothing to tell a client takes a step. -/
theorem mem_swap_of_notifies {pool : List (Task γ)} {t : Task γ} {conn : γ} (new : List (Task γ))
    (hidle : t.notifies conn = false) :
    ∀ u ∈ pool, u.notifies conn = true → u ∈ swap pool t new := by
  intro u hu hnotifies
  refine mem_swap_of_mem new hu ?_
  rintro rfl
  rw [hidle] at hnotifies
  exact absurd hnotifies (by simp)

/-- When `AddChild` refuses a child, the `DelChild` of an earlier connection is pending. -/
theorem closeChild_of_refused {s : Node γ} {cr : ClusterRegistry} {conn : γ} (hcl : ClientsHeld s)
    (hown : ChildsOwned s) (ht : .connected cr conn ∈ s.tasks) (hsome : s.router.childs.get cr.name ≠ none) :
    ∃ cr', .closeChild cr' ∈ s.tasks := by
  obtain ⟨u, hu, hname⟩ := hown cr.name hsome
  -- the client of that name belongs to the goroutine that called `AddChild`
  have hother : u.client ≠ some cr.name := by
    refine hcl.client_ne ht hu ?_
    rintro rfl
    cases hname
  cases u with
  | closeChild cr' => exact ⟨cr', hu⟩
  | announcing cr' conn' => exact absurd hname hother
  | reading cr' conn' => exact absurd hname hother
  | _ => cases hname

/-- A step of a goroutine concerns a client only if it leaves somebody who will notify it, or is the very
write of a notification. -/
theorem notified_runTask {conf : HandlerConf} {c : Choice} {s : Node γ} {t : Task γ} (hcl : ClientsHeld s)
    (hown : ChildsOwned s) (ht : t ∈ s.tasks) {n : String} {conn : γ}
    (hn : (s.runTask conf c t).clients.get n = some conn) :
    (∃ u ∈ (s.runTask conf c t).tasks, u.notifies conn = true) ∨ (∃ msg, t = .write conn msg) ∨
      Unconcerned s (s.runTask conf c t) n conn := by
  cases t with
  | checking cr conn' =>
      obtain ⟨new, hrun⟩ := runTask_checking conf c s cr conn'
      rw [hrun] at hn ⊢
      exact Or.inr (Or.inr ⟨rfl, rfl, hn, mem_swap_of_notifies _ rfl⟩)
  | upgrading cr conn' =>
      obtain ⟨new, hrun⟩ := runTask_upgrading conf c s cr conn'
      rw [hrun] at hn ⊢
      exact Or.inr (Or.inr ⟨rfl, rfl, hn, mem_swap_of_notifies _ rfl⟩)
  | connecting cr conn' =>
      simp only [Node.runTask] at hn ⊢
      rcases hfree : s.clients.get cr.name with _ | other
      · rw [hfree] at hn
        change (s.clients.set cr.name conn').get n = some conn at hn
        rcases GoMap.get_set_eq_some.mp hn with ⟨-, rfl⟩ | ⟨-, hn⟩
        · -- the new client is about to be added as a child
          exact Or.inl ⟨.connected cr conn', mem_swap.mpr (Or.inl (by simp)), by simp [Task.notifies]⟩
        · exact Or.inr (Or.inr ⟨rfl, rfl, hn, mem_swap_of_notifies _ rfl⟩)
      · rw [hfree] at hn
        exact Or.inr (Or.inr ⟨rfl, rfl, hn, mem_swap_of_notifies _ rfl⟩)
  | connected cr conn' =>
      left
      simp only [Node.runTask]
      rcases hadd : s.router.addChild cr.name cr.listen with e | router
      · have hsome : s.router.childs.get cr.name ≠ none := by
          intro hnone
          rw [ClusterRouter.addChild_of_absent cr.listen hnone] at hadd
          cases hadd
        obtain ⟨cr', hcr'⟩ := closeChild_of_refused hcl hown ht hsome
        exact ⟨.closeChild cr', mem_swap_of_mem _ hcr' (by simp), rfl⟩
      · exact ⟨.announcing cr conn', mem_swap.mpr (Or.inl (by simp)), rfl⟩
  | announcing cr conn' =>
      exact Or.inl ⟨.broadcast s.router.neighborRouterMessage, mem_swap.mpr (Or.inl (by simp)), rfl⟩
  | reading cr conn' =>
      exact Or.inl ⟨.closeChild { cr with time := c.now }, mem_swap.mpr (Or.inl (by simp)), rfl⟩
  | closing cr conn' =>
      change (s.clients.delete cr.name).get n = some conn at hn
      rw [GoMap.get_delete] at hn
      split at hn
      · cases hn
      · exact Or.inr (Or.inr ⟨rfl, rfl, hn, mem_swap_of_notifies _ rfl⟩)
  | closeChild cr =>
      exact Or.inl ⟨.closed { cr with parentName := conf.clusterName }, mem_swap.mpr (Or.inl (by simp)), rfl⟩
  | closed cr =>
      exact Or.inl ⟨.broadcast s.router.neighborRouterMessage, mem_swap.mpr (Or.inl (by simp)), rfl⟩
  | handler hd => exact Or.inr (Or.inr ⟨rfl, rfl, hn, mem_swap_of_notifies _ rfl⟩)
  | worker hd => exact Or.inr (Or.inr ⟨rfl, rfl, hn, mem_swap_of_notifies _ rfl⟩)
  | broadcast msg =>
      have hwrite : .write conn msg ∈ (c.order.order s.clients).filterMap fun name =>
          (s.clients.get name).map fun conn => Task.write conn msg := by
        refine List.mem_filterMap.mpr ⟨n, (c.order.mem_order _ _).mpr (GoMap.mem_keys_of_get hn), ?_⟩
        rw [show s.clients.get n = some conn from hn]
        rfl
      exact Or.inl ⟨.write conn msg, mem_swap.mpr (Or.inl hwrite), by simp [Task.notifies]⟩
  | write conn' msg =>
      by_cases hconn : conn' = conn
      · exact Or.inr (Or.inl ⟨msg, by rw [hconn]⟩)
      · exact Or.inr (Or.inr ⟨rfl, rfl, hn, mem_swap_of_notifies _ (by simp [Task.notifies, hconn])⟩)

/-- The notification that a goroutine is about to send. -/
def Task.notice : Task γ → Option RouterMessage
  | .broadcast msg => some msg
  | .write _ msg => some msg
  | _ => none

/-- A request, a message of a child or a worker comes in: the tables and the clients are as they were, and
nobody has got anything to send. -/
structure ComesIn (s s' : Node γ) : Prop where
  tasks : ∃ new, s'.tasks = new ++ s.tasks ∧ ∀ u ∈ new, u.notice = none
  clients : s'.clients = s.clients
  router : s'.router = s.router

theorem comesIn_step {conf : HandlerConf} {s s' : Node γ} {a : NodeAction γ} (hrun : ∀ c t, a ≠ .run c t)
    (hparent : ∀ msg, a ≠ .parentMessage msg) (hstep : s.step conf a = some s') : ComesIn s s' := by
  have hsame : ComesIn s s := ⟨⟨[], rfl, by simp⟩, rfl, rfl⟩
  cases a with
  | request cluster name listenAddr now conn =>
      obtain rfl := Option.some.inj hstep
      unfold Node.accessHandler
      split
      · exact hsame
      · split
        · exact hsame
        · split
          · exact hsame
          · split
            · exact hsame
            · exact ⟨⟨[_], rfl, by simp [Task.notice]⟩, rfl, rfl⟩
  | receive cr conn msg =>
      obtain ⟨-, hs'⟩ := Option.ite_none_right_eq_some.mp hstep
      obtain rfl := Option.some.inj hs'
      unfold Node.handleMessageFromCloudTunnel
      split
      · exact ⟨⟨[], rfl, by simp⟩, rfl, rfl⟩
      · exact ⟨⟨[], rfl, by simp⟩, rfl, rfl⟩
  | take =>
      simp only [Node.step] at hstep
      split at hstep
      · cases hstep
      · obtain ⟨-, hs'⟩ := Option.ite_none_right_eq_some.mp hstep
        obtain rfl := Option.some.inj hs'
        exact ⟨⟨[_], rfl, by simp [Task.notice]⟩, rfl, rfl⟩
  | parentMessage msg => exact absurd rfl (hparent msg)
  | run c t => exact absurd rfl (hrun c t)

omit [DecidableEq γ] in
/-- The neighbours change only together with a broadcast. -/
theorem neighbor_handleNeighborRoute (s : Node γ) (msg : Option RouterMessage) :
    (s.handleNeighborRoute msg).router.neighbor = s.router.neighbor ∨
      ∃ notice, .broadcast notice ∈ (s.handleNeighborRoute msg).tasks := by
  rcases msg with _ | parentRouter
  · exact Or.inl rfl
  · by_cases hsame : s.router.neighbor = parentRouter.childs
    · left
      show (s.router.updateRouter (some parentRouter)).1.neighbor = _
      rw [ClusterRouter.updateRouter_some, hsame]
    · have hnotice : ∃ notice, (s.router.updateRouter (some parentRouter)).2 = some notice := by
        unfold ClusterRouter.updateRouter ClusterRouter.updateNeighbor
        simp [hsame]
      obtain ⟨notice, hnotice⟩ := hnotice
      refine Or.inr ⟨notice, List.mem_append_left _ ?_⟩
      show Task.broadcast notice ∈ ((s.router.updateRouter (some parentRouter)).2.map Task.broadcast).toList
      simp [hnotice]

/-- Any step of the parent concerns a client only if somebody will notify it, or just has. -/
theorem notified_step {conf : HandlerConf} {s s' : Node γ} {a : NodeAction γ} (hcl : ClientsHeld s)
    (hown : ChildsOwned s) (hstep : s.step conf a = some s') {n : String} {conn : γ}
    (hn : s'.clients.get n = some conn) :
    (∃ u ∈ s'.tasks, u.notifies conn = true) ∨ (∃ m ∈ a.sent, m.1 = conn) ∨ Unconcerned s s' n conn := by
  cases a with
  | parentMessage msg =>
      obtain rfl := Option.some.inj hstep
      have harr := Node.arrives_handleNeighborRoute s msg
      rcases neighbor_handleNeighborRoute s msg with hsame | ⟨notice, hnotice⟩
      · obtain ⟨new, htasks, -⟩ := harr.tasks
        rw [harr.clients] at hn
        refine Or.inr (Or.inr ⟨harr.childs, hsame, hn, fun u hu _ => ?_⟩)
        rw [htasks]
        exact List.mem_append_right _ hu
      · exact Or.inl ⟨.broadcast notice, hnotice, rfl⟩
  | run c t =>
      obtain ⟨ht, hs'⟩ := Option.ite_none_right_eq_some.mp hstep
      obtain rfl := Option.some.inj hs'
      rcases notified_runTask hcl hown ht hn with hnotified | ⟨msg, rfl⟩ | hkeeps
      · exact Or.inl hnotified
      · exact Or.inr (Or.inl ⟨(conn, msg), by simp [NodeAction.sent], rfl⟩)
      · exact Or.inr (Or.inr hkeeps)
  | _ =>
      have hcomes := comesIn_step (by simp) (by simp) hstep
      obtain ⟨new, htasks, -⟩ := hcomes.tasks
      rw [hcomes.clients] at hn
      refine Or.inr (Or.inr ⟨by rw [hcomes.router], by rw [hcomes.router], hn, fun u hu _ => ?_⟩)
      rw [htasks]
      exact List.mem_append_right _ hu

/-! ## The family -/

namespace Family

variable {conf : HandlerConf} {s s' : Family γ}

omit [DecidableEq γ] in
theorem connected_iff {conn : γ} : s.Connected conn ↔ ∃ n, s.parent.clients.get n = some conn := by
  constructor
  · rintro ⟨n, -, hn⟩
    exact ⟨n, hn⟩
  · rintro ⟨n, hn⟩
    exact ⟨n, GoMap.mem_keys_of_get hn, hn⟩

/-- What the parent does keeps the children up to date: a child that something is on its way to need not
be. -/
theorem upToDate_parent {a : NodeAction γ} (hcl : ClientsHeld s.parent) (hown : ChildsOwned s.parent)
    (h : s.UpToDate) (hstep : s.step conf (.parent a) = some s') : s'.UpToDate := by
  obtain ⟨parent, hparent, rfl⟩ := Option.map_eq_some_iff.mp hstep
  intro conn hconnected hidle
  obtain ⟨n, hn⟩ := connected_iff.mp hconnected
  rcases notified_step hcl hown hparent hn with hnotified | ⟨m, hm, hmc⟩ | hkeeps
  · exact absurd (Or.inl hnotified) hidle
  · exact absurd (Or.inr ⟨m, List.mem_append_right _ hm, hmc⟩) hidle
  · have hidle' : ¬ s.Pending conn := by
      rintro (⟨u, hu, hnotifies⟩ | ⟨m, hm, hmc⟩)
      · exact hidle (Or.inl ⟨u, hkeeps.tasks u hu hnotifies, hnotifies⟩)
      · exact hidle (Or.inr ⟨m, List.mem_append_left _ hm, hmc⟩)
    obtain ⟨hchilds, hneighbor⟩ := h conn (connected_iff.mpr ⟨n, hkeeps.client⟩) hidle'
    exact ⟨hchilds.trans (congrArg some hkeeps.childs.symm), hneighbor.trans hkeeps.neighbor.symm⟩

/-- The handling of a message keeps the children up to date exactly when it is handled in order. -/
theorem upToDate_deliver_iff {conn : γ} {msg : RouterMessage} (h : s.UpToDate)
    (hstep : s.step conf (.deliver conn msg) = some s') :
    s'.UpToDate ↔ s.HandlesInOrder (.deliver conn msg) := by
  obtain ⟨-, hs'⟩ := Option.ite_none_right_eq_some.mp hstep
  obtain rfl := Option.some.inj hs'
  have hself : Function.update s.children conn ((s.children conn).updateRouter (some msg)).1 conn =
      { s.children conn with neighbor := msg.childs, parentNeighbor := msg.neighbor } := by
    rw [Function.update_self, ClusterRouter.updateRouter_some]
  constructor
  · intro h' hconnected
    by_cases hidle : { s with inFlight := s.inFlight.erase (conn, msg) }.Pending conn
    · exact Or.inr hidle
    · left
      have hagrees := h' conn hconnected hidle
      unfold Agrees at hagrees
      simp only [hself] at hagrees
      exact hagrees
  · intro hok conn' hconnected hidle
    by_cases hconn : conn' = conn
    · subst hconn
      have hcurrent := (hok hconnected).resolve_right hidle
      unfold Agrees
      simp only [hself]
      exact hcurrent
    · -- the other children do not notice
      have hidle' : ¬ s.Pending conn' := by
        rintro (htask | ⟨m, hm, hmc⟩)
        · exact hidle (Or.inl htask)
        · have hne : m ≠ (conn, msg) := by
            rintro rfl
            exact hconn hmc.symm
          exact hidle (Or.inr ⟨m, (List.mem_erase_of_ne hne).mpr hm, hmc⟩)
      have hagrees := h conn' hconnected hidle'
      unfold Agrees at hagrees ⊢
      simp only [Function.update_of_ne hconn]
      exact hagrees

theorem upToDate_step_iff {a : FamilyAction γ} (hcl : ClientsHeld s.parent) (hown : ChildsOwned s.parent)
    (h : s.UpToDate) (hstep : s.step conf a = some s') : s'.UpToDate ↔ s.HandlesInOrder a := by
  cases a with
  | parent a => exact iff_of_true (upToDate_parent hcl hown h hstep) trivial
  | deliver conn msg => exact upToDate_deliver_iff h hstep

theorem held_step {a : FamilyAction γ} (h : ClientsHeld s.parent ∧ ChildsOwned s.parent)
    (hstep : s.step conf a = some s') : ClientsHeld s'.parent ∧ ChildsOwned s'.parent := by
  cases a with
  | parent a =>
      obtain ⟨parent, hparent, rfl⟩ := Option.map_eq_some_iff.mp hstep
      exact ⟨clientsHeld_step h.1 hparent, childsOwned_step h.2 hparent⟩
  | deliver conn msg =>
      obtain ⟨-, hs'⟩ := Option.ite_none_right_eq_some.mp hstep
      obtain rfl := Option.some.inj hs'
      exact h

omit [DecidableEq γ] in
theorem held_init (children : γ → ClusterRouter) :
    ClientsHeld (init children).parent ∧ ChildsOwned (init children).parent := by
  refine ⟨clientsHeld_init γ, fun p hp => ?_⟩
  exact absurd (by simp [init, Node.init, defaultClusterRouter]) hp

theorem upToDate_init (children : γ → ClusterRouter) : (init children).UpToDate := by
  rintro conn ⟨n, -, hn⟩
  simp [init, Node.init] at hn

/-- In a run of a parent and its children, the tables of every connected child agree with the parent's
whenever nothing is on its way to the child, exactly when no child handles an outdated message as its last
one. -/
theorem neighbours_follow_iff (conf : HandlerConf) (children : γ → ClusterRouter)
    {actions : List (FamilyAction γ)} {s' : Family γ}
    (hrun : runSteps (step conf) (init children) actions = some s') :
    (∀ past s, past <+: actions → runSteps (step conf) (init children) past = some s →
      ∀ conn, s.Connected conn → ¬ s.Pending conn →
        (s.children conn).neighbor = some s.parent.router.childs ∧
        (s.children conn).parentNeighbor = s.parent.router.neighbor) ↔
    StepsMeet (step conf) HandlesInOrder (init children) actions :=
  forall_prefix_iff_stepsMeet (I := fun s => ClientsHeld s.parent ∧ ChildsOwned s.parent)
    (F := UpToDate) (fun hI _ hstep => held_step hI hstep)
    (fun hI hF hstep => upToDate_step_iff hI.1 hI.2 hF hstep) (held_init children) (upToDate_init children) hrun

/-- A child connects, up to the start of the broadcast that announces it. -/
def join (name addr : String) (conn : ℕ) : List (FamilyAction ℕ) :=
  [.parent (.request name name addr 0 conn),
    .parent (.run plainChoice (.checking ⟨name, name, addr, 0, ""⟩ conn)),
    .parent (.run plainChoice (.upgrading ⟨name, name, addr, 0, "root"⟩ conn)),
    .parent (.run plainChoice (.connecting ⟨name, name, addr, 0, "root"⟩ conn)),
    .parent (.run plainChoice (.connected ⟨name, name, addr, 0, "root"⟩ conn)),
    .parent (.run plainChoice (.announcing ⟨name, name, addr, 0, "root"⟩ conn))]

/-- The notification that announces the first child. -/
def firstNotice : RouterMessage := ⟨some (GoMap.ofList [("e1", "a1")]), none, none⟩

/-- The notification that announces the second child. -/
def secondNotice : RouterMessage := ⟨some (GoMap.ofList [("e1", "a1"), ("e2", "a2")]), none, none⟩

/-- Both broadcasts, and the writes they start for the two clients. -/
def sendBoth : List (FamilyAction ℕ) :=
  [.parent (.run plainChoice (.broadcast secondNotice)), .parent (.run plainChoice (.broadcast firstNotice)),
    .parent (.run plainChoice (.write 1 secondNotice)), .parent (.run plainChoice (.write 2 secondNotice)),
    .parent (.run plainChoice (.write 1 firstNotice)), .parent (.run plainChoice (.write 2 firstNotice))]

/-- Two children join; the first one handles the two notifications in the given order. -/
def twoJoin (first second : RouterMessage) : List (FamilyAction ℕ) :=
  join "e1" "a1" 1 ++ join "e2" "a2" 2 ++ sendBoth ++
    [.deliver 2 firstNotice, .deliver 2 secondNotice, .deliver 1 first, .deliver 1 second]

/-- The newer notification is handled first: when everything has been handled, the first child does not
know the second one. -/
theorem stale_neighbours_win :
    ∃ s, runSteps (step ⟨"root", ""⟩) (init fun _ => defaultClusterRouter)
        (twoJoin secondNotice firstNotice) = some s ∧
      s.Connected 1 ∧ ¬ s.Pending 1 ∧ ¬ s.Pending 2 ∧
      (s.children 1).neighbor ≠ some s.parent.router.childs :=
  exists_run (by decide)

/-- Handled in the order in which they were built, the notifications leave both children with the table of
their parent. -/
theorem neighbours_follow_two_children :
    ∃ s, runSteps (step ⟨"root", ""⟩) (init fun _ => defaultClusterRouter)
        (twoJoin firstNotice secondNotice) = some s ∧
      (s.children 1).neighbor = some s.parent.router.childs ∧
      (s.children 2).neighbor = some s.parent.router.childs := by
  obtain ⟨s, hs, ⟨hone, hidle₁⟩, htwo, hidle₂⟩ : ∃ s, runSteps (step ⟨"root", ""⟩)
      (init fun _ => defaultClusterRouter) (twoJoin firstNotice secondNotice) = some s ∧
      (s.Connected 1 ∧ ¬ s.Pending 1) ∧ s.Connected 2 ∧ ¬ s.Pending 2 := exists_run (by decide)
  have hfollow := (neighbours_follow_iff ⟨"root", ""⟩ (fun _ => defaultClusterRouter) hs).mpr (by decide)
    _ s (List.prefix_refl _) hs
  exact ⟨s, hs, (hfollow 1 hone hidle₁).1, (hfollow 2 htwo hidle₂).1⟩

end Family

/-! ## One change at a time -/

/-- The steps of a parent that may change `Childs` or `Neighbor`. -/
def NodeAction.changesTables : NodeAction γ → Bool
  | .run _ (.connected _ _) => true
  | .run _ (.closeChild _) => true
  | .parentMessage _ => true
  | _ => false

/-- Every notification that is about to be sent says what the tables are now. -/
def NoticesCurrent (s : Node γ) : Prop := ∀ t ∈ s.tasks, ∀ msg ∈ t.notice, msg.Current s.router

/-- A goroutine takes a step and leaves the tables as they are: what it starts must be current. -/
theorem noticesCurrent_swap {s s' : Node γ} {t : Task γ} {new : List (Task γ)} (h : NoticesCurrent s)
    (htasks : s'.tasks = swap s.tasks t new) (hchilds : s'.router.childs = s.router.childs)
    (hneighbor : s'.router.neighbor = s.router.neighbor)
    (hnew : ∀ u ∈ new, ∀ msg ∈ u.notice, msg.Current s.router) : NoticesCurrent s' := by
  intro u hu msg hmsg
  rw [RouterMessage.Current, hchilds, hneighbor]
  rw [htasks] at hu
  rcases of_mem_swap hu with hu | hu
  · exact hnew u hu msg hmsg
  · exact h u hu msg hmsg

theorem current_neighborRouterMessage (r : ClusterRouter) : r.neighborRouterMessage.Current r := ⟨rfl, rfl⟩

/-- Goroutines that do not change the tables send what the tables are. -/
theorem noticesCurrent_runTask {conf : HandlerConf} {c : Choice} {s : Node γ} {t : Task γ}
    (h : NoticesCurrent s) (ht : t ∈ s.tasks) (hkeeps : (NodeAction.run c t).changesTables = false) :
    NoticesCurrent (s.runTask conf c t) ∧ (s.runTask conf c t).router.childs = s.router.childs ∧
      (s.runTask conf c t).router.neighbor = s.router.neighbor := by
  cases t with
  | checking cr conn =>
      simp only [Node.runTask]
      split
      · exact ⟨noticesCurrent_swap h rfl rfl rfl (by simp), rfl, rfl⟩
      · exact ⟨noticesCurrent_swap h rfl rfl rfl (by simp [Task.notice]), rfl, rfl⟩
  | upgrading cr conn =>
      simp only [Node.runTask]
      split
      · exact ⟨noticesCurrent_swap h rfl rfl rfl (by simp [Task.notice]), rfl, rfl⟩
      · exact ⟨noticesCurrent_swap h rfl rfl rfl (by simp), rfl, rfl⟩
  | connecting cr conn =>
      simp only [Node.runTask]
      split
      · exact ⟨noticesCurrent_swap h rfl rfl rfl (by simp), rfl, rfl⟩
      · exact ⟨noticesCurrent_swap h rfl rfl rfl (by simp [Task.notice]), rfl, rfl⟩
  | connected cr conn => cases hkeeps
  | announcing cr conn =>
      refine ⟨noticesCurrent_swap h rfl rfl rfl ?_, rfl, rfl⟩
      simp [Task.notice, current_neighborRouterMessage]
  | reading cr conn => exact ⟨noticesCurrent_swap h rfl rfl rfl (by simp [Task.notice]), rfl, rfl⟩
  | closing cr conn => exact ⟨noticesCurrent_swap h rfl rfl rfl (by simp), rfl, rfl⟩
  | closeChild cr => cases hkeeps
  | closed cr =>
      refine ⟨noticesCurrent_swap h rfl rfl rfl ?_, rfl, rfl⟩
      simp [Task.notice, current_neighborRouterMessage]
  | handler hd => exact ⟨noticesCurrent_swap h rfl rfl rfl (by simp [Task.notice]), rfl, rfl⟩
  | worker hd => exact ⟨noticesCurrent_swap h rfl rfl rfl (by simp [Task.notice]), rfl, rfl⟩
  | broadcast msg =>
      refine ⟨noticesCurrent_swap h rfl rfl rfl ?_, rfl, rfl⟩
      intro u hu msg' hmsg'
      obtain ⟨n, -, hn⟩ := List.mem_filterMap.mp hu
      obtain ⟨conn, -, rfl⟩ := Option.map_eq_some_iff.mp hn
      obtain rfl := Option.some.inj hmsg'
      exact h _ ht msg rfl
  | write conn msg => exact ⟨noticesCurrent_swap h rfl rfl rfl (by simp), rfl, rfl⟩

/-- So does anything else that does not change the tables. -/
theorem noticesCurrent_step {conf : HandlerConf} {s s' : Node γ} {a : NodeAction γ} (h : NoticesCurrent s)
    (hkeeps : a.changesTables = false) (hstep : s.step conf a = some s') :
    NoticesCurrent s' ∧ s'.router.childs = s.router.childs ∧ s'.router.neighbor = s.router.neighbor := by
  cases a with
  | parentMessage msg => cases hkeeps
  | run c t =>
      obtain ⟨ht, hs'⟩ := Option.ite_none_right_eq_some.mp hstep
      obtain rfl := Option.some.inj hs'
      exact noticesCurrent_runTask h ht hkeeps
  | _ =>
      have hcomes := comesIn_step (by simp) (by simp) hstep
      obtain ⟨new, htasks, hnew⟩ := hcomes.tasks
      refine ⟨fun u hu msg hmsg => ?_, by rw [hcomes.router], by rw [hcomes.router]⟩
      rw [hcomes.router]
      rw [htasks] at hu
      rcases List.mem_append.mp hu with hu | hu
      · rw [hnew u hu] at hmsg
        cases hmsg
      · exact h u hu msg hmsg

/-- A step that may change the tables, taken when nothing is about to be sent, leaves nothing to be sent but the
new tables. -/
theorem noticesCurrent_change {conf : HandlerConf} {s s' : Node γ} {a : NodeAction γ}
    (hquiet : ∀ t ∈ s.tasks, t.notice = none) (hchange : a.changesTables = true)
    (hstep : s.step conf a = some s') : NoticesCurrent s' := by
  -- a goroutine starts no broadcast in the step that changes the tables
  have hswap : ∀ {s'' : Node γ} {t : Task γ} {new : List (Task γ)}, s''.tasks = swap s.tasks t new →
      (∀ u ∈ new, u.notice = none) → NoticesCurrent s'' := by
    intro s'' t new htasks hnew u hu msg hmsg
    rw [htasks] at hu
    have hnone : u.notice = none := (of_mem_swap hu).elim (hnew u) (hquiet u)
    rw [hnone] at hmsg
    cases hmsg
  cases a with
  | request cluster name listenAddr now conn => cases hchange
  | receive cr conn msg => cases hchange
  | take => cases hchange
  | parentMessage msg =>
      obtain rfl := Option.some.inj hstep
      intro u hu msg' hmsg'
      rcases List.mem_append.mp hu with hu | hu
      · obtain ⟨notice, hnotice, rfl⟩ := Option.map_eq_some_iff.mp (Option.mem_toList.mp hu)
        obtain rfl := Option.some.inj hmsg'
        cases msg with
        | none => cases hnotice
        | some parentRouter =>
            rw [ClusterRouter.updateRouter_message hnotice]
            show RouterMessage.Current _ (s.router.updateRouter (some parentRouter)).1
            rw [ClusterRouter.updateRouter_some]
            exact ⟨rfl, rfl⟩
      · rw [hquiet u hu] at hmsg'
        cases hmsg'
  | run c t =>
      obtain ⟨-, hs'⟩ := Option.ite_none_right_eq_some.mp hstep
      obtain rfl := Option.some.inj hs'
      cases t with
      | connected cr conn =>
          simp only [Node.runTask]
          split
          · exact hswap rfl (by simp [Task.notice])
          · exact hswap rfl (by simp [Task.notice])
      | closeChild cr => exact hswap rfl (by simp [Task.notice])
      | _ => cases hchange

namespace Family

variable {conf : HandlerConf} {s s' : Family γ} {a : FamilyAction γ}

/-- The parent changes its tables only when no notification is being sent or on its way. -/
def Calm (s : Family γ) : FamilyAction γ → Prop
  | .parent a => a.changesTables = true → s.inFlight = [] ∧ ∀ t ∈ s.parent.tasks, t.notice = none
  | .deliver _ _ => True

instance (s : Family γ) : ∀ a : FamilyAction γ, Decidable (s.Calm a)
  | .parent _ => inferInstanceAs (Decidable (_ → _ ∧ _))
  | .deliver _ _ => .isTrue trivial

/-- Every notification says what the parent's tables are now. -/
def AllCurrent (s : Family γ) : Prop :=
  NoticesCurrent s.parent ∧ ∀ m ∈ s.inFlight, m.2.Current s.parent.router

/-- What a step writes was about to be sent. -/
theorem mem_sent {a : NodeAction γ} {parent : Node γ} (hstep : s.parent.step conf a = some parent)
    {m : γ × RouterMessage} (hm : m ∈ a.sent) : ∃ t ∈ s.parent.tasks, t.notice = some m.2 := by
  cases a with
  | run c t =>
      obtain ⟨ht, -⟩ := Option.ite_none_right_eq_some.mp hstep
      cases t with
      | write conn msg =>
          obtain rfl := List.mem_singleton.mp hm
          exact ⟨_, ht, rfl⟩
      | _ => cases hm
  | _ => cases hm

theorem AllCurrent.step (h : s.AllCurrent) (hcalm : s.Calm a) (hstep : s.step conf a = some s') :
    s'.AllCurrent := by
  cases a with
  | deliver conn msg =>
      obtain ⟨-, hs'⟩ := Option.ite_none_right_eq_some.mp hstep
      obtain rfl := Option.some.inj hs'
      exact ⟨h.1, fun m hm => h.2 m (List.mem_of_mem_erase hm)⟩
  | parent a =>
      obtain ⟨parent, hparent, rfl⟩ := Option.map_eq_some_iff.mp hstep
      cases hchange : a.changesTables with
      | true =>
          obtain ⟨hempty, hquiet⟩ := hcalm hchange
          refine ⟨noticesCurrent_change hquiet hchange hparent, fun m hm => ?_⟩
          rw [hempty, List.nil_append] at hm
          obtain ⟨t, ht, hnotice⟩ := mem_sent hparent hm
          rw [hquiet t ht] at hnotice
          cases hnotice
      | false =>
          obtain ⟨hcurrent, hchilds, hneighbor⟩ := noticesCurrent_step h.1 hchange hparent
          refine ⟨hcurrent, fun m hm => ?_⟩
          show m.2.Current parent.router
          rw [RouterMessage.Current, hchilds, hneighbor]
          rcases List.mem_append.mp hm with hm | hm
          · exact h.2 m hm
          · obtain ⟨t, ht, hnotice⟩ := mem_sent hparent hm
            exact h.1 t ht m.2 hnotice

/-- What is handled is then current. -/
theorem AllCurrent.handlesInOrder (h : s.AllCurrent) (hstep : s.step conf a = some s') :
    s.HandlesInOrder a := by
  cases a with
  | parent a => trivial
  | deliver conn msg =>
      obtain ⟨hmem, -⟩ := Option.ite_none_right_eq_some.mp hstep
      exact fun _ => Or.inl (h.2 _ (List.contains_iff_mem.mp hmem))

/-- Two children join, the second one when the notification about the first has been handled. -/
def joinInTurn : List (FamilyAction ℕ) :=
  join "e1" "a1" 1 ++ [.parent (.run plainChoice (.broadcast firstNotice)),
    .parent (.run plainChoice (.write 1 firstNotice)), .deliver 1 firstNotice] ++
  join "e2" "a2" 2 ++ [.parent (.run plainChoice (.broadcast secondNotice)),
    .parent (.run plainChoice (.write 2 secondNotice)), .parent (.run plainChoice (.write 1 secondNotice)),
    .deliver 2 secondNotice, .deliver 1 secondNotice]

end Family

end OteStack
