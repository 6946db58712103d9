/-
# OteStack.ClusterHandler.LiveRoutes — whether routes outlive the connection of their port.

Routes through a child are added by the handling of its registration and of its subtree reports, and
deleted by the handling of its unregistration.  Registration and unregistration run in goroutines of
their own, reports wait in the queue: a report may be handled after the unregistration, and then its
routes stay although the child is gone (`late_report_leaves_route`).

A port is covered while somebody will still delete its routes if its connection ends: an attempt to
connect or a connection that is up, a `closeChild`, a pending unregistration.  `routesCovered_step` says
that a step keeps every route covered when routes are only added through covered ports and no attempt is
given up as the last cover of a port with routes; `routes_connected_of_run` draws the conclusion for
runs.
-/
import OteStack.ClusterHandler.Connections

namespace OteStack

open OteStack.Lib (GoMap MapOrder runSteps runSteps_invariant_of_meet StepsMeet)
open OteStack.Lib.TaskPool
open SubTreeRouter

/-! ## What the handling of a message does to the routes -/

/-- The route that the next step of the handling asks `AddRoute` for: its target and its port. -/
def Handling.adds : Handling → Option (String × String)
  | .start client (.regist (some cr)) => some (cr.name, client)
  | .adding port (dest :: _) _ => some (dest, port)
  | _ => none

/-- The port all of whose routes the next step of the handling deletes. -/
def Handling.unregists : Handling → Option String
  | .start client (.unregist (some cr)) => if cr.name = client then some client else none
  | _ => none

theorem get_delRoute_eq_some {it : MapOrder String} {r : SubTreeRouter} {dest port k p : String}
    (h : (delRoute it r dest port).get k = some p) :
    r.get k = some p ∧ (dest = port → p ≠ port) := by
  rw [get_delRoute] at h
  split at h
  · cases h
  · rename_i hkeep
    refine ⟨h, ?_⟩
    rintro hdest rfl
    exact hkeep (Or.inr ⟨hdest, h⟩)

theorem get_afterAddRoute_eq_some {r : SubTreeRouter} {dest port k p : String}
    (h : (afterAddRoute r dest port).get k = some p) :
    r.get k = some p ∨ (dest, port) = (k, p) ∧ r.get k = none := by
  rw [get_afterAddRoute] at h
  split at h
  · rename_i hfree
    obtain ⟨rfl, hnone⟩ := hfree
    exact Or.inr ⟨by rw [Option.some.inj h], hnone⟩
  · exact Or.inl h

/-- A route after a step was there before, and not through the port being unregistered, or is the one
that the step adds. -/
theorem Handling.get_step {it : MapOrder String} {r : SubTreeRouter} {h : Handling} {k p : String}
    (hk : (h.step it r).1.get k = some p) :
    (r.get k = some p ∧ h.unregists ≠ some p) ∨ (h.adds = some (k, p) ∧ r.get k = none) := by
  have hquiet : h.unregists = none → (h.step it r).1 = r →
      (r.get k = some p ∧ h.unregists ≠ some p) := by
    intro hnone hsame
    rw [hsame] at hk
    exact ⟨hk, by simp [hnone]⟩
  cases h with
  | start client msg =>
      cases msg with
      | undecodable => exact Or.inl (hquiet rfl rfl)
      | other => exact Or.inl (hquiet rfl rfl)
      | regist cr =>
          cases cr with
          | none => exact Or.inl (hquiet rfl rfl)
          | some cr =>
              rcases get_afterAddRoute_eq_some hk with hold | ⟨hnew, hfree⟩
              · exact Or.inl ⟨hold, by simp [Handling.unregists]⟩
              · exact Or.inr ⟨congrArg some hnew, hfree⟩
      | unregist cr =>
          cases cr with
          | none => exact Or.inl (hquiet rfl rfl)
          | some cr =>
              obtain ⟨hold, hne⟩ := get_delRoute_eq_some hk
              refine Or.inl ⟨hold, ?_⟩
              intro hun
              simp only [Handling.unregists, Option.ite_none_right_eq_some, Option.some.injEq] at hun
              exact hne hun.1 hun.2.symm
      | subTreeRoute port subtrees =>
          cases subtrees with
          | none => exact Or.inl (hquiet rfl rfl)
          | some subtrees => exact Or.inl (hquiet rfl rfl)
  | adding port dests subtrees =>
      cases dests with
      | nil => exact Or.inl (hquiet rfl rfl)
      | cons dest dests =>
          rcases get_afterAddRoute_eq_some hk with hold | ⟨hnew, hfree⟩
          · exact Or.inl ⟨hold, by simp [Handling.unregists]⟩
          · exact Or.inr ⟨congrArg some hnew, hfree⟩
  | listing port subtrees => exact Or.inl (hquiet rfl rfl)
  | deleting port cs subtrees =>
      cases cs with
      | nil => exact Or.inl (hquiet rfl rfl)
      | cons c cs =>
          refine Or.inl ⟨?_, by simp [Handling.unregists]⟩
          simp only [Handling.step] at hk
          split at hk
          · exact (get_delRoute_eq_some hk).1
          · exact hk

/-! ## Covered ports -/

section Cover

variable {γ : Type}

/-- The port whose routes will be deleted if its connection ends, thanks to this goroutine. -/
def Task.covers : Task γ → Option String
  | .upgrading cr _ => some cr.name
  | .connecting cr _ => some cr.name
  | .connected cr _ => some cr.name
  | .announcing cr _ => some cr.name
  | .reading cr _ => some cr.name
  | .closeChild cr => some cr.name
  | .closed cr => some cr.name
  | .handler h => h.unregists
  | .worker h => h.unregists
  | _ => none

/-- Some goroutine covers the port. -/
def CoveredBy (tasks : List (Task γ)) (p : String) : Prop := ∃ t ∈ tasks, t.covers = some p

instance (tasks : List (Task γ)) (p : String) : Decidable (CoveredBy tasks p) :=
  inferInstanceAs (Decidable (∃ t ∈ tasks, t.covers = some p))

/-- Some route goes through the port. -/
def RoutedThrough (r : SubTreeRouter) (p : String) : Prop := ∃ k ∈ r.keys, r.get k = some p

instance (r : SubTreeRouter) (p : String) : Decidable (RoutedThrough r p) :=
  inferInstanceAs (Decidable (∃ k ∈ r.keys, r.get k = some p))

/-- Every port with routes is covered. -/
def RoutesCovered (s : Node γ) : Prop :=
  ∀ k p, s.router.subtreeRouter.get k = some p → CoveredBy s.tasks p

/-- The route that the goroutine's next step adds if its target has none. -/
def Task.adds : Task γ → Option (String × String)
  | .handler h => h.adds
  | .worker h => h.adds
  | _ => none

/-- The name whose attempt to connect ends with this step: the upgrade fails, or another connection of
that name is there already. -/
def Task.givesUp (c : Choice) (s : Node γ) : Task γ → Option String
  | .upgrading cr _ => if c.upgraded then none else some cr.name
  | .connecting cr _ => if s.clients.get cr.name = none then none else some cr.name
  | _ => none

variable [DecidableEq γ]

/-- A route is only added through a covered port, and no attempt is given up as the last cover of a
port with routes. -/
def RoutesBacked (s : Node γ) : NodeAction γ → Prop
  | .run c t =>
      (∀ route ∈ t.adds, s.router.subtreeRouter.get route.1 = none → CoveredBy s.tasks route.2) ∧
        ∀ p ∈ t.givesUp c s, RoutedThrough s.router.subtreeRouter p →
          CoveredBy (s.tasks.erase t) p
  | _ => True

instance (s : Node γ) : (a : NodeAction γ) → Decidable (RoutesBacked s a)
  | .run c t => inferInstanceAs (Decidable ((∀ route ∈ t.adds, _ → _) ∧ ∀ p ∈ t.givesUp c s, _ → _))
  | .request .. => .isTrue trivial
  | .receive .. => .isTrue trivial
  | .take => .isTrue trivial
  | .parentMessage _ => .isTrue trivial

/-- A port stays covered when its cover is passed on. -/
theorem CoveredBy.swap {tasks new : List (Task γ)} {t : Task γ} {p : String}
    (h : CoveredBy tasks p) (hpass : t.covers = some p → CoveredBy new p) :
    CoveredBy (swap tasks t new) p := by
  obtain ⟨u, hu, hcov⟩ := h
  by_cases hut : u = t
  · obtain ⟨v, hv, hv'⟩ := hpass (hut ▸ hcov)
    exact ⟨v, mem_swap.mpr (Or.inl hv), hv'⟩
  · exact ⟨u, mem_swap_of_mem new hu hut, hcov⟩

/-- A step that does not touch the routes and passes its cover on. -/
theorem RoutesCovered.replace {s s' : Node γ} {t : Task γ} {new : List (Task γ)}
    (h : RoutesCovered s) (hr : s'.router.subtreeRouter = s.router.subtreeRouter)
    (ht : s'.tasks = swap s.tasks t new) (hpass : ∀ p, t.covers = some p → CoveredBy new p) :
    RoutesCovered s' := by
  intro k p hk
  rw [hr] at hk
  rw [ht]
  exact (h k p hk).swap (hpass p)

/-- An attempt that is given up while somebody else covers its port, or nobody needs to. -/
theorem RoutesCovered.giveUp {s : Node γ} {t : Task γ} {cr : ClusterRegistry}
    (h : RoutesCovered s) (hcov : t.covers = some cr.name)
    (hback : RoutedThrough s.router.subtreeRouter cr.name → CoveredBy (s.tasks.erase t) cr.name) :
    RoutesCovered (s.replace t []) := by
  intro k p hk
  by_cases hp : p = cr.name
  · subst hp
    exact hback ⟨k, GoMap.mem_keys_of_get hk, hk⟩
  · refine (h k p hk).swap fun hcov' => ?_
    rw [hcov] at hcov'
    exact absurd (Option.some.inj hcov').symm hp

/-- A step of the handling of a message. -/
theorem RoutesCovered.handle {c : Choice} {s : Node γ} {t : Task γ} {h : Handling}
    {goOn : Handling → Task γ} (hs : RoutesCovered s) (hcov : t.covers = h.unregists)
    (hback : ∀ route ∈ h.adds, s.router.subtreeRouter.get route.1 = none →
      CoveredBy s.tasks route.2) :
    RoutesCovered (s.handle c t h goOn) := by
  intro k p hk
  rcases Handling.get_step hk with ⟨hold, hun⟩ | ⟨hadd, hfree⟩
  · exact (hs k p hold).swap fun hcov' => absurd (hcov.symm.trans hcov') hun
  · refine (hback (k, p) hadd hfree).swap fun hcov' => ?_
    -- what adds a route unregisters nobody
    rw [hcov] at hcov'
    cases h with
    | start client msg => cases msg <;> simp_all [Handling.adds, Handling.unregists]
    | adding port dests subtrees => cases hcov'
    | listing port subtrees => cases hcov'
    | deleting port cs subtrees => cases hcov'

theorem routesCovered_runTask {conf : HandlerConf} {c : Choice} {s : Node γ} {t : Task γ}
    (h : RoutesCovered s) (hback : RoutesBacked s (.run c t)) :
    RoutesCovered (s.runTask conf c t) := by
  obtain ⟨hadd, hgive⟩ := hback
  cases t with
  | checking cr conn =>
      simp only [Node.runTask]
      split
      · exact h.replace rfl rfl fun p hp => by cases hp
      · exact h.replace rfl rfl fun p hp => by cases hp
  | upgrading cr conn =>
      simp only [Node.runTask]
      split
      · exact h.replace rfl rfl fun p hp => ⟨_, List.mem_singleton_self _, hp⟩
      · rename_i hfail
        exact h.giveUp rfl (hgive cr.name (by simp [Task.givesUp, hfail]))
  | connecting cr conn =>
      simp only [Node.runTask]
      split
      · rename_i hclient
        exact h.giveUp rfl (hgive cr.name (by simp [Task.givesUp, hclient]))
      · exact h.replace rfl rfl fun p hp => ⟨_, List.mem_singleton_self _, hp⟩
  | connected cr conn =>
      simp only [Node.runTask]
      split
      · rename_i hok
        rw [(ClusterRouter.get_childs_of_addChild hok).2]
        exact h.replace rfl rfl fun p hp => ⟨_, List.mem_singleton_self _, hp⟩
      · exact h.replace rfl rfl fun p hp => ⟨_, List.mem_singleton_self _, hp⟩
  | announcing cr conn => exact h.replace rfl rfl fun p hp => ⟨_, List.mem_cons_self, hp⟩
  | reading cr conn =>
      exact h.replace rfl rfl fun p hp => ⟨_, List.mem_cons_of_mem _ List.mem_cons_self, hp⟩
  | closing cr conn => exact h.replace rfl rfl fun p hp => by cases hp
  | closeChild cr =>
      refine h.replace ?_ rfl fun p hp => ⟨_, List.mem_singleton_self _, hp⟩
      exact ClusterRouter.delChild_subtreeRouter s.router cr.name
  | closed cr =>
      refine h.replace rfl rfl fun p hp => ⟨_, List.mem_cons_of_mem _ List.mem_cons_self, ?_⟩
      simp only [Task.covers, Handling.unregists, if_true]
      exact hp
  | handler hd => exact h.handle rfl hadd
  | worker hd => exact h.handle rfl hadd
  | broadcast msg => exact h.replace rfl rfl fun p hp => by cases hp
  | write conn msg => exact h.replace rfl rfl fun p hp => by cases hp

theorem routesCovered_step {conf : HandlerConf} {s s' : Node γ} {a : NodeAction γ}
    (h : RoutesCovered s) (hback : RoutesBacked s a) (hstep : s.step conf a = some s') :
    RoutesCovered s' := by
  rcases Node.step_cases hstep with ⟨c, t, rfl, ht, rfl⟩ | harr
  · exact routesCovered_runTask h hback
  · obtain ⟨new, htasks, -⟩ := harr.tasks
    intro k p hk
    rw [harr.subtreeRouter] at hk
    obtain ⟨u, hu, hcov⟩ := h k p hk
    exact ⟨u, by rw [htasks]; exact List.mem_append_right new hu, hcov⟩

/-! ## Runs -/

/-- The goroutine of an established connection. -/
def Task.isReading : Task γ → Bool
  | .reading _ _ => true
  | _ => false

/-- Nothing is queued, and nothing is pending but the reading of established connections. -/
def Node.Quiescent (s : Node γ) : Prop :=
  s.childMessageChan = [] ∧ ∀ t ∈ s.tasks, t.isReading = true

instance (s : Node γ) : Decidable s.Quiescent :=
  inferInstanceAs (Decidable (_ ∧ ∀ t ∈ s.tasks, t.isReading = true))

/-- In every run whose steps add routes only through covered ports and give no attempt up as the last
cover of a port with routes, when nothing is queued or pending every port of the table is a connected
client. -/
theorem routes_connected_of_run (conf : HandlerConf) {as : List (NodeAction γ)} {s : Node γ}
    (hback : StepsMeet (Node.step conf) RoutesBacked (Node.init γ) as)
    (hrun : runSteps (Node.step conf) (Node.init γ) as = some s) (hs : s.Quiescent) :
    ∀ k p, s.router.subtreeRouter.get k = some p → s.clients.get p ≠ none := by
  have hinit : ClientsHeld (Node.init γ) ∧ RoutesCovered (Node.init γ) := by
    refine ⟨clientsHeld_init γ, ?_⟩
    intro k p hk
    simp [Node.init, defaultClusterRouter] at hk
  obtain ⟨hcl, hcov⟩ : ClientsHeld s ∧ RoutesCovered s :=
    runSteps_invariant_of_meet (I := fun s => ClientsHeld s ∧ RoutesCovered s)
      (fun hI hok hstep => ⟨clientsHeld_step hI.1 hstep, routesCovered_step hI.2 hok hstep⟩)
      hinit hback hrun
  intro k p hk
  obtain ⟨t, ht, hp⟩ := hcov k p hk
  have hreading := hs.2 t ht
  refine hcl.mem_iff.mpr ⟨t, ht, ?_⟩
  cases t <;> first | exact hp | cases hreading

end Cover

/-- The subtree report of `edge`, which has one child `leaf`. -/
def edgeReport : SubTreeRouter := GoMap.ofList [("leaf", "leaf")]

/-- The handling of the report, step by step. -/
def handleReportOfEdge : List (NodeAction ℕ) :=
  [.take, .run plainChoice (.worker (.start "edge" (.subTreeRoute "edge" (some edgeReport)))),
    .run plainChoice (.worker (.adding "edge" ["leaf"] edgeReport)),
    .run plainChoice (.worker (.adding "edge" [] edgeReport)),
    .run plainChoice (.worker (.listing "edge" edgeReport)),
    .run plainChoice (.worker (.deleting "edge" ["leaf"] edgeReport)),
    .run plainChoice (.worker (.deleting "edge" [] edgeReport))]

/-- The child connects, is registered and announced, and sends its report. -/
def reportingEdge : List (NodeAction ℕ) :=
  connectEdge 1 ++
    [.run plainChoice (.handler (.start "edge" (.regist (some edgeRegistry)))),
      .run plainChoice (.announcing edgeRegistry 1),
      .receive edgeRegistry 1 (.subTreeRoute "edge" (some edgeReport))]

/-- What the children are told: who the children are. -/
def childsNotice (childs : GoMap String String) : RouterMessage := ⟨some childs, none, none⟩

/-- What the children are told when `edge` has been added. -/
def edgeAdded : RouterMessage := childsNotice (GoMap.ofList [("edge", "10.0.0.2:8272")])

/-- The child disconnects and is unregistered while its report is still queued. -/
def lateReport : List (NodeAction ℕ) :=
  reportingEdge ++
    [.run plainChoice (.reading edgeRegistry 1), .run plainChoice (.closing edgeRegistry 1)] ++
    closeEdge ++ [.run plainChoice (.handler (.start "edge" (.unregist (some edgeRegistry))))] ++
    handleReportOfEdge ++
    [.run plainChoice (.broadcast edgeAdded), .run plainChoice (.broadcast (childsNotice ∅))]

/-- A report that is handled after the child has been unregistered leaves a route through a child that
is gone. -/
theorem late_report_leaves_route :
    ∃ s, runSteps (Node.step ⟨"root", ""⟩) (Node.init ℕ) lateReport = some s ∧ s.Quiescent ∧
      s.router.subtreeRouter.get "leaf" = some "edge" ∧ s.clients.get "edge" = none := by
  have hrun : (runSteps (Node.step ⟨"root", ""⟩) (Node.init ℕ) lateReport).map
      (fun s => (decide s.Quiescent, s.router.subtreeRouter.get "leaf", s.clients.get "edge")) =
      some (true, some "edge", none) := by decide
  obtain ⟨s, hs, hend⟩ := Option.map_eq_some_iff.mp hrun
  rw [Prod.mk.injEq, Prod.mk.injEq, decide_eq_true_iff] at hend
  exact ⟨s, hs, hend⟩

/-- The report is handled while the child is connected. -/
def timelyReport : List (NodeAction ℕ) :=
  reportingEdge ++ handleReportOfEdge ++
    [.run plainChoice (.broadcast edgeAdded), .run plainChoice (.write 1 edgeAdded)]

/-- A report that is handled in time leaves a route through a connected child. -/
theorem routes_connected_timelyReport :
    ∃ s, runSteps (Node.step ⟨"root", ""⟩) (Node.init ℕ) timelyReport = some s ∧
      s.router.subtreeRouter.get "leaf" = some "edge" ∧ s.clients.get "edge" ≠ none := by
  have hrun : (runSteps (Node.step ⟨"root", ""⟩) (Node.init ℕ) timelyReport).map
      (fun s => (decide s.Quiescent, s.router.subtreeRouter.get "leaf")) =
      some (true, some "edge") := by decide
  obtain ⟨s, hs, hend⟩ := Option.map_eq_some_iff.mp hrun
  rw [Prod.mk.injEq, decide_eq_true_iff] at hend
  exact ⟨s, hs, hend.2, routes_connected_of_run _ (by decide) hs hend.1 "leaf" "edge" hend.2⟩

end OteStack
