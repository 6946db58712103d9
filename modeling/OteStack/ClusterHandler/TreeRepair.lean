/-
# OteStack.ClusterHandler.TreeRepair — the subtree reports repair the tables of a whole tree.

Every cluster sends its subtree table to its parent now and then (`reportSubTree`); the parent goes
through the report with `AddRoute` and then removes, with `DelRoute`, what it lists under the child and the
report lacks (`updateRouteToSubtree`).  Reports may be lost or overtake each other on the way, and the
ten workers of `handleChildMessage` handle several of them at the same time, call by call.

Here a tree of connected clusters starts with tables that may hold anything, as long as every table
routes to connected children and has the routes to those children themselves.  Reports that were made
before may still be on the way or half handled.  A round is any run in which all reports made before it are
done with, and some report that each child made in it is handled to the end.

`tables_repaired_by_rounds`: after three rounds for every level of the tree, every table routes exactly the
clusters below, each through the right child, and stays so.  Level by level, the first round flushes the
reports of the time when the children's tables were wrong, the second removes the wrong routes and
the third, when no wrong route is in the way any more, installs the missing ones.
-/
import OteStack.Lib.Rounds
import OteStack.ClusterHandler.ClusterTree

namespace OteStack

open OteStack.Lib (GoMap MapOrder runSteps runSteps_invariant Rounds)
open SubTreeRouter

/-! ## Reports on their way -/

/-- Where the handling of a report is: before it, in the loop over the report, or in the loop over the
clusters listed under the child. -/
inductive ReportPhase where
  | sent
  | adding (todo : List String)
  | deleting (todo : List String)
  deriving DecidableEq, Repr

/-- A report of the child `port` to its parent. -/
structure ReportTask where
  parent : String
  port : String
  subtrees : SubTreeRouter
  phase : ReportPhase
  deriving DecidableEq

/-- The tables of the clusters, by name, and the reports that are not done with, by number.  `sent` is how
many reports were made, `handled` the parents, children and numbers of those handled to the end. -/
structure RepairState where
  tables : String → SubTreeRouter
  tasks : GoMap ℕ ReportTask
  sent : ℕ
  handled : List (String × String × ℕ)

/-- The moves: a child reports, a report is lost, or a worker makes the next call for one. -/
inductive RepairAction where
  | report (parent child : String)
  | lose (n : ℕ)
  | start (n : ℕ) (it : MapOrder String)
  | addNext (n : ℕ)
  | list (n : ℕ) (it : MapOrder String)
  | deleteNext (n : ℕ) (it : MapOrder String)
  | finish (n : ℕ)

/-- The clusters of these names are connected. -/
def Cluster.isLink (root : Cluster) (parent child : String) : Bool :=
  root.subtrees.any fun c => c.name == parent && c.clients.any fun d => d.name == child

namespace RepairState

/-- The state with another phase of the report `n`. -/
def setPhase (s : RepairState) (n : ℕ) (t : ReportTask) (phase : ReportPhase) : RepairState :=
  { s with tasks := s.tasks.set n { t with phase := phase } }

/-- The state with another table of the cluster `name`. -/
def setTable (s : RepairState) (name : String) (r : SubTreeRouter) : RepairState :=
  { s with tables := Function.update s.tables name r }

/-- One move in the tree `root`. -/
def step (root : Cluster) (s : RepairState) : RepairAction → Option RepairState
  | .report parent child =>
      if root.isLink parent child then
        some { s with
          tasks := s.tasks.set s.sent ⟨parent, child, s.tables child, .sent⟩
          sent := s.sent + 1 }
      else none
  | .lose n => (s.tasks.get n).bind fun t => match t.phase with
      | .sent => some { s with tasks := s.tasks.delete n }
      | _ => none
  | .start n it => (s.tasks.get n).bind fun t => match t.phase with
      | .sent => some (s.setPhase n t (.adding (it.order t.subtrees)))
      | _ => none
  | .addNext n => (s.tasks.get n).bind fun t => match t.phase with
      | .adding (dest :: todo) =>
          some ((s.setPhase n t (.adding todo)).setTable t.parent
            (afterAddRoute (s.tables t.parent) dest t.port))
      | _ => none
  | .list n it => (s.tasks.get n).bind fun t => match t.phase with
      | .adding [] => some (s.setPhase n t (.deleting (subTreeOfPort it (s.tables t.parent) t.port)))
      | _ => none
  | .deleteNext n it => (s.tasks.get n).bind fun t => match t.phase with
      | .deleting (c :: todo) =>
          some ((s.setPhase n t (.deleting todo)).setTable t.parent
            (if t.subtrees.get c = none then delRoute it (s.tables t.parent) c t.port
              else s.tables t.parent))
      | _ => none
  | .finish n => (s.tasks.get n).bind fun t => match t.phase with
      | .deleting [] =>
          some { s with
            tasks := s.tasks.delete n
            handled := (t.parent, t.port, n) :: s.handled }
      | _ => none

/-- A round: what was reported before it is done with, and of every child a report that was made in it is
handled. -/
def Round (root : Cluster) (s s' : RepairState) : Prop :=
  (∀ n, s'.tasks.get n ≠ none → s.sent ≤ n) ∧
    ∀ c ∈ root.subtrees, ∀ d ∈ c.clients, ∃ n, s.sent ≤ n ∧ (c.name, d.name, n) ∈ s'.handled

/-- Where a run may start from: the tables have routes to connected children only, and those to the
children themselves; reports are from connected children and are handled as far as their phase says. -/
structure Connected (root : Cluster) (s : RepairState) : Prop where
  ports : ∀ c ∈ root.subtrees, ∀ k v, (s.tables c.name).get k = some v → ∃ d ∈ c.clients, d.name = v
  own : ∀ c ∈ root.subtrees, ∀ d ∈ c.clients, (s.tables c.name).get d.name = some d.name
  link : ∀ n t, s.tasks.get n = some t →
    ∃ c ∈ root.subtrees, ∃ d ∈ c.clients, t.parent = c.name ∧ t.port = d.name
  adding : ∀ n t todo, s.tasks.get n = some t → t.phase = .adding todo → ∀ x ∈ todo, t.subtrees.get x ≠ none
  deleting : ∀ n t todo, s.tasks.get n = some t → t.phase = .deleting todo → t.port ∉ todo
  fresh : ∀ n, s.tasks.get n ≠ none → n < s.sent
  done : ∀ p q n, (p, q, n) ∈ s.handled → n < s.sent

/-! ## What a move does -/

variable {root : Cluster} {s s' : RepairState} {a : RepairAction}

/-- The moves with what they need. -/
inductive Transition (root : Cluster) (s : RepairState) : RepairState → Prop where
  | report {c d : Cluster} (hc : c ∈ root.subtrees) (hd : d ∈ c.clients) :
      Transition root s { s with
        tasks := s.tasks.set s.sent ⟨c.name, d.name, s.tables d.name, .sent⟩
        sent := s.sent + 1 }
  | lose {n : ℕ} : Transition root s { s with tasks := s.tasks.delete n }
  | start {n : ℕ} {t : ReportTask} (it : MapOrder String) (ht : s.tasks.get n = some t)
      (hphase : t.phase = .sent) : Transition root s (s.setPhase n t (.adding (it.order t.subtrees)))
  | addNext {n : ℕ} {t : ReportTask} {dest : String} {todo : List String} (ht : s.tasks.get n = some t)
      (hphase : t.phase = .adding (dest :: todo)) :
      Transition root s ((s.setPhase n t (.adding todo)).setTable t.parent
        (afterAddRoute (s.tables t.parent) dest t.port))
  | list {n : ℕ} {t : ReportTask} (it : MapOrder String) (ht : s.tasks.get n = some t)
      (hphase : t.phase = .adding []) :
      Transition root s (s.setPhase n t (.deleting (subTreeOfPort it (s.tables t.parent) t.port)))
  | deleteNext {n : ℕ} {t : ReportTask} {x : String} {todo : List String} (it : MapOrder String)
      (ht : s.tasks.get n = some t) (hphase : t.phase = .deleting (x :: todo)) :
      Transition root s ((s.setPhase n t (.deleting todo)).setTable t.parent
        (if t.subtrees.get x = none then delRoute it (s.tables t.parent) x t.port
          else s.tables t.parent))
  | finish {n : ℕ} {t : ReportTask} (ht : s.tasks.get n = some t) (hphase : t.phase = .deleting []) :
      Transition root s { s with
        tasks := s.tasks.delete n
        handled := (t.parent, t.port, n) :: s.handled }

theorem exists_of_isLink {parent child : String} (h : root.isLink parent child = true) :
    ∃ c ∈ root.subtrees, ∃ d ∈ c.clients, c.name = parent ∧ d.name = child := by
  obtain ⟨c, hc, hcd⟩ := List.any_eq_true.mp h
  rw [Bool.and_eq_true, beq_iff_eq, List.any_eq_true] at hcd
  obtain ⟨hname, d, hd, hdname⟩ := hcd
  exact ⟨c, hc, d, hd, hname, by simpa using hdname⟩

theorem transition_of_step (h : s.step root a = some s') : Transition root s s' := by
  cases a with
  | report parent child =>
      obtain ⟨hlink, hs'⟩ := Option.ite_none_right_eq_some.mp h
      obtain ⟨c, hc, d, hd, rfl, rfl⟩ := exists_of_isLink hlink
      cases hs'
      exact .report hc hd
  | lose n =>
      obtain ⟨t, -, h⟩ := Option.bind_eq_some_iff.mp h
      split at h
      · cases h
        exact .lose
      · cases h
  | start n it =>
      obtain ⟨t, ht, h⟩ := Option.bind_eq_some_iff.mp h
      split at h
      · next hphase =>
          cases h
          exact .start it ht hphase
      · cases h
  | addNext n =>
      obtain ⟨t, ht, h⟩ := Option.bind_eq_some_iff.mp h
      split at h
      · next hphase =>
          cases h
          exact .addNext ht hphase
      · cases h
  | list n it =>
      obtain ⟨t, ht, h⟩ := Option.bind_eq_some_iff.mp h
      split at h
      · next hphase =>
          cases h
          exact .list it ht hphase
      · cases h
  | deleteNext n it =>
      obtain ⟨t, ht, h⟩ := Option.bind_eq_some_iff.mp h
      split at h
      · next hphase =>
          cases h
          exact .deleteNext it ht hphase
      · cases h
  | finish n =>
      obtain ⟨t, ht, h⟩ := Option.bind_eq_some_iff.mp h
      split at h
      · next hphase =>
          cases h
          exact .finish ht hphase
      · cases h

/-- What a move does to one entry of a table: nothing, or the entry is free and a worker adds it, or it is
one of its port and a worker that did not find it in the report deletes it. -/
inductive EntryChange (s s' : RepairState) (name k : String) : Prop where
  | same (h : (s'.tables name).get k = (s.tables name).get k)
  | added {n : ℕ} {t : ReportTask} {todo : List String} (ht : s.tasks.get n = some t)
      (hparent : t.parent = name) (hphase : t.phase = .adding (k :: todo))
      (hfree : (s.tables name).get k = none) (hget : (s'.tables name).get k = some t.port)
  | deleted {n : ℕ} {t : ReportTask} {todo : List String} (ht : s.tasks.get n = some t)
      (hparent : t.parent = name) (hphase : t.phase = .deleting (k :: todo))
      (hlacks : t.subtrees.get k = none) (hheld : (s.tables name).get k = some t.port)
      (hget : (s'.tables name).get k = none)

/-- The table of the cluster that a worker writes, and the tables that it leaves alone. -/
theorem tables_setTable (name name' : String) (r : SubTreeRouter) :
    (s.setTable name r).tables name' = if name' = name then r else s.tables name' := by
  simp [setTable, Function.update_apply]

theorem entryChange (hs : s.Connected root) (h : s.step root a = some s') (name k : String) :
    EntryChange s s' name k := by
  cases transition_of_step h with
  | report _ _ | lose | start _ _ _ | list _ _ _ | finish _ _ => exact .same rfl
  | @addNext n t dest todo ht hphase =>
      by_cases hname : name = t.parent
      · subst hname
        have hget := get_afterAddRoute (s.tables t.parent) dest t.port k
        by_cases hk : k = dest ∧ (s.tables t.parent).get dest = none
        · obtain ⟨rfl, hfree⟩ := hk
          refine .added ht rfl hphase hfree ?_
          simpa [tables_setTable, hfree] using hget
        · refine .same ?_
          rw [if_neg hk] at hget
          simpa [tables_setTable] using hget
      · exact .same (by simp [tables_setTable, hname, setPhase])
  | @deleteNext n t x todo it ht hphase =>
      have hne : x ≠ t.port := by
        rintro rfl
        exact hs.deleting n t _ ht hphase List.mem_cons_self
      by_cases hname : name = t.parent
      · subst hname
        by_cases hlacks : t.subtrees.get x = none
        · have hget := get_delRoute it (s.tables t.parent) x t.port k
          by_cases hk : k = x ∧ (s.tables t.parent).get x = some t.port
          · obtain ⟨rfl, hheld⟩ := hk
            refine .deleted ht rfl hphase hlacks hheld ?_
            simpa [tables_setTable, hlacks, hheld] using hget
          · refine .same ?_
            have hkeep : ¬((k = x ∧ (x = t.port ∨ (s.tables t.parent).get x = some t.port)) ∨
                (x = t.port ∧ (s.tables t.parent).get k = some t.port)) := by
              simpa [hne] using hk
            rw [if_neg hkeep] at hget
            simpa [tables_setTable, hlacks] using hget
        · exact .same (by simp [tables_setTable, hlacks, setPhase])
      · exact .same (by simp [tables_setTable, hname, setPhase])

/-- What a move does to the phase of a report, and to the tables meanwhile. -/
inductive PhaseChange (s s' : RepairState) (t : ReportTask) : ReportPhase → Prop where
  | started (it : MapOrder String) (hphase : t.phase = .sent) :
      PhaseChange s s' t (.adding (it.order t.subtrees))
  | added {dest : String} {todo : List String} (hphase : t.phase = .adding (dest :: todo))
      (hget : (s'.tables t.parent).get dest = some (((s.tables t.parent).get dest).getD t.port)) :
      PhaseChange s s' t (.adding todo)
  | listed (it : MapOrder String) (hphase : t.phase = .adding []) (hsame : s'.tables = s.tables) :
      PhaseChange s s' t (.deleting (subTreeOfPort it (s.tables t.parent) t.port))
  | deleted {x : String} {todo : List String} (hphase : t.phase = .deleting (x :: todo))
      (hget : t.subtrees.get x = none → (s'.tables t.parent).get x ≠ some t.port) :
      PhaseChange s s' t (.deleting todo)

/-- Where a report that is there after a move comes from. -/
inductive TaskChange (root : Cluster) (s s' : RepairState) (n : ℕ) (t' : ReportTask) : Prop where
  | same (h : s.tasks.get n = some t')
  | made {c d : Cluster} (hc : c ∈ root.subtrees) (hd : d ∈ c.clients) (hn : n = s.sent)
      (ht' : t' = ⟨c.name, d.name, s.tables d.name, .sent⟩)
  | moved {t : ReportTask} {phase : ReportPhase} (ht : s.tasks.get n = some t)
      (hphase : PhaseChange s s' t phase) (ht' : t' = { t with phase := phase })

theorem taskChange_of_set {n m : ℕ} {t t' : ReportTask} {phase : ReportPhase}
    (ht : s.tasks.get n = some t) (hphase : PhaseChange s s' t phase)
    (h : (s.tasks.set n { t with phase := phase }).get m = some t') : TaskChange root s s' m t' := by
  rcases GoMap.get_set_eq_some.mp h with ⟨rfl, rfl⟩ | ⟨-, h⟩
  · exact .moved ht hphase rfl
  · exact .same h

theorem taskChange (h : s.step root a = some s') {n : ℕ} {t' : ReportTask}
    (ht' : s'.tasks.get n = some t') : TaskChange root s s' n t' := by
  cases transition_of_step h with
  | report hc hd =>
      rcases GoMap.get_set_eq_some.mp ht' with ⟨rfl, rfl⟩ | ⟨-, ht'⟩
      · exact .made hc hd rfl rfl
      · exact .same ht'
  | lose => exact .same (GoMap.get_of_get_delete ht')
  | start it ht hphase => exact taskChange_of_set ht (.started it hphase) ht'
  | @addNext m t dest todo ht hphase =>
      refine taskChange_of_set ht (.added hphase ?_) ht'
      rw [tables_setTable, if_pos rfl, get_afterAddRoute]
      cases hget : (s.tables t.parent).get dest with
      | none => simp
      | some v => simp
  | list it ht hphase => exact taskChange_of_set ht (.listed it hphase rfl) ht'
  | @deleteNext m t x todo it ht hphase =>
      refine taskChange_of_set ht (.deleted hphase fun hlacks => ?_) ht'
      rw [tables_setTable, if_pos rfl, if_pos hlacks, get_delRoute]
      by_cases hheld : (s.tables t.parent).get x = some t.port
      · simp [hheld]
      · split
        · simp
        · exact hheld
  | finish _ _ => exact .same (GoMap.get_of_get_delete ht')

/-- A report that becomes handled was in its last phase, and the tables stay as they are. -/
theorem handledChange (h : s.step root a = some s') {p q : String} {n : ℕ}
    (hn : (p, q, n) ∈ s'.handled) :
    (p, q, n) ∈ s.handled ∨ ∃ t, s.tasks.get n = some t ∧ t.parent = p ∧ t.port = q ∧
      t.phase = .deleting [] ∧ s'.tables = s.tables := by
  cases transition_of_step h with
  | finish ht hphase =>
      rcases List.mem_cons.mp hn with heq | hn
      · simp only [Prod.mk.injEq] at heq
        obtain ⟨rfl, rfl, rfl⟩ := heq
        exact Or.inr ⟨_, ht, rfl, rfl, hphase, rfl⟩
      · exact Or.inl hn
  | report _ _ | lose | start _ _ _ | list _ _ _ | addNext _ _ | deleteNext _ _ _ => exact Or.inl hn

theorem sent_le (h : s.step root a = some s') : s.sent ≤ s'.sent := by
  cases transition_of_step h with
  | report _ _ => exact Nat.le_succ _
  | lose | start _ _ _ | list _ _ _ | addNext _ _ | deleteNext _ _ _ | finish _ _ => exact le_rfl

/-- The number of a report that is there after a move. -/
theorem lt_sent_of_task (hs : s.Connected root) (h : s.step root a = some s') {n : ℕ}
    (hn : s'.tasks.get n ≠ none) : n < s'.sent := by
  have hlt : ∀ {m}, s.tasks.get m ≠ none → m < s'.sent := fun hm => (hs.fresh _ hm).trans_le (sent_le h)
  cases hcase : transition_of_step h with
  | report _ _ =>
      rcases GoMap.get_set_ne_none.mp hn with rfl | hn
      · exact Nat.lt_succ_self _
      · exact hlt hn
  | lose => exact hlt (GoMap.get_delete_ne_none.mp hn).2
  | finish _ _ => exact hlt (GoMap.get_delete_ne_none.mp hn).2
  | start _ ht _ | list _ ht _ | addNext ht _ | deleteNext _ ht _ =>
      rcases GoMap.get_set_ne_none.mp hn with rfl | hn
      · exact hlt (by simp [ht])
      · exact hlt hn

/-- The port of a report to the cluster `c` is a client of it. -/
theorem Connected.port_of_parent (hnodup : root.names.Nodup) (hs : s.Connected root) {c : Cluster}
    (hc : c ∈ root.subtrees) {n : ℕ} {t : ReportTask} (ht : s.tasks.get n = some t)
    (hparent : t.parent = c.name) : ∃ d ∈ c.clients, t.port = d.name := by
  obtain ⟨c', hc', d, hd, hname, hport⟩ := hs.link n t ht
  obtain rfl := Cluster.eq_of_name_eq hnodup hc' hc (hname.symm.trans hparent)
  exact ⟨d, hd, hport⟩

/-- Every move keeps the tree connected. -/
theorem Connected.step (hnodup : root.names.Nodup) (hs : s.Connected root)
    (h : s.step root a = some s') : s'.Connected root where
  ports c hc k v hget := by
    cases entryChange hs h c.name k with
    | same hsame => exact hs.ports c hc k v (hsame ▸ hget)
    | added ht hparent _ _ hadd =>
        obtain ⟨d, hd, hport⟩ := hs.port_of_parent hnodup hc ht hparent
        exact ⟨d, hd, hport.symm.trans (Option.some.inj (hadd.symm.trans hget))⟩
    | deleted _ _ _ _ _ hnone =>
        rw [hnone] at hget
        cases hget
  own c hc d hd := by
    cases entryChange hs h c.name d.name with
    | same hsame => exact hsame.trans (hs.own c hc d hd)
    | added _ _ _ hfree _ =>
        rw [hs.own c hc d hd] at hfree
        cases hfree
    | deleted ht _ hphase _ hheld _ =>
        -- the listing leaves the child itself out
        rw [hs.own c hc d hd] at hheld
        refine absurd ?_ (hs.deleting _ _ _ ht hphase)
        rw [← Option.some.inj hheld]
        exact List.mem_cons_self
  link n t' ht' := by
    cases taskChange h ht' with
    | same ht => exact hs.link n t' ht
    | made hc hd _ heq => exact ⟨_, hc, _, hd, by rw [heq], by rw [heq]⟩
    | @moved t _ ht _ heq =>
        rw [heq]
        exact hs.link n t ht
  adding n t' todo ht' hphase := by
    cases taskChange h ht' with
    | same ht => exact hs.adding n t' todo ht hphase
    | made _ _ _ heq =>
        rw [heq] at hphase
        cases hphase
    | @moved t _ ht hchange heq =>
        rw [heq] at hphase ⊢
        cases hchange with
        | started it _ =>
            cases hphase
            intro x hx
            obtain ⟨v, hv⟩ := GoMap.mem_keys.mp ((it.mem_order _ _).mp hx)
            simp [hv]
        | added hold _ =>
            cases hphase
            exact fun x hx => hs.adding n t _ ht hold x (List.mem_cons_of_mem _ hx)
        | listed _ _ _ => cases hphase
        | deleted _ _ => cases hphase
  deleting n t' todo ht' hphase := by
    cases taskChange h ht' with
    | same ht => exact hs.deleting n t' todo ht hphase
    | made _ _ _ heq =>
        rw [heq] at hphase
        cases hphase
    | @moved t _ ht hchange heq =>
        rw [heq] at hphase ⊢
        cases hchange with
        | started _ _ => cases hphase
        | added _ _ => cases hphase
        | listed it _ _ =>
            cases hphase
            exact fun hmem => (mem_subTreeOfPort.mp hmem).2 rfl
        | deleted hold _ =>
            cases hphase
            exact fun hmem => hs.deleting n t _ ht hold (List.mem_cons_of_mem _ hmem)
  fresh n hn := lt_sent_of_task hs h hn
  done p q n hn := by
    rcases handledChange h hn with hold | ⟨t, ht, -⟩
    · exact (hs.done p q n hold).trans_le (sent_le h)
    · exact (hs.fresh n (by simp [ht])).trans_le (sent_le h)

/-! ## The stages of a level -/

/-- The report says what is below the child. -/
def Faithful (t : ReportTask) (d : Cluster) : Prop := ∀ k, t.subtrees.get k ≠ none ↔ k ∈ d.descendants

/-- The reports of `d` to `c` from the number `m` on say what is below `d`. -/
def FaithfulFrom (s : RepairState) (m : ℕ) (c d : Cluster) : Prop :=
  ∀ n t, m ≤ n → s.tasks.get n = some t → t.parent = c.name → t.port = d.name → Faithful t d

/-- What `c` routes through `d` is in the branch of `d`. -/
def Clean (s : RepairState) (c d : Cluster) : Prop :=
  ∀ k, (s.tables c.name).get k = some d.name → k ∈ d.names

/-- What is below `d` is routed through `d`. -/
def Full (s : RepairState) (c d : Cluster) : Prop :=
  ∀ k ∈ d.descendants, (s.tables c.name).get k = some d.name

/-- A report of `d` from the number `m` on has left no wrong route through `d` once it is handled, and none
but those it has still to look at while it deletes. -/
structure Cleaning (s : RepairState) (m : ℕ) (c d : Cluster) : Prop where
  handled : ∀ n, m ≤ n → (c.name, d.name, n) ∈ s.handled → s.Clean c d
  deleting : ∀ n t todo, m ≤ n → s.tasks.get n = some t → t.parent = c.name → t.port = d.name →
    t.phase = .deleting todo → ∀ k, (s.tables c.name).get k = some d.name → k ∈ d.names ∨ k ∈ todo

/-- A report of `d` from the number `m` on has installed all its routes once it deletes, and all but those
it has still to add while it adds. -/
structure Filling (s : RepairState) (m : ℕ) (c d : Cluster) : Prop where
  handled : ∀ n, m ≤ n → (c.name, d.name, n) ∈ s.handled → s.Full c d
  adding : ∀ n t todo, m ≤ n → s.tasks.get n = some t → t.parent = c.name → t.port = d.name →
    t.phase = .adding todo → ∀ k ∈ d.descendants, (s.tables c.name).get k = some d.name ∨ k ∈ todo
  deleting : ∀ n t todo, m ≤ n → s.tasks.get n = some t → t.parent = c.name → t.port = d.name →
    t.phase = .deleting todo → s.Full c d

section Link

variable {c d : Cluster} {m : ℕ}

/-- A route through `d` that was not there before is to a cluster below `d`. -/
theorem route_of_step (hs : s.Connected root) (hf : s.FaithfulFrom 0 c d) (h : s.step root a = some s')
    {k : String} (hk : (s'.tables c.name).get k = some d.name) :
    (s.tables c.name).get k = some d.name ∨ k ∈ d.descendants := by
  cases entryChange hs h c.name k with
  | same hsame => exact Or.inl (hsame ▸ hk)
  | added ht hparent hphase _ hget =>
      have hport := Option.some.inj (hget.symm.trans hk)
      refine Or.inr ((hf _ _ (Nat.zero_le _) ht hparent hport k).mp ?_)
      exact hs.adding _ _ _ ht hphase k List.mem_cons_self
  | deleted _ _ _ _ _ hnone =>
      rw [hnone] at hk
      cases hk

theorem Clean.step (hs : s.Connected root) (hf : s.FaithfulFrom 0 c d) (hclean : s.Clean c d)
    (h : s.step root a = some s') : s'.Clean c d := by
  intro k hk
  rcases route_of_step hs hf h hk with hold | hbelow
  · exact hclean k hold
  · exact Cluster.mem_names_of_mem_descendants hbelow

/-- Routes to the clusters below `d` stay. -/
theorem route_kept (hs : s.Connected root) (hf : s.FaithfulFrom 0 c d) (h : s.step root a = some s')
    {k : String} (hbelow : k ∈ d.descendants) (hk : (s.tables c.name).get k = some d.name) :
    (s'.tables c.name).get k = some d.name := by
  cases entryChange hs h c.name k with
  | same hsame => exact hsame.trans hk
  | added _ _ _ hfree _ =>
      rw [hk] at hfree
      cases hfree
  | deleted ht hparent _ hlacks hheld _ =>
      have hport := Option.some.inj (hheld.symm.trans hk)
      exact absurd hlacks ((hf _ _ (Nat.zero_le _) ht hparent hport k).mpr hbelow)

theorem Full.step (hs : s.Connected root) (hf : s.FaithfulFrom 0 c d) (hfull : s.Full c d)
    (h : s.step root a = some s') : s'.Full c d :=
  fun k hk => route_kept hs hf h hk (hfull k hk)

/-- While the table of the child is right, its reports are. -/
theorem FaithfulFrom.step (hd : ∀ k, (s.tables d.name).get k ≠ none ↔ k ∈ d.descendants)
    (hf : s.FaithfulFrom m c d) (h : s.step root a = some s') : s'.FaithfulFrom m c d := by
  intro n t' hn ht' hparent hport
  cases taskChange h ht' with
  | same ht => exact hf n t' hn ht hparent hport
  | @made _ e _ _ _ heq =>
      subst heq
      have hname : e.name = d.name := hport
      intro k
      show (s.tables e.name).get k ≠ none ↔ _
      rw [hname]
      exact hd k
  | @moved t _ ht _ heq =>
      subst heq
      exact hf n t hn ht hparent hport

theorem Cleaning.step (hs : s.Connected root) (hf : s.FaithfulFrom 0 c d) (hc : s.Cleaning m c d)
    (h : s.step root a = some s') : s'.Cleaning m c d where
  handled n hn hdone := by
    rcases handledChange h hdone with hold | ⟨t, ht, hparent, hport, hphase, hsame⟩
    · exact (hc.handled n hn hold).step hs hf h
    · intro k hk
      rw [hsame] at hk
      simpa using hc.deleting n t [] hn ht hparent hport hphase k hk
  deleting n t' todo hn ht' hparent hport hphase k hk := by
    have hk' := route_of_step hs hf h hk
    cases taskChange h ht' with
    | same ht =>
        rcases hk' with hold | hbelow
        · exact hc.deleting n t' todo hn ht hparent hport hphase k hold
        · exact Or.inl (Cluster.mem_names_of_mem_descendants hbelow)
    | made _ _ _ heq =>
        subst heq
        cases hphase
    | @moved t _ ht hchange heq =>
        subst heq
        have hpt : t.parent = c.name := hparent
        have hqt : t.port = d.name := hport
        cases hchange with
        | started _ _ => cases hphase
        | added _ _ => cases hphase
        | listed it _ hsame =>
            cases hphase
            rw [hsame] at hk
            by_cases hkd : k = d.name
            · exact Or.inl (hkd ▸ Cluster.name_mem_names d)
            · refine Or.inr (mem_subTreeOfPort.mpr ?_)
              rw [hpt, hqt]
              exact ⟨hk, hkd⟩
        | @deleted x _ hold hget =>
            cases hphase
            rcases hk' with hheld | hbelow
            · rcases hc.deleting n t _ hn ht hpt hqt hold k hheld with hname | hmem
              · exact Or.inl hname
              · rcases List.mem_cons.mp hmem with rfl | hmem
                · -- the one just looked at: it is in the report, or its route is gone
                  refine Or.inl (Cluster.mem_names_of_mem_descendants ?_)
                  refine (hf n t (Nat.zero_le _) ht hpt hqt k).mp fun hlacks => ?_
                  rw [hpt, hqt] at hget
                  exact hget hlacks hk
                · exact Or.inr hmem
            · exact Or.inl (Cluster.mem_names_of_mem_descendants hbelow)

theorem Filling.step (hnodup : root.names.Nodup) (hs : s.Connected root) (hcr : c ∈ root.subtrees)
    (hdc : d ∈ c.clients) (hf : s.FaithfulFrom 0 c d) (hclean : ∀ e ∈ c.clients, s.Clean c e)
    (hc : s.Filling m c d) (h : s.step root a = some s') : s'.Filling m c d where
  handled n hn hdone := by
    rcases handledChange h hdone with hold | ⟨t, ht, hparent, hport, hphase, hsame⟩
    · exact (hc.handled n hn hold).step hs hf h
    · exact (hc.deleting n t [] hn ht hparent hport hphase).step hs hf h
  adding n t' todo hn ht' hparent hport hphase k hk := by
    have hkeep : (s.tables c.name).get k = some d.name → (s'.tables c.name).get k = some d.name :=
      route_kept hs hf h hk
    cases taskChange h ht' with
    | same ht => exact (hc.adding n t' todo hn ht hparent hport hphase k hk).imp_left hkeep
    | made _ _ _ heq =>
        subst heq
        cases hphase
    | @moved t _ ht hchange heq =>
        subst heq
        have hpt : t.parent = c.name := hparent
        have hqt : t.port = d.name := hport
        cases hchange with
        | started it _ =>
            cases hphase
            have hget := (hf n t (Nat.zero_le _) ht hpt hqt k).mpr hk
            obtain ⟨v, hv⟩ := Option.ne_none_iff_exists'.mp hget
            exact Or.inr ((it.mem_order _ _).mpr (GoMap.mem_keys_of_get hv))
        | @added dest _ hold hget =>
            cases hphase
            rcases hc.adding n t _ hn ht hpt hqt hold k hk with hheld | hmem
            · exact Or.inl (hkeep hheld)
            · rcases List.mem_cons.mp hmem with rfl | hmem
              · -- no other child can hold a name below `d`
                refine Or.inl ?_
                rw [hpt, hqt] at hget
                cases hcur : (s.tables c.name).get k with
                | none =>
                    rw [hcur] at hget
                    exact hget
                | some v =>
                    obtain ⟨e, he, rfl⟩ := hs.ports c hcr k v hcur
                    have hde : d = e := Cluster.client_eq_of_mem_names hnodup hcr hdc he
                      (Cluster.mem_names_of_mem_descendants hk) (hclean e he k hcur)
                    exact hkeep (hde ▸ hcur)
              · exact Or.inr hmem
        | listed _ _ _ => cases hphase
        | deleted _ _ => cases hphase
  deleting n t' todo hn ht' hparent hport hphase := by
    cases taskChange h ht' with
    | same ht => exact (hc.deleting n t' todo hn ht hparent hport hphase).step hs hf h
    | made _ _ _ heq =>
        subst heq
        cases hphase
    | @moved t _ ht hchange heq =>
        subst heq
        have hpt : t.parent = c.name := hparent
        have hqt : t.port = d.name := hport
        cases hchange with
        | started _ _ => cases hphase
        | added _ _ => cases hphase
        | listed it hold hsame =>
            cases hphase
            intro k hk
            rw [hsame]
            simpa using hc.adding n t [] hn ht hpt hqt hold k hk
        | deleted hold _ =>
            cases hphase
            exact (hc.deleting n t _ hn ht hpt hqt hold).step hs hf h

end Link

/-! ## Level by level -/

/-- Something holds of every cluster up to a height and each of its clients. -/
def UpTo (root : Cluster) (h : ℕ) (P : Cluster → Cluster → Prop) : Prop :=
  ∀ c ∈ root.subtrees, c.height ≤ h → ∀ d ∈ c.clients, P c d

/-- Up to a height the tables are right and the reports on their way say so. -/
def Right (root : Cluster) (h : ℕ) (s : RepairState) : Prop :=
  UpTo root h fun c d => s.Clean c d ∧ s.Full c d ∧ s.FaithfulFrom 0 c d

/-- A table that is right lists the clusters below. -/
theorem Right.keys {h : ℕ} (hs : s.Connected root) (hr : Right root h s) {c : Cluster}
    (hc : c ∈ root.subtrees) (hle : c.height ≤ h) (k : String) :
    (s.tables c.name).get k ≠ none ↔ k ∈ c.descendants := by
  rw [Cluster.mem_descendants]
  constructor
  · intro hk
    obtain ⟨v, hv⟩ := Option.ne_none_iff_exists'.mp hk
    obtain ⟨d, hd, rfl⟩ := hs.ports c hc k v hv
    exact ⟨d, hd, (hr c hc hle d hd).1 k hv⟩
  · rintro ⟨d, hd, hk⟩
    rw [Cluster.names_eq] at hk
    rcases List.mem_cons.mp hk with rfl | hk
    · simp [hs.own c hc d hd]
    · simp [(hr c hc hle d hd).2.1 k hk]

/-- The tables of the clients of a cluster one level higher. -/
theorem Right.client_keys {h : ℕ} (hs : s.Connected root) (hr : Right root h s) {c d : Cluster}
    (hc : c ∈ root.subtrees) (hle : c.height ≤ h + 1) (hd : d ∈ c.clients) (k : String) :
    (s.tables d.name).get k ≠ none ↔ k ∈ d.descendants :=
  hr.keys hs (Cluster.mem_subtrees_of_client hc hd)
    (Nat.le_of_lt_succ ((Cluster.height_lt_of_mem_clients hd).trans_le hle)) k

theorem Right.step {h : ℕ} (hs : s.Connected root) (hr : Right root h s) (hstep : s.step root a = some s') :
    Right root h s' := by
  intro c hc hle d hd
  obtain ⟨hclean, hfull, hf⟩ := hr c hc hle d hd
  exact ⟨hclean.step hs hf hstep, hfull.step hs hf hstep,
    hf.step (hr.client_keys hs hc (Nat.le_succ_of_le hle) hd) hstep⟩

/-- What holds at the beginning of a level and through each of its rounds. -/
structure Level (root : Cluster) (h : ℕ) (s : RepairState) : Prop where
  connected : s.Connected root
  right : Right root h s

theorem Level.step (hnodup : root.names.Nodup) {h : ℕ} (hl : Level root h s)
    (hstep : s.step root a = some s') : Level root h s' :=
  ⟨hl.connected.step hnodup hstep, hl.right.step hl.connected hstep⟩

section Rounds

variable {h : ℕ} {as : List RepairAction} (hnodup : root.names.Nodup)

include hnodup

/-- The first round: the reports of the time before are gone. -/
theorem Level.flushed (hl : Level root h s) (hrun : runSteps (RepairState.step root) s as = some s')
    (hround : Round root s s') :
    Level root h s' ∧ UpTo root (h + 1) fun c d => s'.FaithfulFrom 0 c d := by
  have hend := runSteps_invariant
    (I := fun u => Level root h u ∧ UpTo root (h + 1) fun c d => u.FaithfulFrom s.sent c d)
    (fun hI hstep => ⟨hI.1.step hnodup hstep, fun c hc hle d hd =>
      (hI.2 c hc hle d hd).step (hI.1.right.client_keys hI.1.connected hc hle hd) hstep⟩)
    ⟨hl, fun c hc hle d hd n t hn ht =>
      absurd (hl.connected.fresh n (by simp [ht])) (Nat.not_lt.mpr hn)⟩ hrun
  refine ⟨hend.1, fun c hc hle d hd n t _ ht => ?_⟩
  exact hend.2 c hc hle d hd n t (hround.1 n (by simp [ht])) ht

/-- The second round: no wrong route is left. -/
theorem Level.cleaned (hl : Level root h s) (hf : UpTo root (h + 1) fun c d => s.FaithfulFrom 0 c d)
    (hrun : runSteps (RepairState.step root) s as = some s') (hround : Round root s s') :
    Level root h s' ∧ (UpTo root (h + 1) fun c d => s'.FaithfulFrom 0 c d) ∧
      UpTo root (h + 1) fun c d => s'.Clean c d := by
  have hend := runSteps_invariant
    (I := fun u => Level root h u ∧ (UpTo root (h + 1) fun c d => u.FaithfulFrom 0 c d) ∧
      UpTo root (h + 1) fun c d => u.Cleaning s.sent c d)
    (fun hI hstep => ⟨hI.1.step hnodup hstep, fun c hc hle d hd =>
      (hI.2.1 c hc hle d hd).step (hI.1.right.client_keys hI.1.connected hc hle hd) hstep,
      fun c hc hle d hd => (hI.2.2 c hc hle d hd).step hI.1.connected (hI.2.1 c hc hle d hd) hstep⟩)
    ⟨hl, hf, fun c hc hle d hd =>
      ⟨fun n hn hdone => absurd (hl.connected.done _ _ n hdone) (Nat.not_lt.mpr hn),
        fun n t _ hn ht => absurd (hl.connected.fresh n (by simp [ht])) (Nat.not_lt.mpr hn)⟩⟩ hrun
  refine ⟨hend.1, hend.2.1, fun c hc hle d hd => ?_⟩
  obtain ⟨n, hn, hdone⟩ := hround.2 c hc d hd
  exact (hend.2.2 c hc hle d hd).handled n hn hdone

/-- The third round: no route is missing. -/
theorem Level.filled (hl : Level root h s) (hf : UpTo root (h + 1) fun c d => s.FaithfulFrom 0 c d)
    (hclean : UpTo root (h + 1) fun c d => s.Clean c d)
    (hrun : runSteps (RepairState.step root) s as = some s') (hround : Round root s s') :
    Level root (h + 1) s' := by
  have hend := runSteps_invariant
    (I := fun u => Level root h u ∧ (UpTo root (h + 1) fun c d => u.FaithfulFrom 0 c d) ∧
      (UpTo root (h + 1) fun c d => u.Clean c d) ∧ UpTo root (h + 1) fun c d => u.Filling s.sent c d)
    (fun hI hstep => ⟨hI.1.step hnodup hstep, fun c hc hle d hd =>
      (hI.2.1 c hc hle d hd).step (hI.1.right.client_keys hI.1.connected hc hle hd) hstep,
      fun c hc hle d hd => (hI.2.2.1 c hc hle d hd).step hI.1.connected (hI.2.1 c hc hle d hd) hstep,
      fun c hc hle d hd => (hI.2.2.2 c hc hle d hd).step hnodup hI.1.connected hc hd
        (hI.2.1 c hc hle d hd) (hI.2.2.1 c hc hle) hstep⟩)
    ⟨hl, hf, hclean, fun c hc hle d hd =>
      ⟨fun n hn hdone => absurd (hl.connected.done _ _ n hdone) (Nat.not_lt.mpr hn),
        fun n t _ hn ht => absurd (hl.connected.fresh n (by simp [ht])) (Nat.not_lt.mpr hn),
        fun n t _ hn ht => absurd (hl.connected.fresh n (by simp [ht])) (Nat.not_lt.mpr hn)⟩⟩ hrun
  refine ⟨hend.1.connected, fun c hc hle d hd => ?_⟩
  obtain ⟨n, hn, hdone⟩ := hround.2 c hc d hd
  exact ⟨hend.2.2.1 c hc hle d hd, (hend.2.2.2 c hc hle d hd).handled n hn hdone,
    hend.2.1 c hc hle d hd⟩

/-- Three rounds make the next level right. -/
theorem Level.three_rounds (hl : Level root h s)
    (hrounds : Rounds (RepairState.step root) (Round root) 3 s s') : Level root (h + 1) s' := by
  cases hrounds with
  | succ hrounds hrun₃ hround₃ =>
      cases hrounds with
      | succ hrounds hrun₂ hround₂ =>
          cases hrounds with
          | succ hrounds hrun₁ hround₁ =>
              cases hrounds with
              | zero =>
                  obtain ⟨hl₁, hf₁⟩ := hl.flushed hnodup hrun₁ hround₁
                  obtain ⟨hl₂, hf₂, hclean⟩ := hl₁.cleaned hnodup hf₁ hrun₂ hround₂
                  exact hl₂.filled hnodup hf₂ hclean hrun₃ hround₃

end Rounds

/-- A cluster without clients has nothing to get wrong. -/
theorem Connected.level_zero (hs : s.Connected root) : Level root 0 s := by
  refine ⟨hs, fun c _ hle d hd => ?_⟩
  exact absurd (Cluster.height_lt_of_mem_clients hd) (by omega)

end RepairState

/-! ## The whole tree -/

theorem RepairState.Level.routesExactly {root c : Cluster} {s : RepairState} {h : ℕ}
    (hl : RepairState.Level root h s) (hc : c ∈ root.subtrees) (hle : c.height ≤ h) :
    RoutesExactly c (s.tables c.name) := by
  intro k v
  constructor
  · intro hk
    obtain ⟨d, hd, rfl⟩ := hl.connected.ports c hc k v hk
    exact ⟨d, hd, rfl, (hl.right c hc hle d hd).1 k hk⟩
  · rintro ⟨d, hd, rfl, hk⟩
    rw [Cluster.names_eq] at hk
    rcases List.mem_cons.mp hk with rfl | hk
    · exact hl.connected.own c hc d hd
    · exact (hl.right c hc hle d hd).2.1 k hk

/-- Let every route in the tables of a connected tree go through a connected child, and every connected child
have its own route.  Whatever else the tables hold, after three rounds of reports for every level they route
exactly the clusters below, each through the child in whose branch it is, in every state that follows; a
broadcast then finds the tree wired. -/
theorem tables_repaired_by_rounds (root : Cluster) (hnodup : root.names.Nodup)
    (hnames : ∀ n ∈ root.names, IsClusterName n) {s t u : RepairState} {as : List RepairAction}
    (hs : s.Connected root)
    (hrounds : Rounds (RepairState.step root) (RepairState.Round root) (3 * root.height) s t)
    (hrun : runSteps (RepairState.step root) t as = some u) :
    (∀ c ∈ root.subtrees, RoutesExactly c (u.tables c.name)) ∧ (root.withTables u.tables).Wired := by
  have hlevel : RepairState.Level root root.height t :=
    Rounds.levels (fun hl hr => RepairState.Level.three_rounds hnodup hl hr) hs.level_zero hrounds
  have hend : RepairState.Level root root.height u :=
    runSteps_invariant (fun hl hstep => RepairState.Level.step hnodup hl hstep) hlevel hrun
  have hexact : ∀ c ∈ root.subtrees, RoutesExactly c (u.tables c.name) := fun c hc =>
    hend.routesExactly hc (Cluster.height_le_of_mem_subtrees hc)
  exact ⟨hexact, Cluster.wired_withTables root hexact hnames hnodup⟩

/-- A root with one child. -/
def rootWithChild : Cluster := .node "r" ∅ [.node "a" ∅ []]

/-- The table of the root has a route to a cluster that is not there. -/
def staleState : RepairState where
  tables := fun n => if n = "r" then GoMap.ofList [("a", "a"), ("gone", "a")] else ∅
  tasks := ∅
  sent := 0
  handled := []

/-- The child makes its report `n`, and the root handles it with so many deletions. -/
def childReports (n deletions : ℕ) : List RepairAction :=
  [.report "r" "a", .start n MapOrder.sorted, .list n MapOrder.sorted] ++
    List.replicate deletions (.deleteNext n MapOrder.sorted) ++ [.finish n]

theorem connected_staleState : staleState.Connected rootWithChild where
  ports := by
    have hall : ∀ c ∈ rootWithChild.subtrees, ∀ k ∈ (staleState.tables c.name).keys,
        ∀ v ∈ (staleState.tables c.name).get k, ∃ d ∈ c.clients, d.name = v := by decide
    exact fun c hc k v hk => hall c hc k (GoMap.mem_keys_of_get hk) v hk
  own := by decide
  link n t ht := by simp [staleState] at ht
  adding n t todo ht := by simp [staleState] at ht
  deleting n t todo ht := by simp [staleState] at ht
  fresh n hn := by simp [staleState] at hn
  done p q n hn := by simp [staleState] at hn

/-- The state after the report `n` of the child. -/
def afterReport (n deletions : ℕ) (s : RepairState) : RepairState :=
  (runSteps (RepairState.step rootWithChild) s (childReports n deletions)).getD s

theorem round_of_report {n deletions : ℕ} {s : RepairState}
    (hrun : (runSteps (RepairState.step rootWithChild) s (childReports n deletions)).isSome = true)
    (htasks : (afterReport n deletions s).tasks = ∅) (hsent : s.sent = n)
    (hdone : ("r", "a", n) ∈ (afterReport n deletions s).handled) {k : ℕ} {s₀ : RepairState}
    (h : Rounds (RepairState.step rootWithChild) (RepairState.Round rootWithChild) k s₀ s) :
    Rounds (RepairState.step rootWithChild) (RepairState.Round rootWithChild) (k + 1) s₀
      (afterReport n deletions s) := by
  obtain ⟨u, hu⟩ := Option.isSome_iff_exists.mp hrun
  have hafter : runSteps (RepairState.step rootWithChild) s (childReports n deletions) =
      some (afterReport n deletions s) := by
    simp [afterReport, hu]
  refine h.succ hafter ⟨?_, ?_⟩
  · intro m hm
    simp [htasks] at hm
  · have hlinks : ∀ c ∈ rootWithChild.subtrees, ∀ d ∈ c.clients, c.name = "r" ∧ d.name = "a" := by decide
    intro c hc d hd
    obtain ⟨hcn, hdn⟩ := hlinks c hc d hd
    exact ⟨n, hsent.le, by rw [hcn, hdn]; exact hdone⟩

/-- Three reports of the child remove the stale route and keep the one to the child. -/
theorem tables_repaired_by_rounds_stale :
    let t := afterReport 2 0 (afterReport 1 0 (afterReport 0 1 staleState))
    Rounds (RepairState.step rootWithChild) (RepairState.Round rootWithChild)
        (3 * rootWithChild.height) staleState t ∧
      (staleState.tables "r").get "gone" = some "a" ∧ (t.tables "r").get "gone" ≠ some "a" ∧
      (t.tables "r").get "a" = some "a" := by
  intro t
  have hrounds : Rounds (RepairState.step rootWithChild) (RepairState.Round rootWithChild)
      (3 * rootWithChild.height) staleState t :=
    round_of_report (by decide) (by decide) (by decide) (by decide)
      (round_of_report (by decide) (by decide) (by decide) (by decide)
        (round_of_report (by decide) (by decide) (by decide) (by decide) (.zero _)))
  have hnow : runSteps (RepairState.step rootWithChild) t [] = some t := rfl
  have hexact := (tables_repaired_by_rounds rootWithChild (by decide) (by decide) connected_staleState
    hrounds hnow).1 rootWithChild (Cluster.self_mem_subtrees _)
  refine ⟨hrounds, by decide, ?_, (hexact "a" "a").mpr (by decide)⟩
  exact fun h => absurd ((hexact "gone" "a").mp h) (by decide)

end OteStack
