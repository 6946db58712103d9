/-
# OteStack.ClusterRouter.Routes — who may change a route, and how reports repair a table.

Three results about the operations on one subtree table.

* `foreignRoutes_kept_iff`: an operation on behalf of a port leaves the routes of every other port
  alone, except for one call.  `DelRoute(p, p)` first refuses to delete a route to `p` that another
  port holds and then deletes it all the same in its second branch.
* `subtree_report_effect`: what one report changes, in whatever order its loops range, and that the
  same report changes nothing the second time.
* `two_rounds_repair`: whatever a table holds at the start, after every child has reported its
  subtree twice the table is the true one, plus the routes of children to themselves that were there
  before.  One round is not enough: `AddRoute` refuses a name that a stale port still holds.
-/
import OteStack.Lib.StepSystem
import OteStack.ClusterRouter.Router

namespace OteStack

open OteStack.Lib (GoMap MapOrder StepsMeet runSteps)
open SubTreeRouter

/-! ## Operations on behalf of a port -/

/-- The operations that write the subtree table. -/
inductive RouteOp where
  | addRoute (dest port : String)
  | delRoute (it : MapOrder String) (dest port : String)
  | updateRouteToSubtree (it : MapOrder String) (port : String) (subtrees : Option SubTreeRouter)

namespace RouteOp

/-- The port an operation is performed for. -/
def port : RouteOp → String
  | .addRoute _ port => port
  | .delRoute _ _ port => port
  | .updateRouteToSubtree _ port _ => port

/-- The table after an operation. -/
def apply (r : SubTreeRouter) : RouteOp → SubTreeRouter
  | .addRoute dest port => afterAddRoute r dest port
  | .delRoute it dest port => SubTreeRouter.delRoute it r dest port
  | .updateRouteToSubtree it port subtrees => SubTreeRouter.updateRouteToSubtree it r port subtrees

/-- Operations are always possible. -/
def step (r : SubTreeRouter) (op : RouteOp) : Option SubTreeRouter := some (op.apply r)

end RouteOp

/-- The operation leaves every entry that another port holds as it is. -/
def KeepsForeign (r : SubTreeRouter) (op : RouteOp) : Prop :=
  ∀ k q, r.get k = some q → q ≠ op.port → (op.apply r).get k = some q

/-- The call that deletes what it refused to delete: `DelRoute(p, p)` while another port holds `p`. -/
def HitsForeign (r : SubTreeRouter) : RouteOp → Prop
  | .delRoute _ dest port => dest = port ∧ ∃ q, r.get dest = some q ∧ q ≠ port
  | _ => False

theorem keepsForeign_addRoute (r : SubTreeRouter) (dest port : String) :
    KeepsForeign r (.addRoute dest port) := by
  intro k q hk _
  show (afterAddRoute r dest port).get k = some q
  rw [get_afterAddRoute, if_neg, hk]
  rintro ⟨rfl, hnone⟩
  rw [hk] at hnone
  exact absurd hnone (by simp)

theorem keepsForeign_updateRouteToSubtree (it : MapOrder String) (r : SubTreeRouter) (port : String)
    (subtrees : Option SubTreeRouter) :
    KeepsForeign r (.updateRouteToSubtree it port subtrees) := by
  intro k q hk hq
  show (updateRouteToSubtree it r port subtrees).get k = some q
  cases subtrees with
  | none => exact hk
  | some subtrees =>
      have hqp : q ≠ port := hq
      rw [get_updateRouteToSubtree, hk]
      simp [hqp]

/-- `DelRoute` keeps the routes of other ports exactly when it is not the call that hits one. -/
theorem keepsForeign_delRoute_iff (it : MapOrder String) (r : SubTreeRouter) (dest port : String) :
    KeepsForeign r (.delRoute it dest port) ↔ ¬ HitsForeign r (.delRoute it dest port) := by
  constructor
  · rintro hkeep ⟨rfl, q, hq, hne⟩
    have hgone : (delRoute it r dest dest).get dest = none := by
      simp [get_delRoute]
    have hstays : (delRoute it r dest dest).get dest = some q := hkeep dest q hq hne
    rw [hgone] at hstays
    exact absurd hstays (by simp)
  · intro hmiss k q hk hq
    have hqp : q ≠ port := hq
    show (delRoute it r dest port).get k = some q
    rw [get_delRoute, if_neg, hk]
    rintro (⟨rfl, rfl | hown⟩ | ⟨-, hown⟩)
    · exact hmiss ⟨rfl, q, hk, hqp⟩
    · exact hqp (Option.some.inj (hk.symm.trans hown))
    · exact hqp (Option.some.inj (hk.symm.trans hown))

theorem keepsForeign_iff (r : SubTreeRouter) (op : RouteOp) :
    KeepsForeign r op ↔ ¬ HitsForeign r op := by
  cases op with
  | addRoute dest port => simp [HitsForeign, keepsForeign_addRoute]
  | delRoute it dest port => exact keepsForeign_delRoute_iff it r dest port
  | updateRouteToSubtree it port subtrees =>
      simp [HitsForeign, keepsForeign_updateRouteToSubtree]

/-- In a sequence of operations every one keeps the routes of the other ports, if and only if none of
them is `DelRoute(p, p)` on a table that routes `p` through another port. -/
theorem foreignRoutes_kept_iff (r : SubTreeRouter) (ops : List RouteOp) :
    StepsMeet RouteOp.step KeepsForeign r ops ↔
      StepsMeet RouteOp.step (fun r op => ¬ HitsForeign r op) r ops := by
  induction ops generalizing r with
  | nil => exact Iff.rfl
  | cons op ops ih => exact and_congr (keepsForeign_iff r op) (ih (op.apply r))

/-- A cluster `c2` whose registration was refused, since `c1` already routes to another `c2`. -/
def refusedThenGone : List RouteOp :=
  [.addRoute "c2" "c1", .addRoute "c2" "c2", .delRoute MapOrder.sorted "c2" "c2"]

/-- When the refused cluster disconnects, the route of the one that holds the name is deleted. -/
theorem refused_disconnect_drops_route :
    addRoute (GoMap.ofList [("c2", "c1")]) "c2" "c2" = .error .duplicatedName ∧
      ¬ StepsMeet RouteOp.step KeepsForeign ∅ refusedThenGone := by
  refine ⟨by decide, ?_⟩
  rintro ⟨-, -, hlast, -⟩
  have hstays := hlast "c2" "c1" (by decide) (by decide)
  have hgone : (delRoute MapOrder.sorted (afterAddRoute (afterAddRoute ∅ "c2" "c1") "c2" "c2")
      "c2" "c2").get "c2" = none := by
    simp [get_delRoute]
  exact absurd (hgone.symm.trans hstays) (by simp)

/-! ## One report -/

section OneReport

variable {r subtrees : SubTreeRouter} {p : String} (adding listing deleting : MapOrder String)

/-- After a report, the names other than the child's own that are routed through it are those reported
that no other port held. -/
theorem get_report_own {k : String} (hk : k ≠ p) :
    (reportInOrders adding listing deleting r p subtrees).get k = some p ↔
      subtrees.get k ≠ none ∧ ¬ ∃ q, q ≠ p ∧ r.get k = some q := by
  rw [get_reportInOrders]
  cases hr : r.get k with
  | none => simp
  | some q =>
      by_cases hq : q = p
      · simp [hq, hk]
      · simp [hq]

/-- A report leaves the entries of the other ports as they are, and adds none. -/
theorem get_report_foreign {k q : String} (hq : q ≠ p) :
    (reportInOrders adding listing deleting r p subtrees).get k = some q ↔ r.get k = some q := by
  have hpq : p ≠ q := fun h => hq h.symm
  rw [get_reportInOrders]
  cases hr : r.get k with
  | none => simp [hpq]
  | some q' =>
      by_cases hq' : q' = p
      · simp [hq', hpq]
      · simp [hq']

/-- A report that does not name the child leaves the child's own entry as it is. -/
theorem get_report_self (hp : subtrees.get p = none) :
    (reportInOrders adding listing deleting r p subtrees).get p = r.get p := by
  rw [get_reportInOrders]
  cases hr : r.get p with
  | none => simp [hp]
  | some q => simp

/-- No order of ranging occurs in what the table answers after a report. -/
theorem report_order_irrelevant (adding₂ listing₂ deleting₂ : MapOrder String) :
    reportInOrders adding₂ listing₂ deleting₂ r p subtrees =
      reportInOrders adding listing deleting r p subtrees := by
  refine GoMap.ext fun k => ?_
  rw [get_reportInOrders, get_reportInOrders]

/-- The same report once more, in whatever order, changes nothing. -/
theorem report_again (adding₂ listing₂ deleting₂ : MapOrder String) :
    reportInOrders adding₂ listing₂ deleting₂
        (reportInOrders adding listing deleting r p subtrees) p subtrees =
      reportInOrders adding listing deleting r p subtrees := by
  refine GoMap.ext fun k => ?_
  rw [get_reportInOrders]
  simp only [get_reportInOrders adding listing deleting]
  -- the names by what the first report made of them
  cases hr : r.get k with
  | none =>
      by_cases hs : subtrees.get k = none
      · simp [hs]
      · simp [hs]
  | some q =>
      by_cases hgone : q = p ∧ k ≠ p ∧ subtrees.get k = none
      · simp [hgone]
      · simp [hgone]

end OneReport

/-- The effect of one subtree report of the child `p` that does not name `p`, for every table: the names
other than `p` routed through `p` are those reported that no other port held, the entries of other ports
and the one of `p` are as before, no order of ranging matters, and a second report is without effect. -/
theorem subtree_report_effect (it : MapOrder String) (r subtrees : SubTreeRouter) (p : String)
    (hp : subtrees.get p = none) :
    (∀ k, k ≠ p → ((updateRouteToSubtree it r p (some subtrees)).get k = some p ↔
      subtrees.get k ≠ none ∧ ¬ ∃ q, q ≠ p ∧ r.get k = some q)) ∧
    (∀ k q, q ≠ p → ((updateRouteToSubtree it r p (some subtrees)).get k = some q ↔
      r.get k = some q)) ∧
    (updateRouteToSubtree it r p (some subtrees)).get p = r.get p ∧
    (∀ adding listing deleting : MapOrder String,
      reportInOrders adding listing deleting r p subtrees =
        updateRouteToSubtree it r p (some subtrees)) ∧
    ∀ adding listing deleting : MapOrder String,
      reportInOrders adding listing deleting (updateRouteToSubtree it r p (some subtrees)) p subtrees =
        updateRouteToSubtree it r p (some subtrees) := by
  rw [updateRouteToSubtree_some]
  refine ⟨fun k hk => get_report_own it it it hk, fun k q hq => get_report_foreign it it it hq,
    get_report_self it it it hp, ?_, ?_⟩
  · intro adding listing deleting
    exact report_order_irrelevant it it it adding listing deleting
  · intro adding listing deleting
    exact report_again it it it adding listing deleting

/-- A report of `a` with a new name, a name held by `b` and one of its own missing: the new name is
routed, `b` keeps what it has, the missing one goes and `a` itself stays. -/
theorem subtree_report_effect_mixed :
    let table : SubTreeRouter := GoMap.ofList [("a", "a"), ("gone", "a"), ("held", "b")]
    let report : SubTreeRouter := GoMap.ofList [("new", "a"), ("held", "a")]
    let after := updateRouteToSubtree MapOrder.sorted table "a" (some report)
    report.get "a" = none ∧ after.get "new" = some "a" ∧ after.get "held" = some "b" ∧
      after.get "gone" ≠ some "a" ∧ after.get "a" = some "a" := by
  intro table report after
  have hp : report.get "a" = none := by decide
  obtain ⟨hown, hforeign, hself, -, -⟩ :=
    subtree_report_effect MapOrder.sorted table report "a" hp
  refine ⟨hp, (hown "new" (by decide)).mpr ⟨by decide, ?_⟩, (hforeign "held" "b" (by decide)).mpr (by decide),
    ?_, hself.trans (by decide)⟩
  · rintro ⟨q, -, hq⟩
    exact absurd hq (by simp [show table.get "new" = none by decide])
  · exact fun h => ((hown "gone" (by decide)).mp h).1 (by decide)

/-! ## Two rounds of reports -/

/-- The children connected to a node and, for each of them, the clusters really below it. -/
structure TrueSubtrees where
  children : Finset String
  below : String → Finset String
  disjoint : ∀ p ∈ children, ∀ q ∈ children, p ≠ q → Disjoint (below p) (below q)
  apart : ∀ p ∈ children, Disjoint (below p) children

/-- A subtree report as it arrives: the child it is from and the map it carries. -/
structure SubtreeReport where
  it : MapOrder String
  port : String
  subtrees : SubTreeRouter

/-- The table after a report. -/
def SubtreeReport.apply (r : SubTreeRouter) (rep : SubtreeReport) : SubTreeRouter :=
  updateRouteToSubtree rep.it r rep.port (some rep.subtrees)

/-- One true report per child, in any order. -/
def IsRound (T : TrueSubtrees) (l : List SubtreeReport) : Prop :=
  (l.map SubtreeReport.port : Multiset String) = T.children.val ∧
    ∀ rep ∈ l, rep.subtrees.keys = T.below rep.port

theorem IsRound.port_mem {T : TrueSubtrees} {l : List SubtreeReport} (h : IsRound T l)
    {rep : SubtreeReport} (hrep : rep ∈ l) : rep.port ∈ T.children := by
  rw [← Finset.mem_val, ← h.1, Multiset.mem_coe]
  exact List.mem_map_of_mem hrep

theorem IsRound.exists_report {T : TrueSubtrees} {l : List SubtreeReport} (h : IsRound T l)
    {p : String} (hp : p ∈ T.children) : ∃ rep ∈ l, rep.port = p := by
  rw [← Finset.mem_val, ← h.1, Multiset.mem_coe] at hp
  exact List.mem_map.mp hp

/-- What holds of the table while the children report: its ports are children, the routes of children
to themselves are those of the start, and the ports in `clean` have only true routes. -/
structure Repairing (T : TrueSubtrees) (start : SubTreeRouter) (clean : Set String)
    (r : SubTreeRouter) : Prop where
  ports : ∀ k q, r.get k = some q → q ∈ T.children
  self : ∀ v, r.get v = some v ↔ start.get v = some v
  cleaned : ∀ k, ∀ q ∈ clean, r.get k = some q → k ∈ T.below q ∨ k = q

section Report

variable {T : TrueSubtrees} {start r : SubTreeRouter} {clean : Set String} {rep : SubtreeReport}

/-- The table after a true report, with the reported keys as the set `T.below`. -/
theorem get_report (hkeys : rep.subtrees.keys = T.below rep.port) (k : String) :
    (rep.apply r).get k = match r.get k with
      | none => if k ∈ T.below rep.port then some rep.port else none
      | some q => if q = rep.port ∧ k ≠ rep.port ∧ k ∉ T.below rep.port then none else some q := by
  have hmem : rep.subtrees.get k = none ↔ k ∉ T.below rep.port := by
    rw [← hkeys, GoMap.notMem_keys]
  rw [SubtreeReport.apply, get_updateRouteToSubtree]
  cases hr : r.get k with
  | none =>
      by_cases hk : k ∈ T.below rep.port
      · simp [hmem, hk]
      · simp [hmem, hk]
  | some q => simp only [hmem]

/-- One report cleans its port and keeps what was clean. -/
theorem Repairing.report (h : Repairing T start clean r) (hp : rep.port ∈ T.children)
    (hkeys : rep.subtrees.keys = T.below rep.port) :
    Repairing T start (insert rep.port clean) (rep.apply r) := by
  have hself : rep.port ∉ T.below rep.port := fun hmem =>
    Finset.disjoint_left.mp (T.apart rep.port hp) hmem hp
  refine ⟨?_, ?_, ?_⟩
  · intro k q hk
    rw [get_report hkeys] at hk
    cases hr : r.get k with
    | none =>
        simp only [hr, Option.ite_none_right_eq_some, Option.some.injEq] at hk
        rw [← hk.2]
        exact hp
    | some q' =>
        simp only [hr, Option.ite_none_left_eq_some, Option.some.injEq] at hk
        exact hk.2 ▸ h.ports k q' hr
  · intro v
    rw [← h.self v, get_report hkeys]
    cases hr : r.get v with
    | none =>
        simp only [Option.ite_none_right_eq_some, Option.some.injEq, reduceCtorEq, iff_false,
          not_and]
        rintro hv rfl
        exact hself hv
    | some q =>
        simp only [Option.ite_none_left_eq_some, Option.some.injEq]
        constructor
        · exact fun hv => hv.2
        · rintro rfl
          exact ⟨fun hc => hc.2.1 hc.1, rfl⟩
  · intro k q hq hk
    rw [get_report hkeys] at hk
    cases hr : r.get k with
    | none =>
        simp only [hr, Option.ite_none_right_eq_some, Option.some.injEq] at hk
        rw [← hk.2]
        exact Or.inl hk.1
    | some q' =>
        simp only [hr, Option.ite_none_left_eq_some, Option.some.injEq] at hk
        obtain ⟨hkept, rfl⟩ := hk
        rcases Set.mem_insert_iff.mp hq with rfl | hq
        · -- the reporting port: what it keeps was reported or is the route to itself
          by_contra hbad
          rw [not_or] at hbad
          exact hkept ⟨rfl, hbad.2, hbad.1⟩
        · exact h.cleaned k q' hq hr

/-- A round of reports cleans every port that took part. -/
theorem Repairing.reports : ∀ {l : List SubtreeReport} {clean : Set String} {r : SubTreeRouter},
    Repairing T start clean r → (∀ rep ∈ l, rep.port ∈ T.children) →
    (∀ rep ∈ l, rep.subtrees.keys = T.below rep.port) →
    Repairing T start (clean ∪ {p | ∃ rep ∈ l, rep.port = p}) (l.foldl SubtreeReport.apply r)
  | [], _, _, h, _, _ => by simpa using h
  | rep :: l, clean, r, h, hp, hkeys => by
      have hrep := h.report (hp rep (by simp)) (hkeys rep (by simp))
      have hrest := Repairing.reports hrep (fun x hx => hp x (List.mem_cons_of_mem _ hx))
        (fun x hx => hkeys x (List.mem_cons_of_mem _ hx))
      refine ⟨hrest.ports, hrest.self, ?_⟩
      intro k q hq
      refine hrest.cleaned k q ?_
      rcases hq with hq | ⟨x, hx, rfl⟩
      · exact Or.inl (Set.mem_insert_of_mem _ hq)
      · rcases List.mem_cons.mp hx with rfl | hx
        · exact Or.inl (Set.mem_insert _ _)
        · exact Or.inr ⟨x, hx, rfl⟩

/-- On a clean table a report installs all routes of its port. -/
theorem get_report_of_clean (h : Repairing T start T.children r) (hp : rep.port ∈ T.children)
    (hkeys : rep.subtrees.keys = T.below rep.port) {k : String} (hk : k ∈ T.below rep.port) :
    (rep.apply r).get k = some rep.port := by
  rw [get_report hkeys]
  cases hr : r.get k with
  | none => simp [hk]
  | some q =>
      have hq : q ∈ T.children := h.ports k q hr
      have hqp : q = rep.port := by
        by_contra hne
        rcases h.cleaned k q hq hr with hbelow | rfl
        · exact Finset.disjoint_left.mp (T.disjoint q hq rep.port hp hne) hbelow hk
        · exact Finset.disjoint_left.mp (T.apart rep.port hp) hk hq
      simp [hqp, hk]

/-- The routes of a port survive the true reports of all children. -/
theorem get_report_keeps (hkeys : rep.subtrees.keys = T.below rep.port) {k p : String}
    (hk : k ∈ T.below p) (hr : r.get k = some p) : (rep.apply r).get k = some p := by
  rw [get_report hkeys, hr]
  show (if p = rep.port ∧ k ≠ rep.port ∧ k ∉ T.below rep.port then none else some p) = some p
  apply if_neg
  rintro ⟨rfl, -, hnot⟩
  exact hnot hk

/-- A round of reports on a clean table installs the routes of every port that took part. -/
theorem get_reports_of_clean : ∀ {l : List SubtreeReport} {r : SubTreeRouter},
    Repairing T start T.children r → (∀ rep ∈ l, rep.port ∈ T.children) →
    (∀ rep ∈ l, rep.subtrees.keys = T.below rep.port) → ∀ {k p : String}, k ∈ T.below p →
    (r.get k = some p ∨ ∃ rep ∈ l, rep.port = p) → (l.foldl SubtreeReport.apply r).get k = some p
  | [], r, _, _, _, k, p, _, hin => by simpa using hin
  | rep :: l, r, h, hp, hkeys, k, p, hk, hin => by
      have hrepp := hp rep (by simp)
      have hrepk := hkeys rep (by simp)
      have hclean : Repairing T start T.children (rep.apply r) := by
        have hrep := h.report hrepp hrepk
        rwa [Set.insert_eq_of_mem (Finset.mem_coe.mpr hrepp)] at hrep
      refine get_reports_of_clean hclean (fun x hx => hp x (List.mem_cons_of_mem _ hx))
        (fun x hx => hkeys x (List.mem_cons_of_mem _ hx)) hk ?_
      rcases hin with hr | ⟨x, hx, rfl⟩
      · exact Or.inl (get_report_keeps hrepk hk hr)
      · rcases List.mem_cons.mp hx with rfl | hx
        · exact Or.inl (get_report_of_clean h hrepp hrepk hk)
        · exact Or.inr ⟨x, hx, rfl⟩

end Report

/-- Two rounds of true reports repair any table whose ports are the connected children: it ends with
the routes of every child to everything below it, and besides them only the routes of children to
themselves that it began with. -/
theorem two_rounds_repair (T : TrueSubtrees) (start : SubTreeRouter)
    (hstart : ∀ k q, start.get k = some q → q ∈ T.children) {round₁ round₂ : List SubtreeReport}
    (h₁ : IsRound T round₁) (h₂ : IsRound T round₂) (k v : String) :
    ((round₁ ++ round₂).foldl SubtreeReport.apply start).get k = some v ↔
      v ∈ T.children ∧ (k ∈ T.below v ∨ k = v ∧ start.get v = some v) := by
  have hbegin : Repairing T start ∅ start :=
    ⟨hstart, fun _ => Iff.rfl, fun _ _ hq => absurd hq (Set.notMem_empty _)⟩
  -- after the first round every port is clean
  have hfirst : Repairing T start T.children (round₁.foldl SubtreeReport.apply start) := by
    have h := hbegin.reports (fun rep hrep => h₁.port_mem hrep) h₁.2
    refine ⟨h.ports, h.self, fun k q hq => h.cleaned k q (Or.inr (h₁.exists_report hq))⟩
  have hsecond := hfirst.reports (fun rep hrep => h₂.port_mem hrep) h₂.2
  rw [List.foldl_append]
  constructor
  · intro hk
    have hv := hsecond.ports k v hk
    refine ⟨hv, ?_⟩
    rcases hsecond.cleaned k v (Or.inl hv) hk with hbelow | rfl
    · exact Or.inl hbelow
    · exact Or.inr ⟨rfl, (hsecond.self k).mp hk⟩
  · rintro ⟨hv, hbelow | ⟨rfl, hself⟩⟩
    · exact get_reports_of_clean hfirst (fun rep hrep => h₂.port_mem hrep) h₂.2 hbelow
        (Or.inr (h₂.exists_report hv))
    · exact (hsecond.self k).mpr hself

/-- Two children, `x` below the first. -/
def twoChildren : TrueSubtrees where
  children := {"a", "b"}
  below := fun p => if p = "a" then {"x"} else ∅
  disjoint := by decide
  apart := by decide

/-- One round of their reports, the first child first. -/
def roundOfTwo : List SubtreeReport :=
  [⟨MapOrder.sorted, "a", GoMap.ofList [("x", "x")]⟩, ⟨MapOrder.sorted, "b", ∅⟩]

/-- A stale route to `x` through the second child makes the first round refuse the true one; after
the second round it stands, and the route of `b` to itself is still there. -/
theorem two_rounds_repair_stale :
    let start : SubTreeRouter := GoMap.ofList [("x", "b"), ("b", "b"), ("gone", "a")]
    IsRound twoChildren roundOfTwo ∧
      ((roundOfTwo ++ roundOfTwo).foldl SubtreeReport.apply start).get "x" = some "a" ∧
      ((roundOfTwo ++ roundOfTwo).foldl SubtreeReport.apply start).get "b" = some "b" := by
  intro start
  have hround : IsRound twoChildren roundOfTwo := ⟨by decide, by decide⟩
  have hports : ∀ k q, start.get k = some q → q ∈ twoChildren.children := by
    intro k q hk
    have hmem : k ∈ start.keys := GoMap.mem_keys_of_get hk
    have hall : ∀ k ∈ start.keys, ∀ q ∈ start.get k, q ∈ twoChildren.children := by decide
    exact hall k hmem q hk
  exact ⟨hround, (two_rounds_repair twoChildren start hports hround hround "x" "a").mpr (by decide),
    (two_rounds_repair twoChildren start hports hround hround "b" "b").mpr (by decide)⟩

end OteStack
