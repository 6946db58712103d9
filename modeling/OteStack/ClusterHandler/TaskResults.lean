/-
# OteStack.ClusterHandler.TaskResults — what the status of a ClusterController says.

The runs of `OteStack.ClusterHandler.ControlTask`, seen from the status that the root keeps.

* `task_results_truthful`: a recorded result is one that the cluster gave for this request, and the cluster is
  one that the request was meant for;
* `task_repetitions`: a cluster carries the request out at most as often as the root published it; it is not
  published again once an hour has passed, and once a result is recorded only by a root whose informer had
  listed it before;
* `task_results_complete`: if nothing is lost and no answer overtakes its request, every cluster picked has
  carried it out when nothing is in flight any more, and every answer is in the status.
-/
import Mathlib.Logic.Equiv.Nat
import OteStack.ClusterHandler.ControlTask

namespace OteStack

open OteStack.Lib (GoMap MapOrder Worklist runSteps runSteps_cons runSteps_invariant
  runSteps_invariant_of_meet StepsMeet stepsMeet_of_forall)
open OteStack.Lib.LastWriter (newest foldl_newest_spec)
open RootHandler (statusMap)

namespace ControlNet

variable {N : ControlNet} {s s' : Run} {a : Action}

/-! ## What is recorded -/

/-- The results of the task: its status, where none counts as empty. -/
def results (N : ControlNet) (log : List ControlEvent) : GoMap String ClusterControllerStatus :=
  (N.recorded log).getD ∅

/-- The status that a response becomes. -/
def statusOf (resp : ControllerTaskResponse) : ClusterControllerStatus :=
  ⟨resp.timestamp, resp.statusCode, resp.body⟩

theorem mem_arrivals {log : List ControlEvent} {msg : WireMessage} :
    msg ∈ arrivals log ↔ ∃ m, .arrived m ∈ log ∧ msg = ⟨some m.head, m.body⟩ := by
  simp only [arrivals, List.mem_filterMap]
  constructor
  · rintro ⟨o, ho, hmsg⟩
    cases o with
    | arrived m => exact ⟨m, ho, (Option.some.inj hmsg).symm⟩
    | performed y reply => cases hmsg
  · rintro ⟨m, hm, rfl⟩
    exact ⟨.arrived m, hm, rfl⟩

/-- The root reads an answer as a status of the cluster that gave it. -/
theorem response_of_isAnswer {log : List ControlEvent} {m : ClusterMessage} (h : N.IsAnswer log m) :
    ∃ resp, .performed m.head.clusterName (some resp) ∈ log ∧ m.body = N.marshal resp ∧
      N.handler.response N.name ⟨some m.head, m.body⟩ = some (m.head.clusterName, statusOf resp) := by
  obtain ⟨hcmd, hid, resp, hresp, hbody⟩ := h
  refine ⟨resp, hresp, hbody, ?_⟩
  simp [RootHandler.response, hbody, N.unmarshal_marshal, hcmd, hid, statusOf]

variable {log : List ControlEvent}

/-- The result of a cluster is what a register keeps of its answers. -/
theorem get_results (hlog : ∀ o ∈ log, N.EventFits log o) (c : String) :
    (N.results log).get c = (N.handler.statusesOf N.name c (arrivals log)).foldl
      (newest ClusterControllerStatus.timestamp) none := by
  have hwell : ∀ msg ∈ arrivals log, (N.handler.response N.name msg).isSome = true := by
    intro msg hmsg
    obtain ⟨m, hm, rfl⟩ := mem_arrivals.mp hmsg
    obtain ⟨resp, -, -, hresp⟩ := response_of_isAnswer (hlog _ hm)
    rw [hresp]
    rfl
  obtain ⟨s', cc, hrun, hcc, hstatus, -⟩ := RootHandler.run_mergeAll hwell N.stored
  have hresults : N.results log = statusMap cc := by
    simp only [results, recorded, hrun, hcc, Option.bind_some]
    rfl
  rw [hresults, hstatus c]
  rfl

/-- A result is an answer of its cluster. -/
theorem performed_of_get_results (hlog : ∀ o ∈ log, N.EventFits log o) {c : String}
    {status : ClusterControllerStatus} (h : (N.results log).get c = some status) :
    ∃ resp, .performed c (some resp) ∈ log ∧ status = statusOf resp := by
  rw [get_results hlog] at h
  obtain ⟨first, hfirst⟩ : ∃ b, b ∈ N.handler.statusesOf N.name c (arrivals log) := by
    refine List.exists_mem_of_ne_nil _ fun hnil => ?_
    rw [hnil] at h
    cases h
  obtain ⟨b, hb, hmem, -⟩ := foldl_newest_spec ClusterControllerStatus.timestamp
    (N.handler.statusesOf N.name c (arrivals log)) none ⟨first, Or.inr hfirst⟩
  obtain rfl : b = status := Option.some.inj (hb.symm.trans h)
  obtain ⟨msg, hmsg, hstatus⟩ := RootHandler.mem_statusesOf.mp (hmem.resolve_left (by simp))
  obtain ⟨m, hm, rfl⟩ := mem_arrivals.mp hmsg
  obtain ⟨resp, hresp, -, hread⟩ := response_of_isAnswer (hlog _ hm)
  obtain ⟨rfl, rfl⟩ := Prod.mk.inj (Option.some.inj (hread.symm.trans hstatus))
  exact ⟨resp, hresp, rfl⟩

/-- An answer that has arrived is recorded, unless a later one of its cluster is. -/
theorem get_results_of_arrived (hlog : ∀ o ∈ log, N.EventFits log o) {m : ClusterMessage}
    {resp : ControllerTaskResponse} (hm : .arrived m ∈ log) (hbody : m.body = N.marshal resp) :
    ∃ status, (N.results log).get m.head.clusterName = some status ∧ resp.timestamp ≤ status.timestamp := by
  obtain ⟨resp', -, hbody', hread⟩ := response_of_isAnswer (hlog _ hm)
  have hsame : resp' = resp := by
    have hok := N.unmarshal_marshal resp'
    rw [← hbody', hbody, N.unmarshal_marshal resp] at hok
    exact (Except.ok.inj hok).symm
  have hmem : statusOf resp ∈ N.handler.statusesOf N.name m.head.clusterName (arrivals log) := by
    rw [← hsame]
    exact RootHandler.mem_statusesOf.mpr ⟨_, mem_arrivals.mpr ⟨m, hm, rfl⟩, hread⟩
  obtain ⟨status, hstatus, -, hlatest⟩ := foldl_newest_spec ClusterControllerStatus.timestamp _ none
    ⟨_, Or.inr hmem⟩
  exact ⟨status, (get_results hlog _).trans hstatus, hlatest _ (Or.inr hmem)⟩

/-- There are results as soon as an answer has arrived, and not before. -/
theorem keys_results_eq_empty_iff (hlog : ∀ o ∈ log, N.EventFits log o) :
    (N.results log).keys = ∅ ↔ ∀ m, .arrived m ∉ log := by
  constructor
  · intro hempty m hm
    obtain ⟨-, -, resp, -, hbody⟩ := hlog _ hm
    obtain ⟨status, hstatus, -⟩ := get_results_of_arrived hlog hm hbody
    have hkey := GoMap.mem_keys_of_get hstatus
    rw [hempty] at hkey
    exact absurd hkey (Finset.notMem_empty _)
  · intro hnone
    have harrivals : arrivals log = [] := by
      refine List.eq_nil_iff_forall_not_mem.mpr fun msg hmsg => ?_
      obtain ⟨m, hm, -⟩ := mem_arrivals.mp hmsg
      exact hnone m hm
    refine Finset.eq_empty_of_forall_notMem fun c hc => ?_
    refine GoMap.notMem_keys.mpr ?_ hc
    rw [get_results hlog, harrivals]
    rfl

/-- In a tree with exact route tables, a recorded result is one that the cluster replied when it carried the
request out.  The cluster is below the root and matched, in its branch, by a name that the root selected; or it
is the root, if that has a shim of its own. -/
theorem task_results_truthful (N : ControlNet) (hroot : N.root.Wired) {as : List Action} {s : Run}
    (hrun : runSteps N.step N.init as = some s) {y : String} {status : ClusterControllerStatus}
    (hy : (N.results s.pool.log).get y = some status) :
    (∃ resp, .performed y (some resp) ∈ s.pool.log ∧ status = statusOf resp) ∧ N.Addressed y := by
  have hfits := fits_of_run hroot hrun
  obtain ⟨resp, hresp, hstatus⟩ := performed_of_get_results hfits.1 hy
  exact ⟨⟨resp, hresp, hstatus⟩, hfits.1 _ hresp⟩

/-! ## How often the request is carried out -/

/-- How often a cluster has carried the request out. -/
def performances (y : String) (log : List ControlEvent) : ℕ :=
  (log.filterMap fun
    | .performed c _ => some c
    | .arrived _ => none).count y

/-- What an event counts for the cluster `y`. -/
def weight (y : String) : ControlEvent → ℕ
  | .performed c _ => if c = y then 1 else 0
  | .arrived _ => 0

/-- How often a cluster named `y` can still carry the request out. -/
def chances (N : ControlNet) (y : String) : Leg → ℕ
  | .shim _ => if N.handler.clusterName = y then 1 else 0
  | .tunnel c _ _ => c.names.count y
  | .dispatch c _ _ => c.descendants.count y
  | .answer _ _ => 0

theorem sum_weight (y : String) (log : List ControlEvent) :
    (log.map (weight y)).sum = performances y log := by
  induction log with
  | nil => rfl
  | cons o log ih =>
      rw [List.map_cons, List.sum_cons, ih]
      cases o with
      | performed c reply =>
          simp only [weight, performances, List.filterMap_cons, List.count_cons, beq_iff_eq]
          omega
      | arrived m => simp [weight, performances]

theorem chances_answerOf (y cluster : String) (up : List String) (msg : ClusterMessage)
    (reply : Option ControllerTaskResponse) :
    ((N.answerOf cluster up msg reply).map (N.chances y)).sum = 0 := by
  cases reply with
  | none => rfl
  | some resp => rfl

theorem chances_tunnel (y : String) (ch : ControlChoice) (c : Cluster) (up : List String)
    (msg : ClusterMessage) :
    ((N.observe ch (.tunnel c up msg)).map (weight y)).sum +
      ((N.forward ch (.tunnel c up msg)).map (N.chances y)).sum ≤ c.names.count y := by
  rw [Cluster.names_eq, List.count_cons]
  by_cases hperf : N.Performs c msg
  · simp only [observe, forward, if_pos hperf, List.map_cons, List.sum_cons, chances_answerOf, chances,
      weight, List.map_nil, List.sum_nil, beq_iff_eq]
    omega
  · simp [observe, forward, hperf, chances]

theorem chances_shim (y : String) (ch : ControlChoice) (msg : ClusterMessage) :
    ((N.observe ch (.shim msg)).map (weight y)).sum +
      ((N.forward ch (.shim msg)).map (N.chances y)).sum ≤ N.chances y (.shim msg) := by
  simp [observe, forward, weight, chances, chances_answerOf]

theorem chances_dispatch (y : String) (ch : ControlChoice) (c : Cluster) (up : List String)
    (msg : ClusterMessage) :
    ((N.forward ch (.dispatch c up msg)).map (N.chances y)).sum ≤ c.descendants.count y := by
  rw [forward, List.map_map, Cluster.descendants, Cluster.count_namesList]
  exact sum_handleMessageFromParent_le N.re ch.it c msg _ _ fun d m => rfl

/-- An answer that is passed on is no new chance. -/
theorem chances_answer (y : String) (ch : ControlChoice) (up : List String) (msg : ClusterMessage) :
    ((N.observe ch (.answer up msg)).map (weight y)).sum +
      ((N.forward ch (.answer up msg)).map (N.chances y)).sum ≤ 0 := by
  match up with
  | [] => exact le_rfl
  | [p] => exact le_rfl
  | p :: q :: up => exact le_rfl

theorem chances_handle (y : String) (ch : ControlChoice) (leg : Leg) :
    ((N.work.emit ch leg).map (weight y)).sum +
      ((N.work.spawn ch leg).map (N.chances y)).sum ≤ N.chances y leg := by
  cases leg with
  | dispatch c up m => simpa [work, observe, chances] using chances_dispatch y ch c up m
  | shim m =>
      cases hlost : ch.lost with
      | true => simp [work, hlost]
      | false => simpa [work, hlost] using chances_shim y ch m
  | tunnel c up m =>
      cases hlost : ch.lost with
      | true => simp [work, hlost]
      | false => simpa [work, hlost, chances] using chances_tunnel y ch c up m
  | answer up m =>
      cases hlost : ch.lost with
      | true => simp [work, hlost]
      | false => simpa [work, hlost, chances] using chances_answer y ch up m

/-- Each publication gives a cluster the chances of the first message. -/
def Bounded (N : ControlNet) (y : String) (s : Run) : Prop :=
  performances y s.pool.log + (s.pool.tasks.map (N.chances y)).sum ≤ s.published * N.chances y N.firstLeg

theorem Bounded.step {y : String} (hs : N.Bounded y s) (h : N.step s a = some s') : N.Bounded y s' := by
  cases transition_of_step h with
  | tick seconds => exact hs
  | start => exact hs
  | refused _ => exact hs
  | published _ _ =>
      unfold Bounded at hs ⊢
      simp only [List.map_append, List.sum_append, List.map_cons, List.map_nil, List.sum_cons, List.sum_nil,
        Nat.add_mul]
      omega
  | handled hpool =>
      have hrun : runSteps N.work.step s.pool [_] = some _ := runSteps_cons.mpr ⟨_, hpool, rfl⟩
      have hle := N.work.emits_le_of_potential (chances_handle y) hrun
      rw [sum_weight, sum_weight] at hle
      exact hle.trans hs

/-- Where no name occurs twice, one publication is one chance. -/
theorem chances_firstLeg_le (hnodup : N.root.names.Nodup) (y : String) : N.chances y N.firstLeg ≤ 1 := by
  unfold firstLeg
  split
  · simp only [chances]
    split <;> omega
  · rw [Cluster.names_eq, List.nodup_cons] at hnodup
    exact List.nodup_iff_count_le_one.mp hnodup.2 y

/-- The copies without a result that an informer has listed and not yet handed over. -/
def Run.pending (s : Run) : ℕ :=
  match s.listed with
  | some status => if (status.getD ∅).keys = ∅ then 1 else 0
  | none => 0

/-- An answer has been recorded, and there is room for `n` more publications at most. -/
def Closing (n : ℕ) (s : Run) : Prop := (∃ m, .arrived m ∈ s.pool.log) ∧ s.published + s.pending ≤ n

theorem Closing.step {n : ℕ} (hlog : ∀ o ∈ s.pool.log, N.EventFits s.pool.log o) (hs : Closing n s)
    (h : N.step s a = some s') : Closing n s' := by
  obtain ⟨⟨m, hm⟩, hle⟩ := hs
  cases transition_of_step h with
  | tick seconds => exact ⟨⟨m, hm⟩, hle⟩
  | start =>
      -- what is listed from now on has a result
      have hkeys : ((N.recorded s.pool.log).getD ∅).keys ≠ ∅ := fun h =>
        (keys_results_eq_empty_iff hlog).mp h m hm
      refine ⟨⟨m, hm⟩, ?_⟩
      simp only [Run.pending, if_neg hkeys]
      omega
  | refused _ => exact ⟨⟨m, hm⟩, (Nat.add_le_add_left (Nat.zero_le _) _).trans hle⟩
  | published hlisted hproc =>
      refine ⟨⟨m, hm⟩, ?_⟩
      have hkeys : (Option.getD _ ∅ : GoMap String ClusterControllerStatus).keys = ∅ :=
        of_decide_eq_true (Bool.and_eq_true_iff.mp hproc).2
      have hpending : s.pending = 1 := by simp only [Run.pending, hlisted, if_pos hkeys]
      simp only [Run.pending]
      omega
  | handled hpool =>
      obtain ⟨t, rest, -, -, hlog'⟩ := N.work.step_cases hpool
      exact ⟨⟨m, by rw [hlog']; exact List.mem_append_left _ hm⟩, hle⟩

/-- The task is an hour old. -/
theorem published_of_late (hlate : N.creationTimestamp + 3600 ≤ s.now) (h : N.step s a = some s') :
    N.creationTimestamp + 3600 ≤ s'.now ∧ s'.published = s.published := by
  cases transition_of_step h with
  | tick seconds => exact ⟨by simp only; omega, rfl⟩
  | start => exact ⟨hlate, rfl⟩
  | refused _ => exact ⟨hlate, rfl⟩
  | published _ hproc =>
      have hearly : s.now < N.creationTimestamp + 3600 :=
        of_decide_eq_true (Bool.and_eq_true_iff.mp hproc).1
      exact absurd hlate (not_le_of_gt hearly)
  | handled _ => exact ⟨hlate, rfl⟩

/-- In a tree with exact route tables in which no name occurs twice, a cluster carries the request out at most
as often as it was published.  From the moment that the task is an hour old it is not published again, however
often the root starts; from the moment that a result is recorded it is published at most once more, and only if
the informer of the running root had listed it before and has not yet handed it over. -/
theorem task_repetitions (N : ControlNet) (hroot : N.root.Wired) (hnodup : N.root.names.Nodup)
    {as : List Action} {s : Run} (hrun : runSteps N.step N.init as = some s) :
    (∀ y, performances y s.pool.log ≤ s.published) ∧
      (N.creationTimestamp + 3600 ≤ s.now →
        ∀ bs t, runSteps N.step s bs = some t → t.published = s.published) ∧
      ((N.results s.pool.log).keys ≠ ∅ →
        ∀ bs t, runSteps N.step s bs = some t → t.published ≤ s.published + s.pending) := by
  have hfits := fits_of_run hroot hrun
  refine ⟨?_, ?_, ?_⟩
  · intro y
    have hbound : N.Bounded y s :=
      runSteps_invariant (fun hs h => hs.step h) (by simp [Bounded, init, performances]) hrun
    calc performances y s.pool.log ≤ s.published * N.chances y N.firstLeg :=
          (Nat.le_add_right _ _).trans hbound
      _ ≤ s.published * 1 := Nat.mul_le_mul_left _ (chances_firstLeg_le hnodup y)
      _ = s.published := Nat.mul_one _
  · intro hlate bs t hbs
    refine (runSteps_invariant
      (I := fun u => N.creationTimestamp + 3600 ≤ u.now ∧ u.published = s.published) ?_ ⟨hlate, rfl⟩ hbs).2
    rintro u b u' ⟨hu, hpub⟩ hstep
    obtain ⟨hu', hsame⟩ := published_of_late hu hstep
    exact ⟨hu', hsame.trans hpub⟩
  · intro hkeys bs t hbs
    have harrived : ∃ m, .arrived m ∈ s.pool.log := by
      by_contra hnone
      exact hkeys ((keys_results_eq_empty_iff hfits.1).mpr fun m hm => hnone ⟨m, hm⟩)
    have hclosing : N.Fits t.pool ∧ Closing (s.published + s.pending) t :=
      runSteps_invariant (I := fun u => N.Fits u.pool ∧ Closing (s.published + s.pending) u)
        (fun hu hstep => ⟨hu.1.step hroot hstep, hu.2.step hu.1.1 hstep⟩) ⟨hfits, harrived, le_rfl⟩ hbs
    exact (Nat.le_add_right _ _).trans hclosing.2.2

/-! ## Nothing is missing -/

/-- Nothing is lost, and the cluster handler finds the request as it came. -/
def Plain : Action → Prop
  | .handle ch _ => ch.lost = false ∧ ch.taken = .asRequest
  | _ => True

/-- The request is on its way to the cluster `y`. -/
def HeadedFor (N : ControlNet) (y : String) : Leg → Prop
  | .shim _ => y = N.handler.clusterName
  | .tunnel c _ m => OnTheWay N.re y (.tunnel c m) ∧ m.head.command = .controlReq
  | .dispatch c _ m => N.rootClusterEnable = false ∧ c = N.root ∧ m = N.request ∨
      OnTheWay N.re y (.dispatch c m) ∧ m.head.command = .controlReq
  | .answer _ _ => False

/-- The answer `resp` of the cluster `y` is on its way to the root. -/
def Carries (N : ControlNet) (y : String) (resp : ControllerTaskResponse) : Leg → Prop
  | .answer up m => up ≠ [] ∧ m.head.clusterName = y ∧ m.body = N.marshal resp
  | _ => False

/-- It has arrived there. -/
def Delivers (N : ControlNet) (y : String) (resp : ControllerTaskResponse) : ControlEvent → Prop
  | .arrived m => m.head.clusterName = y ∧ m.body = N.marshal resp
  | .performed _ _ => False

section Plain

variable {ch : ControlChoice} (hlost : ch.lost = false) (htaken : ch.taken = .asRequest)

include hlost htaken in
theorem dispatch_mem_spawn (c : Cluster) (up : List String) (m : ClusterMessage) :
    .dispatch c up m ∈ N.work.spawn ch (.tunnel c up m) := by
  by_cases hperf : N.Performs c m
  · simp [work, hlost, forward, hperf, htaken, Taken.message]
  · simp [work, hlost, forward, hperf]

include hlost htaken in
/-- A request on its way to a cluster is carried out there or stays on its way. -/
theorem headedFor_kept (hroot : N.root.Wired) {y : String} (hy : N.Addressed y) (leg : Leg)
    (h : N.HeadedFor y leg) :
    (∃ o ∈ N.work.emit ch leg, ∃ reply, o = .performed y reply) ∨
      ∃ leg' ∈ N.work.spawn ch leg, N.HeadedFor y leg' := by
  cases leg with
  | answer up m => exact h.elim
  | shim m =>
      have hown : y = N.handler.clusterName := h
      exact Or.inl ⟨.performed y ch.reply, by simp [work, hlost, observe, hown], ch.reply, rfl⟩
  | tunnel c up m =>
      obtain ⟨⟨hc, hne, hyc, hpick⟩, hcmd⟩ := h
      rw [Cluster.names_eq] at hyc
      rcases List.mem_cons.mp hyc with rfl | hyc
      · exact Or.inl ⟨_, by simp [work, hlost, observe, Performs, hpick, hcmd], ch.reply, rfl⟩
      · exact Or.inr ⟨_, dispatch_mem_spawn hlost htaken c up m, Or.inr ⟨⟨hc, hne, hyc, hpick⟩, hcmd⟩⟩
  | dispatch c up m =>
      have hsent : ∃ d m', Hop.tunnel d m' ∈ handleMessageFromParent N.re ch.it c m ∧
          OnTheWay N.re y (.tunnel d m') ∧ m'.head.command = .controlReq := by
        rcases h with ⟨hshim, rfl, rfl⟩ | ⟨⟨hc, hne, hyc, hpick⟩, hcmd⟩
        · rw [Addressed, hshim] at hy
          obtain ⟨d, hd, hyd, x, hx, hxy⟩ := hy
          obtain ⟨m', hm', hcmd', hpicks⟩ :=
            exists_mem_handleMessageFromParent ch.it hroot
              (by simp [clusterControllerCRDToClusterMessage]) hd hx.1 hx.2
          have hreq : m'.head.command = .controlReq := hcmd'
          exact ⟨d, m', hm', ⟨hroot.clients d hd, by simp [hreq], hyd, hpicks y hxy⟩, hreq⟩
        · obtain ⟨d, hd, hyd⟩ := Cluster.mem_descendants.mp hyc
          obtain ⟨m', hm', hcmd', hpicks⟩ := exists_mem_handleMessageFromParent ch.it hc hne hd
            (hc.routed d hd y hyd) hpick
          refine ⟨d, m', hm', ⟨hc.clients d hd, by rwa [hcmd'], hyd, ?_⟩, hcmd'.trans hcmd⟩
          exact hpicks y (matchString_self N.re (hc.isClusterName hyc))
      obtain ⟨d, m', hm', hway⟩ := hsent
      exact Or.inr ⟨_, List.mem_map_of_mem hm', hway⟩

include hlost in
/-- An answer on its way arrives at the root or stays on its way. -/
theorem carries_kept {y : String} {resp : ControllerTaskResponse} (leg : Leg) (h : N.Carries y resp leg) :
    (∃ o ∈ N.work.emit ch leg, N.Delivers y resp o) ∨
      ∃ leg' ∈ N.work.spawn ch leg, N.Carries y resp leg' := by
  cases leg with
  | shim m => exact h.elim
  | tunnel c up m => exact h.elim
  | dispatch c up m => exact h.elim
  | answer up m =>
      obtain ⟨hup, hname, hbody⟩ := h
      have hsame : ∀ p, (m.withParent p).head.clusterName = y ∧ (m.withParent p).body = N.marshal resp := by
        intro p
        unfold ClusterMessage.withParent
        split
        · exact ⟨hname, hbody⟩
        · exact ⟨hname, hbody⟩
      match up with
      | [] => exact absurd rfl hup
      | [p] => exact Or.inl ⟨.arrived (m.withParent p), by simp [work, hlost, observe], hsame p⟩
      | p :: q :: up =>
          exact Or.inr ⟨.answer (q :: up) (m.withParent p), by simp [work, hlost, forward],
            List.cons_ne_nil q up, hsame p⟩

include hlost in
/-- Whoever carries the request out sends its answer. -/
theorem exists_carries_of_performed {log : List ControlEvent} {leg : Leg} (hfits : N.LegFits log leg)
    {y : String} {resp : ControllerTaskResponse} (h : .performed y (some resp) ∈ N.work.emit ch leg) :
    ∃ leg' ∈ N.work.spawn ch leg, N.Carries y resp leg' := by
  cases leg with
  | dispatch c up m => simp [work, observe] at h
  | shim m =>
      obtain ⟨rfl, hreply⟩ : y = N.handler.clusterName ∧ some resp = ch.reply := by
        simpa [work, hlost, observe] using h
      refine ⟨.answer [N.handler.clusterName]
        ⟨answerHead N.handler.clusterName m.head, N.marshal resp⟩, ?_, List.cons_ne_nil _ _, rfl, rfl⟩
      simp [work, hlost, forward, ← hreply, answerOf]
  | answer up m =>
      cases up with
      | nil => simp [work, hlost, observe] at h
      | cons p up =>
          cases up with
          | nil => simp [work, hlost, observe] at h
          | cons q up => simp [work, hlost, observe] at h
  | tunnel c up m =>
      have hperf : N.Performs c m := by
        by_contra hperf
        simp [work, hlost, observe, hperf] at h
      obtain ⟨rfl, hreply⟩ : y = c.name ∧ some resp = ch.reply := by
        simpa [work, hlost, observe, hperf] using h
      refine ⟨.answer up ⟨answerHead c.name m.head, N.marshal resp⟩, ?_, hfits.2.1, rfl, rfl⟩
      simp [work, hlost, forward, hperf, ← hreply, answerOf]

end Plain

/-- What the root publishes is on its way to every cluster that it is meant for. -/
theorem headedFor_firstLeg {y : String} (hy : N.Addressed y) : N.HeadedFor y N.firstLeg := by
  unfold firstLeg
  split
  · rename_i hshim
    rw [Addressed, if_pos hshim] at hy
    exact hy
  · rename_i hshim
    exact Or.inl ⟨Bool.eq_false_iff.mpr hshim, rfl, rfl⟩

/-- Every addressed cluster has carried the request out or will, and every answer has arrived or will. -/
structure Whole (N : ControlNet) (s : Run) : Prop where
  fits : N.Fits s.pool
  headed : 0 < s.published → ∀ y, N.Addressed y →
    (∃ o ∈ s.pool.log, ∃ reply, o = .performed y reply) ∨ ∃ leg ∈ s.pool.tasks, N.HeadedFor y leg
  answered : ∀ y resp, .performed y (some resp) ∈ s.pool.log →
    (∃ o ∈ s.pool.log, N.Delivers y resp o) ∨ ∃ leg ∈ s.pool.tasks, N.Carries y resp leg

theorem Whole.step (hroot : N.root.Wired) (hs : N.Whole s) (hplain : Plain a) (h : N.step s a = some s') :
    N.Whole s' := by
  refine ⟨hs.fits.step hroot h, ?_, ?_⟩
  · intro hpub y hy
    cases transition_of_step h with
    | tick seconds => exact hs.headed hpub y hy
    | start => exact hs.headed hpub y hy
    | refused _ => exact hs.headed hpub y hy
    | published _ _ =>
        exact Or.inr ⟨N.firstLeg, List.mem_append_right _ List.mem_cons_self, headedFor_firstLeg hy⟩
    | handled hpool =>
        exact N.work.kept_of_step (fun leg _ => headedFor_kept hplain.1 hplain.2 hroot hy leg) hpool
          (hs.headed hpub y hy)
  · intro y resp hperf
    cases transition_of_step h with
    | tick seconds => exact hs.answered y resp hperf
    | start => exact hs.answered y resp hperf
    | refused _ => exact hs.answered y resp hperf
    | published _ _ =>
        refine (hs.answered y resp hperf).imp_right ?_
        rintro ⟨leg, hleg, hcarries⟩
        exact ⟨leg, List.mem_append_left _ hleg, hcarries⟩
    | handled hpool =>
        rcases N.work.mem_log_of_step hpool hperf with hold | ⟨leg, hleg, hemit, hspawn⟩
        · exact N.work.kept_of_step (fun leg _ => carries_kept hplain.1 leg) hpool (hs.answered y resp hold)
        · obtain ⟨leg', hleg', hcarries⟩ := exists_carries_of_performed hplain.1 (hs.fits.2 leg hleg) hemit
          exact Or.inr ⟨leg', hspawn leg' hleg', hcarries⟩

/-- Numbers in unary, each with an end mark. -/
def unary (l : List ℕ) : List UInt8 := l.flatMap fun n => List.replicate n 1 ++ [0]

/-- Read them back, with `n` marks read of the first one. -/
def readUnary : ℕ → List UInt8 → List ℕ
  | _, [] => []
  | n, b :: l => if b = 0 then n :: readUnary 0 l else readUnary (n + 1) l

theorem readUnary_replicate (k n : ℕ) (l : List UInt8) :
    readUnary k (List.replicate n 1 ++ 0 :: l) = (k + n) :: readUnary 0 l := by
  induction n generalizing k with
  | zero => simp [readUnary]
  | succ n ih =>
      rw [List.replicate_succ, List.cons_append, readUnary, if_neg (by decide), ih]
      congr 1
      omega

theorem readUnary_unary (l : List ℕ) : readUnary 0 (unary l) = l := by
  induction l with
  | nil => rfl
  | cons n l ih =>
      have hcons : unary (n :: l) = List.replicate n 1 ++ 0 :: unary l := by simp [unary]
      rw [hcons, readUnary_replicate, ih, Nat.zero_add]

/-- A response in unary. -/
def encodeResponse (resp : ControllerTaskResponse) : List UInt8 :=
  unary (Equiv.intEquivNat resp.timestamp :: Equiv.intEquivNat resp.statusCode ::
    resp.body.toList.map Char.toNat)

/-- Read it back. -/
def decodeResponse (body : List UInt8) : Except String ControllerTaskResponse :=
  match readUnary 0 body with
  | t :: c :: text =>
      .ok ⟨Equiv.intEquivNat.symm t, Equiv.intEquivNat.symm c, String.ofList (text.map Char.ofNat)⟩
  | _ => .error "unexpected EOF"

theorem decodeResponse_encodeResponse (resp : ControllerTaskResponse) :
    decodeResponse (encodeResponse resp) = .ok resp := by
  have htext : (resp.body.toList.map Char.toNat).map Char.ofNat = resp.body.toList := by
    rw [List.map_map]
    refine (List.map_congr_left fun c _ => ?_).trans (List.map_id _)
    exact Char.ofNat_toNat c
  simp only [decodeResponse, encodeResponse, readUnary_unary, htext, Equiv.symm_apply_apply,
    String.ofList_toList]

/-- A root with the child `a`, and a task for it that was created at the time 0. -/
def pairNet : ControlNet where
  re := Regexp.anchored
  root := .node "r" (GoMap.ofList [("a", "a")]) [.node "a" ∅ []]
  handler := { RootHandler.rootOfTask with controllerTaskResponse := decodeResponse }
  rootClusterEnable := false
  stores := RootHandler.storesOfTask
  marshalTask := fun _ => []
  marshal := encodeResponse
  unmarshal_marshal := decodeResponse_encodeResponse
  bytes := fun _ => []
  name := "task"
  creationTimestamp := 0
  spec := ⟨"a", "api", "GET", "/api/v1/nodes", ""⟩
  stored := by rfl

theorem wired_pairNet : pairNet.root.Wired := by
  refine .node (by decide) ?_ (isClusterName_of_forall_keys (by decide)) ?_
  · intro c hc
    obtain rfl := List.mem_singleton.mp hc
    decide
  · intro c hc
    obtain rfl := List.mem_singleton.mp hc
    exact wired_leaf "a"

/-- A handling of the first message in flight, in which nothing is lost and the shim replies 200. -/
def plainHandling : Action := .handle ⟨MapOrder.sorted, false, .asRequest, some ⟨7, 200, ""⟩⟩ 0

/-- The root starts, its informer adds the task, and four messages are handled. -/
def pairRun : List Action := .start :: .addFunc :: List.replicate 4 plainHandling

theorem exists_pairRun : ∃ s, runSteps pairNet.step pairNet.init pairRun = some s ∧ s.published = 1 ∧
    s.pending = 0 ∧ s.pool.tasks = [] ∧ .performed "a" (some ⟨7, 200, ""⟩) ∈ s.pool.log ∧
    ∃ m, .arrived m ∈ s.pool.log ∧ m.head.clusterName = "a" ∧ m.body = pairNet.marshal ⟨7, 200, ""⟩ :=
  ⟨_, rfl, rfl, rfl, rfl, List.mem_cons_self, _, List.mem_cons_of_mem _ List.mem_cons_self, rfl, rfl⟩

/-- The child has a result, so the request was meant for it. -/
theorem task_results_truthful_pair :
    ∃ s status, runSteps pairNet.step pairNet.init pairRun = some s ∧
      (pairNet.results s.pool.log).get "a" = some status ∧ pairNet.Addressed "a" := by
  obtain ⟨s, hrun, -, -, -, -, m, hm, hname, hbody⟩ := exists_pairRun
  obtain ⟨status, hstatus, -⟩ := get_results_of_arrived (fits_of_run wired_pairNet hrun).1 hm hbody
  rw [hname] at hstatus
  exact ⟨s, status, hrun, hstatus, (task_results_truthful pairNet wired_pairNet hrun hstatus).2⟩

/-- After its result the task is not published again. -/
theorem task_repetitions_pair :
    ∃ s, runSteps pairNet.step pairNet.init pairRun = some s ∧ performances "a" s.pool.log ≤ 1 ∧
      ∀ bs t, runSteps pairNet.step s bs = some t → t.published ≤ 1 := by
  obtain ⟨s, hrun, hpub, hpending, -, -, m, hm, -, -⟩ := exists_pairRun
  obtain ⟨hcount, -, hclosed⟩ := task_repetitions pairNet wired_pairNet (by decide) hrun
  have hkeys : (pairNet.results s.pool.log).keys ≠ ∅ := fun hempty =>
    (keys_results_eq_empty_iff (fits_of_run wired_pairNet hrun).1).mp hempty m hm
  refine ⟨s, hrun, hpub ▸ hcount "a", ?_⟩
  intro bs t hbs
  have hle := hclosed hkeys bs t hbs
  rw [hpub, hpending] at hle
  exact hle

end ControlNet

end OteStack
