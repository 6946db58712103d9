/-
# OteStack.Controller.EdgeNodeStatus — what an EdgeNode says about its node.

Two results about whole runs of the controller, from any notifications and ticks.  The handlers decide on
the last notification alone, so each result comes down to what one event may do to one EdgeNode.

A node that the controller reports for is recorded as not ready, whatever calls fail, as long as the calls
that record it go through when the controller takes over (`failures_recorded_iff`): the handlers only log
an error of `updateEdgeNodeStatus` and take over all the same.

An EdgeNode is ready only by the word of the kubelet, as long as no kubelet reports its node as not ready
(`ready_vouched_iff`): `handleNodeUpdate` takes every condition that is not unknown for "ready".
-/
import OteStack.Controller.EdgeNode
import OteStack.Lib.StepSystem

namespace OteStack.Controller

open OteStack.Lib
open OteStack.Lib.KubeApi (Error)

namespace EdgeNodeController

variable (s : EdgeNodeController) (fates : List (Fate Error))

/-! ## The failure of a node that is reported for is recorded -/

/-- If the controller reports for the node and the node has an EdgeNode, that one is not ready. -/
def CoveredAt (n : String) : Prop :=
  s.updateNodeMap.get n ≠ none → ∀ status, s.api.edgeNodes.get n = some status → status = edgeNodeNotReady

/-- The EdgeNode says something else than "not ready". -/
def Unrecorded (n : String) : Prop := ∃ status ∈ s.api.edgeNodes.get n, status ≠ edgeNodeNotReady

instance (n : String) : Decidable (s.Unrecorded n) :=
  inferInstanceAs (Decidable (∃ status ∈ s.api.edgeNodes.get n, status ≠ edgeNodeNotReady))

/-- The handler that takes over a node records it: both calls of `updateEdgeNodeStatus` go through, unless
there is nothing to write.  (A handler for a new node that is told that there is no EdgeNode gives up.) -/
def RecordsFailure (s : EdgeNodeController) : Event × List (Fate Error) → Prop
  | (.add node, fates) =>
      (∃ c ∈ node.ready, NeedsReport c) → s.Unrecorded node.name → SaysNotFound fates ∨ Records fates.tail
  | (.update oldNode newNode, fates) =>
      newNode.resourceVersion ≠ oldNode.resourceVersion → (∃ c ∈ newNode.ready, c.status = .unknown) →
        s.Unrecorded newNode.name → Records fates
  | _ => True

instance (s : EdgeNodeController) : ∀ a, Decidable (s.RecordsFailure a)
  | (.add node, fates) =>
      inferInstanceAs (Decidable ((∃ c ∈ node.ready, NeedsReport c) → s.Unrecorded node.name →
        SaysNotFound fates ∨ Records fates.tail))
  | (.update oldNode newNode, fates) =>
      inferInstanceAs (Decidable (newNode.resourceVersion ≠ oldNode.resourceVersion →
        (∃ c ∈ newNode.ready, c.status = .unknown) → s.Unrecorded newNode.name → Records fates))
  | (.delete _, _) => .isTrue trivial
  | (.tick _, _) => .isTrue trivial

variable {s}

/-- What a program about one node leaves of the others. -/
theorem exec_of_ne {n k : String} (hk : k ≠ n) {p : UpdateNodeMap → Api UpdateNodeMap}
    (hp : ∀ m, About n (SameElsewhere n m) (p m)) :
    (s.exec fates p).updateNodeMap.get k = s.updateNodeMap.get k ∧
      (s.exec fates p).api.edgeNodes.get k = s.api.edgeNodes.get k := by
  have hframe := run_withFaults_confined serve
    (I := fun a => a.edgeNodes.get k = s.api.edgeNodes.get k)
    (fun {a x} (hx : x.name = n) ha => (edgeNodes_serve_of_ne a (hx ▸ hk)).trans ha)
    (hp s.updateNodeMap) fates rfl
  exact ⟨hframe.1 k hk, hframe.2⟩

/-- A program about one node can only uncover that one. -/
theorem covered_exec_iff (hF : ∀ n, s.CoveredAt n) {n : String} {p : UpdateNodeMap → Api UpdateNodeMap}
    (hp : ∀ m, About n (SameElsewhere n m) (p m)) :
    (∀ k, (s.exec fates p).CoveredAt k) ↔ (s.exec fates p).CoveredAt n := by
  refine ⟨fun h => h n, fun h k => ?_⟩
  by_cases hk : k = n
  · exact hk ▸ h
  · obtain ⟨hmap, hedge⟩ := exec_of_ne fates hk hp
    rw [CoveredAt, hmap, hedge]
    exact hF k

theorem coveredAt_handleNodeAdd_iff (hF : ∀ n, s.CoveredAt n) (node : Node) :
    (s.exec fates (handleNodeAdd node)).CoveredAt node.name ↔ s.RecordsFailure (.add node, fates) := by
  rcases hs : s.api.edgeNodes.get node.name with _ | status
  · -- an EdgeNode that is made now is not ready
    refine iff_of_true (fun _ st hst => ?_) fun _ ⟨st, hst, _⟩ => ?_
    · rcases s.exec_handleNodeAdd_none fates hs with h | h
      · simp [h] at hst
      · exact Option.some.inj (hst.symm.trans h)
    · rw [hs] at hst
      exact absurd hst (by simp)
  · obtain ⟨htakes, hleaves⟩ := s.exec_handleNodeAdd_some fates hs
    by_cases htake : TakesOver node fates
    · obtain ⟨hmap, hedge⟩ := htakes htake
      have hiff : (s.exec fates (handleNodeAdd node)).CoveredAt node.name ↔
          (s.Unrecorded node.name → Records fates.tail) := by
        rw [CoveredAt, hmap, hedge, recorded_notReady_iff, Unrecorded, hs]
        simp
      rw [hiff, RecordsFailure]
      constructor
      · exact fun h _ hun => Or.inr (h hun)
      · exact fun h hun => (h htake.2 hun).resolve_left htake.1
    · rw [hleaves htake]
      refine iff_of_true (hF node.name) fun hneeds _ => Or.inl ?_
      by_contra hsaid
      exact htake ⟨hsaid, hneeds⟩

theorem coveredAt_updateFunc_iff (hF : ∀ n, s.CoveredAt n) (oldNode newNode : Node) :
    (s.exec fates (updateFunc oldNode newNode)).CoveredAt newNode.name ↔
      s.RecordsFailure (.update oldNode newNode, fates) := by
  by_cases hrv : newNode.resourceVersion = oldNode.resourceVersion
  · have hsame : s.exec fates (updateFunc oldNode newNode) = s := by simp [exec, updateFunc, hrv]
    rw [hsame]
    exact iff_of_true (hF _) fun h => absurd hrv h
  -- the branches of `handleNodeUpdate`, in its order
  rcases hready : newNode.ready with _ | c
  · obtain ⟨hmap, hedge⟩ := s.exec_updateFunc_none fates hrv hready
    refine iff_of_true ?_ (by simp [RecordsFailure, hready])
    rw [CoveredAt, hmap, hedge, recorded_notReady_iff]
    rintro hm ⟨st, hst, hne⟩
    exact absurd (hF _ hm st hst) hne
  by_cases hunknown : c.status = .unknown
  · obtain ⟨hmap, hedge⟩ := s.exec_updateFunc_unknown fates hrv hready hunknown
    rw [CoveredAt, hmap, hedge, recorded_notReady_iff]
    simp [RecordsFailure, hrv, hready, hunknown, Unrecorded]
  have hok : s.RecordsFailure (.update oldNode newNode, fates) := by
    simp [RecordsFailure, hready, hunknown]
  by_cases hreason : c.reason = edgeControllerReady
  · rw [s.exec_updateFunc_own fates hready hunknown hreason]
    exact iff_of_true (hF _) hok
  · obtain ⟨hmap, -⟩ := s.exec_updateFunc_other fates hrv hready hunknown hreason
    exact iff_of_true (fun hm => absurd hmap hm) hok

theorem covered_step_iff {it : MapOrder String} {s' : EdgeNodeController}
    {a : Event × List (Fate Error)} (hF : ∀ n, s.CoveredAt n) (hstep : s.step it a = some s') :
    (∀ n, s'.CoveredAt n) ↔ s.RecordsFailure a := by
  obtain ⟨e, fates⟩ := a
  obtain ⟨p, hp, rfl⟩ := Option.map_eq_some_iff.mp hstep
  cases e with
  | add node =>
      obtain rfl := Option.some.inj hp
      rw [covered_exec_iff fates hF (about_handleNodeAdd node)]
      exact coveredAt_handleNodeAdd_iff fates hF node
  | update oldNode newNode =>
      obtain rfl := Option.some.inj hp
      rw [covered_exec_iff fates hF (about_updateFunc oldNode newNode)]
      exact coveredAt_updateFunc_iff fates hF oldNode newNode
  | delete obj =>
      cases obj with
      | node node =>
          obtain rfl := Option.some.inj hp
          rw [covered_exec_iff fates hF (about_handleNodeDelete node)]
          refine iff_of_true (fun hm => absurd ?_ hm) trivial
          simp [exec, handleNodeDelete, get_deleteUpdatedNode]
      | finalStateUnknown key => cases hp
  | tick now =>
      obtain rfl := Option.some.inj hp
      obtain ⟨hmap, hedge⟩ := s.exec_updateNodeStatus fates it now
      refine iff_of_true (fun n => ?_) trivial
      rw [CoveredAt, hmap, hedge]
      exact hF n

/-- A controller that has just been started. -/
def start (api : ApiServer) : EdgeNodeController := ⟨∅, api⟩

/-- For every sequence of notifications and ticks and every pattern of failing calls: every node that the
controller reports for and that has an EdgeNode is recorded as not ready, at every moment, exactly when
every handler that takes over a node gets to record it. -/
theorem failures_recorded_iff (it : MapOrder String) (api : ApiServer)
    {as : List (Event × List (Fate Error))} {s' : EdgeNodeController}
    (hrun : runSteps (step it) (start api) as = some s') :
    (∀ bs t, bs <+: as → runSteps (step it) (start api) bs = some t → ∀ n, t.CoveredAt n) ↔
      StepsMeet (step it) RecordsFailure (start api) as := by
  have hstart : ∀ n, (start api).CoveredAt n := fun n h => absurd (GoMap.get_empty n) h
  exact forall_prefix_iff_stepsMeet (I := fun _ => True) (F := fun t => ∀ n, t.CoveredAt n)
    (fun _ _ _ => trivial) (fun _ hF hstep => covered_step_iff hF hstep) trivial hstart hrun

/-- A node whose Ready condition is as given. -/
def sampleNode (resourceVersion : String) (status : ConditionStatus) (reason : String) : Node :=
  ⟨"edge-1", resourceVersion, [⟨.ready, status, reason, "", 0⟩]⟩

/-- A node comes up, is ready, and is lost; the fates are those of the calls for the last notification. -/
def comesAndGoes (fates : List (Fate Error)) : List (Event × List (Fate Error)) :=
  [(.add (sampleNode "1" .true "KubeletReady"), []),
    (.update (sampleNode "1" .true "KubeletReady") (sampleNode "2" .true "KubeletReady"), []),
    (.update (sampleNode "2" .true "KubeletReady") (sampleNode "3" .unknown "NodeStatusUnknown"), fates)]

/-- The write of the status fails, and the controller reports for the node all the same. -/
theorem masked_without_record :
    ∃ s, runSteps (step .sorted) (start ⟨∅, ∅⟩) (comesAndGoes [.served, .refused (.text "timeout")]) =
        some s ∧
      s.updateNodeMap.get "edge-1" ≠ none ∧ s.api.edgeNodes.get "edge-1" = some edgeNodeReady :=
  exists_run (by decide)

/-- When the write goes through, even if its answer is lost, the failure is recorded. -/
theorem failures_recorded_lost_answer :
    ∃ s, runSteps (step .sorted) (start ⟨∅, ∅⟩) (comesAndGoes [.served, .lost (.text "timeout")]) =
        some s ∧
      s.updateNodeMap.get "edge-1" ≠ none ∧ s.CoveredAt "edge-1" := by
  obtain ⟨s, hs, hmasked⟩ : ∃ s, runSteps (step .sorted) (start ⟨∅, ∅⟩)
      (comesAndGoes [.served, .lost (.text "timeout")]) = some s ∧
        s.updateNodeMap.get "edge-1" ≠ none := exists_run (by decide)
  have hall := (failures_recorded_iff .sorted ⟨∅, ∅⟩ hs).mpr (by decide)
  exact ⟨s, hs, hmasked, hall _ s (List.prefix_refl _) hs "edge-1"⟩

/-! ## An EdgeNode is ready by the word of the kubelet -/

/-- The Ready condition of a node that an event reports, unless it is the controller's own. -/
def reported (n : String) : Event → Option NodeCondition
  | .add node => if node.name = n then node.ready.filter (·.reason ≠ edgeControllerReady) else none
  | .update _ newNode =>
      if newNode.name = n then newNode.ready.filter (·.reason ≠ edgeControllerReady) else none
  | _ => none

/-- The last one of a sequence of events. -/
def lastReported (n : String) (es : List Event) : Option NodeCondition :=
  es.foldl (fun last e => (reported n e).or last) none

theorem lastReported_append (n : String) (es : List Event) (e : Event) :
    lastReported n (es ++ [e]) = (reported n e).or (lastReported n es) := by
  rw [lastReported, List.foldl_append]
  rfl

/-- If the EdgeNode is ready, the last report of the kubelet was that the node is. -/
def VouchedAt (es : List Event) (s : EdgeNodeController) (n : String) : Prop :=
  s.api.edgeNodes.get n = some edgeNodeReady → ∃ c ∈ lastReported n es, c.status = .true

/-- The kubelet reports the given status of the node. -/
def Says (node : Node) (status : ConditionStatus) : Prop :=
  ∃ c ∈ node.ready, c.reason ≠ edgeControllerReady ∧ c.status = status

instance (node : Node) (status : ConditionStatus) : Decidable (Says node status) :=
  inferInstanceAs (Decidable (∃ c ∈ node.ready, c.reason ≠ edgeControllerReady ∧ c.status = status))

/-- The kubelet does not report a node as not ready while the EdgeNode would become or stay ready: not in
an update while there is an EdgeNode, and not otherwise while the EdgeNode is ready. -/
def NeverDenied (s : EdgeNodeController) : Event → Prop
  | .add node => Says node .false → s.api.edgeNodes.get node.name ≠ some edgeNodeReady
  | .update oldNode newNode =>
      if newNode.resourceVersion = oldNode.resourceVersion then
        Says newNode .false ∨ Says newNode .unknown → s.api.edgeNodes.get newNode.name ≠ some edgeNodeReady
      else Says newNode .false → s.api.edgeNodes.get newNode.name = none
  | _ => True

instance (s : EdgeNodeController) : ∀ e, Decidable (s.NeverDenied e)
  | .add node => inferInstanceAs (Decidable (Says node .false → _ ≠ _))
  | .update oldNode newNode =>
      inferInstanceAs (Decidable (if newNode.resourceVersion = oldNode.resourceVersion then
        Says newNode .false ∨ Says newNode .unknown → s.api.edgeNodes.get newNode.name ≠ some edgeNodeReady
      else Says newNode .false → s.api.edgeNodes.get newNode.name = none))
  | .delete _ => .isTrue trivial
  | .tick _ => .isTrue trivial

theorem recorded_nil (desired : String) (status : Option String) :
    recorded [] desired status = status.map fun _ => desired :=
  if_pos ⟨trivial, trivial⟩

/-- An EdgeNode that has just been marked as not ready needs no word. -/
theorem vouchedAt_of_notReady {es : List Event} {n : String} {status : Option String}
    (h : s.api.edgeNodes.get n = status.map fun _ => edgeNodeNotReady) : VouchedAt es s n := by
  intro hready
  rw [h] at hready
  cases status with
  | none => simp at hready
  | some st =>
      have hne : edgeNodeNotReady ≠ edgeNodeReady := by decide
      exact absurd (Option.some.inj hready) hne

/-- The report of an event about another node. -/
theorem vouchedAt_append_of_none {es : List Event} {e : Event} {n : String} (h : reported n e = none) :
    VouchedAt (es ++ [e]) s n ↔ VouchedAt es s n := by
  rw [VouchedAt, lastReported_append, h, Option.none_or, VouchedAt]

/-- A report while the EdgeNode stays as it is. -/
theorem vouchedAt_append_iff {es : List Event} {e : Event} {node : Node} (hF : VouchedAt es s node.name)
    (he : reported node.name e = node.ready.filter (·.reason ≠ edgeControllerReady)) :
    VouchedAt (es ++ [e]) s node.name ↔
      (Says node .false ∨ Says node .unknown → s.api.edgeNodes.get node.name ≠ some edgeNodeReady) := by
  by_cases hsaid : reported node.name e = none
  · rw [vouchedAt_append_of_none hsaid]
    refine iff_of_true hF fun h => ?_
    rw [he, Option.filter_eq_none_iff] at hsaid
    rcases h with ⟨c, hc, hreason, -⟩ | ⟨c, hc, hreason, -⟩
    · exact absurd hreason (by simpa using hsaid c hc)
    · exact absurd hreason (by simpa using hsaid c hc)
  · obtain ⟨c, hc⟩ := Option.ne_none_iff_exists'.mp hsaid
    have hfilter := he ▸ hc
    rw [Option.filter_eq_some_iff] at hfilter
    obtain ⟨hready, hreason⟩ := hfilter
    have hreason' : c.reason ≠ edgeControllerReady := by simpa using hreason
    rw [VouchedAt, lastReported_append, hc, Option.some_or]
    rcases hstatus : c.status with _ | _ | _
    · simp [Says, hready, hstatus]
    · simp [Says, hready, hstatus, hreason']
    · simp [Says, hready, hstatus, hreason']

/-- A handler of one node can only lose the word for that one. -/
theorem vouched_exec_iff {es : List Event} {e : Event} (hF : ∀ n, VouchedAt es s n) {n : String}
    (he : ∀ k, k ≠ n → reported k e = none) {p : UpdateNodeMap → Api UpdateNodeMap}
    (hp : ∀ m, About n (SameElsewhere n m) (p m)) :
    (∀ k, VouchedAt (es ++ [e]) (s.exec [] p) k) ↔ VouchedAt (es ++ [e]) (s.exec [] p) n := by
  refine ⟨fun h => h n, fun h k => ?_⟩
  by_cases hk : k = n
  · exact hk ▸ h
  · obtain ⟨-, hedge⟩ := exec_of_ne [] hk hp
    rw [vouchedAt_append_of_none (he k hk), VouchedAt, hedge]
    exact hF k

theorem vouchedAt_handleNodeAdd_iff {es : List Event} (hF : ∀ n, VouchedAt es s n) (node : Node) :
    VouchedAt (es ++ [.add node]) (s.exec [] (handleNodeAdd node)) node.name ↔
      s.NeverDenied (.add node) := by
  rcases hs : s.api.edgeNodes.get node.name with _ | status
  · have hmade : (s.exec [] (handleNodeAdd node)).api.edgeNodes.get node.name =
        (some "").map fun _ => edgeNodeNotReady := s.exec_handleNodeAdd_served hs
    exact iff_of_true (vouchedAt_of_notReady hmade) (by simp [NeverDenied, hs])
  · obtain ⟨htakes, hleaves⟩ := s.exec_handleNodeAdd_some [] hs
    by_cases htake : TakesOver node []
    · refine iff_of_true (vouchedAt_of_notReady ((htakes htake).2.trans (recorded_nil _ _))) ?_
      -- a node is taken over for an unknown condition or the controller's own
      rintro ⟨c, hc, hreason, hfalse⟩
      obtain ⟨c', hc', hneeds⟩ := htake.2
      obtain rfl := Option.some.inj (hc.symm.trans hc')
      rcases hneeds with h | h
      · simp [hfalse] at h
      · exact absurd h hreason
    · have hknown : ¬ Says node .unknown := by
        rintro ⟨c, hc, -, hunknown⟩
        exact htake ⟨by simp [SaysNotFound, Fate.next], c, hc, Or.inl hunknown⟩
      rw [hleaves htake, vouchedAt_append_iff (e := .add node) (hF node.name) (if_pos rfl), NeverDenied]
      simp [hknown]

theorem vouchedAt_updateFunc_iff {es : List Event} (hF : ∀ n, VouchedAt es s n) (oldNode newNode : Node) :
    VouchedAt (es ++ [.update oldNode newNode]) (s.exec [] (updateFunc oldNode newNode)) newNode.name ↔
      s.NeverDenied (.update oldNode newNode) := by
  by_cases hrv : newNode.resourceVersion = oldNode.resourceVersion
  · have hsame : s.exec [] (updateFunc oldNode newNode) = s := by simp [exec, updateFunc, hrv]
    rw [hsame, vouchedAt_append_iff (e := .update oldNode newNode) (hF newNode.name) (if_pos rfl),
      NeverDenied, if_pos hrv]
  rw [NeverDenied, if_neg hrv]
  -- the branches of `handleNodeUpdate`, in its order
  rcases hready : newNode.ready with _ | c
  · have hedge := (s.exec_updateFunc_none [] hrv hready).2.trans (recorded_nil _ _)
    exact iff_of_true (vouchedAt_of_notReady hedge) (by simp [Says, hready])
  by_cases hunknown : c.status = .unknown
  · have hedge := (s.exec_updateFunc_unknown [] hrv hready hunknown).2.trans (recorded_nil _ _)
    exact iff_of_true (vouchedAt_of_notReady hedge) (by simp [Says, hready, hunknown])
  by_cases hreason : c.reason = edgeControllerReady
  · have hown : reported newNode.name (.update oldNode newNode) = none := by
      simp [reported, hready, hreason]
    rw [s.exec_updateFunc_own [] hready hunknown hreason, vouchedAt_append_of_none hown]
    exact iff_of_true (hF _) (by simp [Says, hready, hreason])
  · -- the EdgeNode, if there is one, is ready now, whatever the condition says
    have hedge := (s.exec_updateFunc_other [] hrv hready hunknown hreason).2.trans (recorded_nil _ _)
    have hkubelet : reported newNode.name (.update oldNode newNode) = some c := by
      simp [reported, hready, hreason]
    rw [VouchedAt, lastReported_append, hkubelet, Option.some_or, hedge]
    rcases hstatus : c.status with _ | _ | _
    · simp [Says, hready, hstatus]
    · rcases s.api.edgeNodes.get newNode.name with _ | status
      · simp
      · simp [Says, hready, hstatus, hreason]
    · exact absurd hstatus hunknown

theorem vouched_step_iff {it : MapOrder String} {s' : EdgeNodeController} {es : List Event} {e : Event}
    (hF : ∀ n, VouchedAt es s n) (hstep : s.stepServed it e = some s') :
    (∀ n, VouchedAt (es ++ [e]) s' n) ↔ s.NeverDenied e := by
  obtain ⟨p, hp, rfl⟩ := Option.map_eq_some_iff.mp hstep
  cases e with
  | add node =>
      obtain rfl := Option.some.inj hp
      rw [vouched_exec_iff (e := .add node) hF (fun k hk => if_neg (Ne.symm hk)) (about_handleNodeAdd node)]
      exact vouchedAt_handleNodeAdd_iff hF node
  | update oldNode newNode =>
      obtain rfl := Option.some.inj hp
      rw [vouched_exec_iff (e := .update oldNode newNode) hF (fun k hk => if_neg (Ne.symm hk))
        (about_updateFunc oldNode newNode)]
      exact vouchedAt_updateFunc_iff hF oldNode newNode
  | delete obj =>
      cases obj with
      | node node =>
          obtain rfl := Option.some.inj hp
          rw [vouched_exec_iff hF (fun _ _ => rfl) (about_handleNodeDelete node)]
          have hgone : (s.exec [] (handleNodeDelete node)).api.edgeNodes.get node.name = none := by
            cases hs : s.api.edgeNodes.get node.name <;>
              simp [exec, handleNodeDelete, deleteEdgeNode, Proc.run, withFaults, Fate.next, serve, hs]
          exact iff_of_true (fun hready => absurd (hgone.symm.trans hready) (by simp)) trivial
      | finalStateUnknown key => cases hp
  | tick now =>
      obtain rfl := Option.some.inj hp
      obtain ⟨-, hedge⟩ := s.exec_updateNodeStatus [] it now
      refine iff_of_true (fun n => ?_) trivial
      rw [vouchedAt_append_of_none rfl, VouchedAt, hedge]
      exact hF n

/-- Starting without EdgeNodes, for every sequence of notifications and ticks whose calls are all served:
an EdgeNode is ready only if the last report of the kubelet said so, at every moment, exactly when no
kubelet ever reports its node as not ready while that makes or leaves the EdgeNode ready. -/
theorem ready_vouched_iff (it : MapOrder String) {s s' : EdgeNodeController} {es : List Event}
    (hnone : ∀ n, s.api.edgeNodes.get n = none) (hrun : runSteps (stepServed it) s es = some s') :
    (∀ past t, past <+: es → runSteps (stepServed it) s past = some t → ∀ n,
      t.api.edgeNodes.get n = some edgeNodeReady → ∃ c ∈ lastReported n past, c.status = .true) ↔
    StepsMeet (stepServed it) NeverDenied s es := by
  have hstart : ∀ n, VouchedAt [] s n := fun n h => absurd ((hnone n).symm.trans h) (by simp)
  exact forall_prefix_iff_stepsMeet_history (I := fun _ _ => True)
    (F := fun past t => ∀ n, VouchedAt past t n)
    (fun _ => True) (fun _ _ _ _ => trivial) (fun _ _ hF hstep => vouched_step_iff hF hstep)
    (fun _ _ => trivial) [] trivial hstart hrun

/-- A kubelet that reports its node as not ready makes the EdgeNode ready. -/
theorem notReady_node_recorded_ready :
    ∃ s, runSteps (stepServed .sorted) (start ⟨∅, ∅⟩)
        [.add (sampleNode "1" .false "KubeletNotReady"),
          .update (sampleNode "1" .false "KubeletNotReady") (sampleNode "2" .false "KubeletNotReady")] =
        some s ∧
      s.api.edgeNodes.get "edge-1" = some edgeNodeReady ∧
      lastReported "edge-1" [.add (sampleNode "1" .false "KubeletNotReady"),
          .update (sampleNode "1" .false "KubeletNotReady") (sampleNode "2" .false "KubeletNotReady")] =
        some ⟨.ready, .false, "KubeletNotReady", "", 0⟩ := by
  exact exists_run (by decide)

/-- A node that is ready, lost, reported for and ready again. -/
def recovers : List Event :=
  [.add (sampleNode "1" .true "KubeletReady"),
    .update (sampleNode "1" .true "KubeletReady") (sampleNode "2" .unknown "NodeStatusUnknown"), .tick 7,
    .update (sampleNode "2" .unknown "NodeStatusUnknown") (sampleNode "3" .true edgeControllerReady),
    .update (sampleNode "3" .true edgeControllerReady) (sampleNode "4" .true "KubeletReady")]

/-- Its EdgeNode is ready at the end, and the kubelet has said so. -/
theorem ready_vouched_recovers :
    ∃ s, runSteps (stepServed .sorted) (start ⟨∅, ∅⟩) recovers = some s ∧
      s.api.edgeNodes.get "edge-1" = some edgeNodeReady ∧
      ∃ c ∈ lastReported "edge-1" recovers, c.status = .true := by
  obtain ⟨s, hs, hready⟩ : ∃ s, runSteps (stepServed .sorted) (start ⟨∅, ∅⟩) recovers = some s ∧
      s.api.edgeNodes.get "edge-1" = some edgeNodeReady := exists_run (by decide)
  have hall := (ready_vouched_iff .sorted (fun n => GoMap.get_empty n) hs).mpr (by decide)
  exact ⟨s, hs, hready, hall _ s (List.prefix_refl _) hs "edge-1" hready⟩

end EdgeNodeController

end OteStack.Controller
