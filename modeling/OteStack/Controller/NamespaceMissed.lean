/-
# OteStack.Controller.NamespaceMissed — a missed namespace stays missed.

The other side of `OteStack.Controller.NamespaceDelivery`.  A namespace is sent once when it is made, and a
cluster is sent the namespaces once when its record is.  A recorded cluster that missed both, because it was
not connected, a route or a message was lost or the apiserver did not give the list, can connect and register
as often as it likes: it gets the namespace only after a restart of the manager, after the namespace was
deleted and made again, or along with the list for a cluster without a record whose name, as a pattern,
matches its own (`missed_namespace_stays_missed`).
-/
import OteStack.Controller.NamespaceSync

namespace OteStack.NamespaceSync

open OteStack.Lib (MapOrder runSteps runSteps_invariant StepsMeet runSteps_invariant_of_meet)

variable {re : Regexp} {root : String} {s s' : State} {a : Action}

/-! ## What is missed -/

section Missed

variable {y n : String}

/-- The message of a hop. -/
def message : Hop → ClusterMessage
  | .tunnel _ m => m
  | .dispatch _ m => m

/-- The message is for clusters that are matched by names which do not match `y`. -/
def Elsewhere (re : Regexp) (y : String) (m : ClusterMessage) : Prop :=
  ∀ w, IsClusterName w → m.Picks re w →
    ∃ z, IsClusterName z ∧ re.matchString z y = false ∧ re.matchString z w = true

/-- The cluster `y` does not have `n`, and neither the events nor the messages that are left will bring it. -/
structure Missing (re : Regexp) (y n : String) (s : State) : Prop where
  missing : ∀ o ∈ s.pool.log, o ≠ (y, n)
  sent : n ∉ s.namespaceEvents
  others : ∀ z ∈ s.clusterEvents, re.matchString z y = false
  elsewhere : ∀ f ∈ s.pool.tasks, n ∈ f.task.posted → Elsewhere re y (message f.hop)

theorem Elsewhere.not_picks {m : ClusterMessage} (hy : IsClusterName y) (h : Elsewhere re y m) :
    ¬ m.Picks re y := by
  intro hpick
  obtain ⟨z, -, hfalse, htrue⟩ := h y hy hpick
  rw [hfalse] at htrue
  cases htrue

/-- A message for clusters elsewhere is passed on to clusters elsewhere. -/
theorem Elsewhere.forward {it : MapOrder String} (hs : Named s) {c : String} {m : ClusterMessage} {hop : Hop}
    (h : Elsewhere re y m) (hhop : hop ∈ handleMessageFromParent re it (s.node c) m) :
    Elsewhere re y (message hop) := by
  obtain ⟨d, m', rfl, hpicks⟩ := picks_of_forward hs hhop
  intro w hw hpick
  obtain ⟨x, hx, hxpick, hxw⟩ := hpicks w hpick
  obtain ⟨z, hz, hzy, hzx⟩ := h x hx hxpick
  exact ⟨z, hz, hzy, matchString_trans re hz hx hw hzx hxw⟩

/-- One handling brings `n` to other clusters only. -/
theorem elsewhere_handle (hs : Named s) (hy : IsClusterName y) (ch : Choice) (f : Flight)
    (h : n ∈ f.task.posted → Elsewhere re y (message f.hop)) :
    (∀ o ∈ (work re s.node).emit ch f, o ≠ (y, n)) ∧
      ∀ f' ∈ (work re s.node).spawn ch f, n ∈ f'.task.posted → Elsewhere re y (message f'.hop) := by
  obtain ⟨hop, task⟩ := f
  cases hop with
  | dispatch c m =>
      refine ⟨by simp [work], ?_⟩
      intro f' hf' hn
      simp only [work, List.mem_ite_nil_left] at hf'
      obtain ⟨-, hf'⟩ := hf'
      obtain ⟨hop, hhop, rfl⟩ := List.mem_map.mp hf'
      exact (h hn).forward hs hhop
  | tunnel c m =>
      refine ⟨?_, ?_⟩
      · rintro o ho rfl
        simp only [work, List.mem_ite_nil_left, List.mem_ite_nil_right, List.mem_map, Prod.mk.injEq] at ho
        obtain ⟨-, ⟨hpick, -⟩, n', hn, rfl, rfl⟩ := ho
        exact (h hn).not_picks hy hpick
      · intro f' hf' hn
        simp only [work, List.mem_ite_nil_left] at hf'
        obtain ⟨-, hf'⟩ := hf'
        split at hf'
        · obtain rfl := List.mem_singleton.mp hf'
          exact fun w hw hpick => h hn w hw (ch.taken.picks_message.mp hpick)
        · obtain rfl := List.mem_singleton.mp hf'
          exact h hn

/-- The step is none of those after which the manager sends `n` to `y`: it does not start again, and its
informers add neither `n` nor a cluster whose name, as a pattern, matches `y`. -/
def Uneventful (re : Regexp) (root y n : String) (s : State) : Action → Prop
  | .createNamespace name created => created = .added → name ≠ n
  | .restart => False
  | .handleRegist i _ created => created = .added → ∀ r ∈ s.registrations[i]?, r.handler = root →
      r.name ∉ s.clusters → re.matchString r.name y = false
  | _ => True

instance (re : Regexp) (root y n : String) (s : State) : ∀ a, Decidable (Uneventful re root y n s a)
  | .createNamespace _ _ => inferInstanceAs (Decidable (_ → _))
  | .restart => .isFalse id
  | .handleRegist i _ created => inferInstanceAs (Decidable (created = .added → ∀ r ∈ s.registrations[i]?,
      r.handler = root → r.name ∉ s.clusters → re.matchString r.name y = false))
  | .deleteNamespace _ | .deleteCluster _ | .namespaceAdded _ | .clusterAdded _ _ | .connect _ _
  | .disconnect _ _ | .checkClusterName _ _ | .addRoute _ _ _ | .delRoute _ _ _ _ | .handle _ _ =>
      .isTrue trivial

/-- One step. -/
theorem Missing.step (hs : Named s) (hy : IsClusterName y) (hmiss : Missing re y n s)
    (ha : Uneventful re root y n s a) (h : step re root s a = some s') : Missing re y n s' := by
  cases transition_of_step h
  case createNamespace name created hname =>
    refine ⟨hmiss.missing, fun hn => ?_, hmiss.others, hmiss.elsewhere⟩
    rcases Creation.mem_events hn with hn | ⟨hadded, heq⟩
    · exact hmiss.sent hn
    · exact ha hadded heq.symm
  case restart => exact ha.elim
  case namespaceAdded name hname =>
    refine ⟨hmiss.missing, fun hn => hmiss.sent (List.mem_of_mem_erase hn), hmiss.others, ?_⟩
    intro f hf hn
    rcases List.mem_append.mp hf with hf | hf
    · exact hmiss.elsewhere f hf hn
    · -- the namespace of the event is another one
      obtain rfl := List.mem_singleton.mp hf
      obtain rfl : n = name := by simpa [controllerMsgHandler] using hn
      exact absurd hname hmiss.sent
  case listFailed =>
    exact ⟨hmiss.missing, hmiss.sent, fun z hz => hmiss.others z (List.mem_of_mem_erase hz), hmiss.elsewhere⟩
  case clusterAdded cluster hcluster =>
    refine ⟨hmiss.missing, hmiss.sent, fun z hz => hmiss.others z (List.mem_of_mem_erase hz), ?_⟩
    intro f hf hn
    rcases List.mem_append.mp hf with hf | hf
    · exact hmiss.elsewhere f hf hn
    · obtain rfl := List.mem_singleton.mp hf
      intro w hw hpick
      have hname := hs.events cluster hcluster
      exact ⟨cluster, hname, hmiss.others cluster hcluster, (picks_of_selector rfl hname w).mp hpick⟩
  case recorded hr hroot _ htable =>
    unfold State.createOrUpdateCluster
    split
    · exact ⟨hmiss.missing, hmiss.sent, hmiss.others, hmiss.elsewhere⟩
    · rename_i hnew
      refine ⟨hmiss.missing, hmiss.sent, fun z hz => ?_, hmiss.elsewhere⟩
      rcases Creation.mem_events hz with hz | ⟨hadded, rfl⟩
      · exact hmiss.others z hz
      · exact ha hadded _ hr hroot hnew
  case handle ch i pool hpool =>
    have hpool' := (work re s.node).all_of_step
      (P := fun _ f => n ∈ f.task.posted → Elsewhere re y (message f.hop)) (Q := fun _ o => o ≠ (y, n))
      (fun _ _ _ h => h) (fun _ _ _ h => h) (fun _ f hf => elsewhere_handle hs hy ch f hf) hpool
      ⟨hmiss.missing, hmiss.elsewhere⟩
    exact ⟨hpool'.1, hmiss.sent, hmiss.others, hpool'.2⟩
  all_goals exact ⟨hmiss.missing, hmiss.sent, hmiss.others, hmiss.elsewhere⟩

/-- A cluster that misses a namespace may connect, register, get routes and messages as often as it likes: it
goes on missing it in every run in which the manager does not start again and its informers add neither this
namespace nor a cluster whose name, as a pattern, matches the name of this one. -/
theorem missed_namespace_stays_missed (re : Regexp) (hs : Named s) (hy : IsClusterName y)
    (hmiss : Missing re y n s) {as : List Action}
    (hmeet : StepsMeet (NamespaceSync.step re root) (Uneventful re root y n) s as)
    (hrun : runSteps (NamespaceSync.step re root) s as = some s') : Missing re y n s' := by
  have hboth : Named s' ∧ Missing re y n s' := runSteps_invariant_of_meet
    (I := fun t => Named t ∧ Missing re y n t) (fun ht ha h => ⟨ht.1.step h, ht.2.step ht.1 hy ha h⟩)
    ⟨hs, hmiss⟩ hmeet hrun
  exact hboth.2

end Missed

/-- The root handles the registration of `c1`, and what the manager sends then, before it has stored the
connection. -/
def hastyRegistration : List Action :=
  [.createNamespace "team" .added, .checkClusterName "root" "c1", .handleRegist 0 none .added,
    .namespaceAdded "team", .handle plainChoice 0, .clusterAdded "c1" none, .handle plainChoice 0,
    .connect "root" "c1"]

/-- The cluster connects and registers once more. -/
def secondRegistration : List Action :=
  [.disconnect "root" "c1", .connect "root" "c1", .checkClusterName "root" "c1", .handleRegist 0 none .added]

/-- The manager starts again, and the namespace is sent once more. -/
def secondChance : List Action :=
  [.restart, .namespaceAdded "team", .handle plainChoice 0, .handle plainChoice 0]

/-- After the hasty registration the connected cluster misses a namespace that is there, also when it has
registered once more, and gets it when the manager restarts. -/
theorem missed_namespace_stays_missed_hasty :
    ∃ s s' s'', runSteps (step Regexp.anchored "root") initial hastyRegistration = some s ∧
      ("root", "c1") ∈ s.connected ∧ "team" ∈ s.namespaces ∧ Missing Regexp.anchored "c1" "team" s ∧
      runSteps (step Regexp.anchored "root") s secondRegistration = some s' ∧
      Missing Regexp.anchored "c1" "team" s' ∧
      runSteps (step Regexp.anchored "root") s' secondChance = some s'' ∧ ("c1", "team") ∈ s''.pool.log := by
  have hsome : (((runSteps (step Regexp.anchored "root") initial hastyRegistration).bind fun s =>
      runSteps (step Regexp.anchored "root") s secondRegistration).bind fun s' =>
      runSteps (step Regexp.anchored "root") s' secondChance).isSome = true := by decide
  obtain ⟨s'', hall⟩ := Option.isSome_iff_exists.mp hsome
  obtain ⟨s', hboth, hrun''⟩ := Option.bind_eq_some_iff.mp hall
  obtain ⟨s, hrun, hrun'⟩ := Option.bind_eq_some_iff.mp hboth
  have hmid : ∀ s ∈ runSteps (step Regexp.anchored "root") initial hastyRegistration,
      ("root", "c1") ∈ s.connected ∧ "team" ∈ s.namespaces ∧ s.pool.log = [] ∧
        s.namespaceEvents = [] ∧ s.clusterEvents = [] ∧ s.pool.tasks.length = 0 ∧
        StepsMeet (step Regexp.anchored "root") (Uneventful Regexp.anchored "root" "c1" "team") s
          secondRegistration := by decide
  have hend : ∀ t ∈ ((runSteps (step Regexp.anchored "root") initial hastyRegistration).bind fun s =>
      runSteps (step Regexp.anchored "root") s secondRegistration).bind fun s' =>
      runSteps (step Regexp.anchored "root") s' secondChance, ("c1", "team") ∈ t.pool.log := by decide
  obtain ⟨hconn, hn, hlog, hnamespace, hcluster, htasks, hmeet⟩ := hmid s hrun
  have hnamed : Named s := runSteps_invariant (fun hs h => Named.step hs h) named_initial hrun
  have hmiss : Missing Regexp.anchored "c1" "team" s :=
    ⟨by simp [hlog], by simp [hnamespace], by simp [hcluster], by simp [List.length_eq_zero_iff.mp htasks]⟩
  exact ⟨s, s', s'', hrun, hconn, hn, hmiss, hrun',
    missed_namespace_stays_missed Regexp.anchored hnamed (by decide) hmiss hmeet hrun', hrun'',
    hend s'' hall⟩

end OteStack.NamespaceSync
