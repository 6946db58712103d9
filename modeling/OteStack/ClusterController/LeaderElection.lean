/-
# OteStack.ClusterController.LeaderElection — root cluster controllers that elect a leader.

Several root cluster controllers may run with `--leader-election`.  Each one takes part in an election for a
lock at the apiserver; its identity there is its host name, an underscore and its listen address.  When it
learns of a leader that it has not reported before, it notes the address of the leader and starts its
cluster handler (`OnNewLeader`); when it becomes the leader itself, it deletes that note
(`OnStartedLeading`).  Both callbacks run in goroutines of their own.  A connection to a root that has a
note is redirected to the address in it.

The cluster handler is started at every report.  The second start finds the listen address in use, by the
process itself, and the process exits.

* `process_knows_one_leader`: a process that is still there when its callbacks have run has known one
  leader, so the election never hands over: with a new leader all processes that knew the old one end, the
  new leader's own included.
* `settled_roots_redirect_to_leader`: once every process has reported the holder of the lock, a root accepts
  connections exactly if its listen address is the leader's, and redirects to the leader if it is not.
-/
import Mathlib.Data.List.Perm.Basic
import Mathlib.Data.String.Basic
import OteStack.Lib.StepSystem

namespace OteStack.LeaderElection

open OteStack.Lib (runSteps runSteps_invariant)

/-! ## Identities -/

/-- How a root cluster controller is run; Go's `valid` refuses an empty listen address. -/
structure Root where
  hostname : String
  tunnelListenAddr : String
  valid : tunnelListenAddr ≠ ""

/-- The identity in the election. -/
def Root.identity (r : Root) : String :=
  String.ofList (r.hostname.toList ++ '_' :: r.tunnelListenAddr.toList)

/-- The listen address in an identity: what is behind the last underscore, or all of it. -/
def leaderAddr (identify : String) : String :=
  String.ofList (identify.toList.reverse.takeWhile (· ≠ '_')).reverse

theorem takeWhile_append_cons_of_forall {α : Type*} {p : α → Bool} {a : α} {l t : List α}
    (hl : ∀ x ∈ l, p x = true) (ha : p a = false) : (l ++ a :: t).takeWhile p = l := by
  rw [List.takeWhile_append_of_pos hl, List.takeWhile_cons_of_neg (by simp [ha]), List.append_nil]

/-- An address without an underscore is read back. -/
theorem leaderAddr_identity {r : Root} (h : '_' ∉ r.tunnelListenAddr.toList) :
    leaderAddr r.identity = r.tunnelListenAddr := by
  have hmem : ∀ c ∈ r.tunnelListenAddr.toList.reverse, decide (c ≠ '_') = true := by
    intro c hc
    refine decide_eq_true ?_
    rintro rfl
    exact h (List.mem_reverse.mp hc)
  simp only [leaderAddr, Root.identity, String.toList_ofList, List.reverse_append, List.reverse_cons,
    List.append_assoc, List.singleton_append]
  rw [takeWhile_append_cons_of_forall hmem (by decide), List.reverse_reverse, String.ofList_toList]

/-- Go's `setLeaderListenAddr`: the note after it. -/
def setLeaderListenAddr (leaderListenAddr leaderAddr currentAddr : String) : String :=
  if leaderAddr = currentAddr then leaderListenAddr else leaderAddr

/-! ## Processes -/

/-- The callbacks of the election that have their goroutine but have not run. -/
inductive Callback where
  | onStartedLeading
  | onNewLeader (identify : String)
  deriving DecidableEq, Repr

/-- A running process.  `started` is the leader whose report started the cluster handler, `reports` are all
the leaders that were reported. -/
structure Process where
  leaderListenAddr : String
  started : Option String
  leading : Bool
  reportedLeader : String
  reports : List String
  callbacks : List Callback
  deriving DecidableEq, Repr

namespace Process

/-- A process that has just started. -/
def fresh : Process := ⟨"", none, false, "", [], []⟩

/-- `maybeReportTransition` of the election: a holder that was not the last one reported gets a callback. -/
def maybeReportTransition (p : Process) (holder : String) : Process :=
  if holder = p.reportedLeader then p
  else { p with
    reportedLeader := holder
    reports := holder :: p.reports
    callbacks := .onNewLeader holder :: p.callbacks }

/-- The process becomes the leader under the given identity. -/
def acquire (p : Process) (identity : String) : Process :=
  let q := p.maybeReportTransition identity
  { q with leading := true, callbacks := .onStartedLeading :: q.callbacks }

/-- One callback of a process with the given listen address.  The cluster handler can listen only once; the
second attempt is fatal. -/
def run (p : Process) (tunnelListenAddr : String) : Callback → Option Process
  | .onStartedLeading =>
      some { p with leaderListenAddr := setLeaderListenAddr p.leaderListenAddr "" tunnelListenAddr }
  | .onNewLeader identify =>
      match p.started with
      | some _ => none
      | none => some { p with
          leaderListenAddr := setLeaderListenAddr p.leaderListenAddr (leaderAddr identify) tunnelListenAddr
          started := some identify }

/-- Go's `accessHandler` and `controllerHandler`: no note, no redirect. -/
def Accepts (p : Process) : Prop := p.leaderListenAddr = ""

instance (p : Process) : Decidable p.Accepts := inferInstanceAs (Decidable (_ = _))

end Process

/-! ## The system -/

variable {ι : Type*} [DecidableEq ι]

/-- The processes that run, and the holder in the lock, which is empty at first. -/
structure State (ι : Type*) where
  processes : ι → Option Process
  holder : String

/-- What may happen to one of the roots: its process starts, takes the lock, reads the lock, ends (it
crashes, or it is the leader and fails to renew), or runs one of its callbacks. -/
inductive Action (ι : Type*) where
  | start (r : ι)
  | acquire (r : ι)
  | observe (r : ι)
  | exit (r : ι)
  | callback (r : ι) (i : ℕ)

/-- The state with another process, or none, of one root. -/
def State.setProcess (s : State ι) (r : ι) (p : Option Process) : State ι :=
  { s with processes := Function.update s.processes r p }

/-- One step.  When the lock can be taken is left open: any process may take it at any time. -/
def step (roots : ι → Root) (s : State ι) : Action ι → Option (State ι)
  | .start r => match s.processes r with
      | none => some (s.setProcess r (some .fresh))
      | some _ => none
  | .acquire r => (s.processes r).map fun p =>
      { s.setProcess r (some (p.acquire (roots r).identity)) with holder := (roots r).identity }
  | .observe r => (s.processes r).map fun p => s.setProcess r (some (p.maybeReportTransition s.holder))
  | .exit r => (s.processes r).map fun _ => s.setProcess r none
  | .callback r i => (s.processes r).bind fun p => p.callbacks[i]?.map fun c =>
      s.setProcess r (Process.run { p with callbacks := p.callbacks.eraseIdx i } (roots r).tunnelListenAddr c)

/-- Nobody runs and nobody holds the lock. -/
def init : State ι := ⟨fun _ => none, ""⟩

/-! ## What holds of a process -/

/-- The leaders whose callbacks have not run. -/
def announced (callbacks : List Callback) : List String :=
  callbacks.filterMap fun
    | .onStartedLeading => none
    | .onNewLeader identify => some identify

/-- What a root with listen address `addr` notes of a leader. -/
def note (addr identify : String) : String := if leaderAddr identify = addr then "" else leaderAddr identify

/-- Every leader that was reported started the handler or is still to be announced; a process that leads has
reported itself; and the note is that of the leader that started the handler, unless it was deleted since. -/
structure Consistent (root : Root) (p : Process) : Prop where
  reports : p.reports.Perm (announced p.callbacks ++ p.started.toList)
  last : p.reports.head?.getD "" = p.reportedLeader
  leads : p.leading = true → root.identity ∈ p.reports
  starting : .onStartedLeading ∈ p.callbacks → p.leading = true
  blank : p.started = none → p.leaderListenAddr = ""
  noted : ∀ l, p.started = some l → p.leaderListenAddr = note root.tunnelListenAddr l ∨
    p.leading = true ∧ p.leaderListenAddr = ""

variable {root : Root} {p q : Process}

theorem consistent_fresh : Consistent root .fresh where
  reports := List.Perm.nil
  last := rfl
  leads h := absurd h (by decide)
  starting h := absurd h (by decide)
  blank _ := rfl
  noted l h := absurd h (by simp [Process.fresh])

theorem Consistent.maybeReportTransition (h : Consistent root p) (holder : String) :
    Consistent root (p.maybeReportTransition holder) := by
  unfold Process.maybeReportTransition
  split
  · exact h
  · refine ⟨?_, rfl, ?_, ?_, h.blank, h.noted⟩
    · simpa [announced] using h.reports
    · exact fun hl => List.mem_cons_of_mem _ (h.leads hl)
    · intro hs
      rcases List.mem_cons.mp hs with heq | hs
      · cases heq
      · exact h.starting hs

/-- The last leader reported is the holder that was read, if there is one. -/
theorem reportedLeader_maybeReportTransition (p : Process) (holder : String) :
    (p.maybeReportTransition holder).reportedLeader = holder := by
  unfold Process.maybeReportTransition
  split
  · rename_i h
    exact h.symm
  · rfl

/-- A process that has reported a leader has it among its reports. -/
theorem Consistent.mem_reports (h : Consistent root p) (hne : p.reportedLeader ≠ "") :
    p.reportedLeader ∈ p.reports := by
  have hlast := h.last
  cases hr : p.reports with
  | nil =>
      rw [hr] at hlast
      exact absurd hlast.symm hne
  | cons l rest =>
      rw [hr] at hlast
      rw [← hlast]
      exact List.mem_cons_self

theorem identity_ne_empty (r : Root) : r.identity ≠ "" := by
  intro h
  have hlist := congrArg String.toList h
  simp [Root.identity] at hlist

/-- A process that has reported itself starts to lead. -/
theorem Consistent.lead (h : Consistent root p) (hself : p.reportedLeader = root.identity) :
    Consistent root { p with leading := true, callbacks := .onStartedLeading :: p.callbacks } := by
  refine ⟨?_, h.last, ?_, fun _ => rfl, h.blank, ?_⟩
  · simpa [announced] using h.reports
  · intro _
    have hmem := h.mem_reports (hself ▸ identity_ne_empty root)
    rwa [hself] at hmem
  · intro l hl
    exact (h.noted l hl).imp_right fun hold => ⟨rfl, hold.2⟩

theorem Consistent.acquire (h : Consistent root p) : Consistent root (p.acquire root.identity) :=
  (h.maybeReportTransition root.identity).lead (reportedLeader_maybeReportTransition p root.identity)

/-! ## What a step keeps -/

/-- A callback that runs is not announced any more. -/
theorem announced_perm {callbacks : List Callback} {i : ℕ} {c : Callback} (h : callbacks[i]? = some c) :
    (announced callbacks).Perm (announced (c :: callbacks.eraseIdx i)) := by
  obtain ⟨hlt, rfl⟩ := List.getElem?_eq_some_iff.mp h
  exact ((List.getElem_cons_eraseIdx_perm hlt).symm).filterMap _

theorem Consistent.onStartedLeading (h : Consistent root p) {i : ℕ}
    (hi : p.callbacks[i]? = some .onStartedLeading) :
    Consistent root { p with
      leaderListenAddr := setLeaderListenAddr p.leaderListenAddr "" root.tunnelListenAddr
      callbacks := p.callbacks.eraseIdx i } := by
  have hdeleted : setLeaderListenAddr p.leaderListenAddr "" root.tunnelListenAddr = "" :=
    if_neg root.valid.symm
  refine ⟨?_, h.last, h.leads, fun hs => h.starting (List.mem_of_mem_eraseIdx hs), fun _ => hdeleted, ?_⟩
  · exact h.reports.trans ((announced_perm hi).append_right _)
  · exact fun l _ => Or.inr ⟨h.starting (List.mem_of_getElem? hi), hdeleted⟩

theorem Consistent.onNewLeader (h : Consistent root p) {i : ℕ} {l : String}
    (hi : p.callbacks[i]? = some (.onNewLeader l)) (hnone : p.started = none) :
    Consistent root { p with
      leaderListenAddr := setLeaderListenAddr p.leaderListenAddr (leaderAddr l) root.tunnelListenAddr
      started := some l
      callbacks := p.callbacks.eraseIdx i } := by
  refine ⟨?_, h.last, h.leads, fun hs => h.starting (List.mem_of_mem_eraseIdx hs), fun hs => ?_, ?_⟩
  · have hreports := h.reports
    rw [hnone, Option.toList_none, List.append_nil] at hreports
    exact (hreports.trans (announced_perm hi)).trans (List.perm_append_singleton l _).symm
  · cases hs
  · rintro l' hl'
    obtain rfl := Option.some.inj hl'
    left
    rw [h.blank hnone]
    rfl

theorem Consistent.run (h : Consistent root p) {i : ℕ} {c : Callback} (hi : p.callbacks[i]? = some c)
    (hrun : Process.run { p with callbacks := p.callbacks.eraseIdx i } root.tunnelListenAddr c = some q) :
    Consistent root q := by
  cases c with
  | onStartedLeading =>
      obtain rfl := Option.some.inj hrun
      exact h.onStartedLeading hi
  | onNewLeader l =>
      cases hstarted : p.started with
      | some l' => simp [Process.run, hstarted] at hrun
      | none =>
          simp only [Process.run, hstarted, Option.some.injEq] at hrun
          subst hrun
          exact h.onNewLeader hi hstarted

/-- What holds in every state of a run. -/
structure Invariant (roots : ι → Root) (s : State ι) : Prop where
  consistent : ∀ r p, s.processes r = some p → Consistent (roots r) p
  holder : s.holder = "" ∨ ∃ l, s.holder = (roots l).identity

variable {roots : ι → Root} {s s' : State ι} {a : Action ι}

/-- A step changes the process of one root. -/
theorem Invariant.setProcess (hs : Invariant roots s) {r : ι} {p : Option Process}
    (hp : ∀ q, p = some q → Consistent (roots r) q) : Invariant roots (s.setProcess r p) where
  consistent r' q hq := by
    by_cases hr : r' = r
    · subst hr
      exact hp q (by simpa [State.setProcess] using hq)
    · exact hs.consistent r' q (by simpa [State.setProcess, hr] using hq)
  holder := hs.holder

theorem Invariant.step (hs : Invariant roots s) (h : step roots s a = some s') : Invariant roots s' := by
  cases a with
  | start r =>
      simp only [LeaderElection.step] at h
      split at h
      · obtain rfl := Option.some.inj h
        refine hs.setProcess fun q hq => ?_
        obtain rfl := Option.some.inj hq
        exact consistent_fresh
      · cases h
  | acquire r =>
      obtain ⟨p, hp, rfl⟩ := Option.map_eq_some_iff.mp h
      have hset : Invariant roots (s.setProcess r (some (p.acquire (roots r).identity))) := by
        refine hs.setProcess fun q hq => ?_
        obtain rfl := Option.some.inj hq
        exact (hs.consistent r p hp).acquire
      exact ⟨hset.consistent, Or.inr ⟨r, rfl⟩⟩
  | observe r =>
      obtain ⟨p, hp, rfl⟩ := Option.map_eq_some_iff.mp h
      refine hs.setProcess fun q hq => ?_
      obtain rfl := Option.some.inj hq
      exact (hs.consistent r p hp).maybeReportTransition s.holder
  | exit r =>
      obtain ⟨p, -, rfl⟩ := Option.map_eq_some_iff.mp h
      exact hs.setProcess fun q hq => by cases hq
  | callback r i =>
      obtain ⟨p, hp, h⟩ := Option.bind_eq_some_iff.mp h
      obtain ⟨c, hc, rfl⟩ := Option.map_eq_some_iff.mp h
      exact hs.setProcess fun q hq => (hs.consistent r p hp).run hc hq

theorem invariant_of_run {as : List (Action ι)} (hrun : runSteps (step roots) init as = some s) :
    Invariant roots s :=
  runSteps_invariant (fun hs h => hs.step h) ⟨by simp [init], Or.inl rfl⟩ hrun

/-! ## One process, one leader -/

/-- When the callbacks have run, the only leader reported is the one that started the handler. -/
theorem Consistent.reports_of_done (h : Consistent root p) (hdone : p.callbacks = []) :
    p.reports = p.started.toList := by
  have hreports := h.reports
  rw [hdone] at hreports
  cases hstarted : p.started with
  | none =>
      rw [hstarted] at hreports
      exact hreports.eq_nil
  | some l =>
      rw [hstarted] at hreports
      exact List.perm_singleton.mp hreports

/-- In every run, a process whose callbacks have run has reported at most one leader since it started, and its
handler was started for that one. -/
theorem process_knows_one_leader (roots : ι → Root) {as : List (Action ι)}
    (hrun : runSteps (step roots) init as = some s) {r : ι} (hp : s.processes r = some p)
    (hdone : p.callbacks = []) : p.reports.length ≤ 1 ∧ p.started = p.reports.head? := by
  rw [((invariant_of_run hrun).consistent r p hp).reports_of_done hdone]
  cases p.started with
  | none => exact ⟨Nat.zero_le 1, rfl⟩
  | some l => exact ⟨Nat.le_refl 1, rfl⟩

/-! ## Where connections go -/

/-- Every process has run its callbacks and reported the holder of the lock. -/
def Settled (s : State ι) : Prop :=
  s.holder ≠ "" ∧ ∀ r p, s.processes r = some p → p.callbacks = [] ∧ p.reportedLeader = s.holder

/-- The note of a process that has reported the leader `l` and run its callbacks. -/
theorem Consistent.leaderListenAddr_of_done {l : Root} (h : Consistent root p)
    (hl : '_' ∉ l.tunnelListenAddr.toList) (hroot : '_' ∉ root.tunnelListenAddr.toList)
    (hdone : p.callbacks = []) (hreported : p.reportedLeader = l.identity) :
    p.reports = [l.identity] ∧
      p.leaderListenAddr = if l.tunnelListenAddr = root.tunnelListenAddr then "" else l.tunnelListenAddr := by
  have hreports := h.reports_of_done hdone
  have hmem := h.mem_reports (by rw [hreported]; exact identity_ne_empty l)
  rw [hreported, hreports, Option.mem_toList] at hmem
  rw [hmem, Option.toList_some] at hreports
  refine ⟨hreports, ?_⟩
  rcases h.noted _ hmem with hnote | ⟨hleading, hblank⟩
  · rw [hnote, note, leaderAddr_identity hl]
  · -- a process that leads has reported itself, so the address in the note is its own
    have hself := h.leads hleading
    rw [hreports, List.mem_singleton] at hself
    have haddr : l.tunnelListenAddr = root.tunnelListenAddr := by
      rw [← leaderAddr_identity hl, ← leaderAddr_identity hroot, hself]
    rw [if_pos haddr, hblank]

/-- In every settled state of a run, with listen addresses that contain no underscore, every process has
known no leader but the holder of the lock, accepts connections exactly if it listens where the leader does,
and redirects them there if it does not. -/
theorem settled_roots_redirect_to_leader (roots : ι → Root)
    (hclean : ∀ r, '_' ∉ (roots r).tunnelListenAddr.toList) {as : List (Action ι)}
    (hrun : runSteps (step roots) init as = some s) (hsettled : Settled s) :
    ∃ l, s.holder = (roots l).identity ∧ ∀ r p, s.processes r = some p →
      p.reports = [s.holder] ∧ (p.Accepts ↔ (roots r).tunnelListenAddr = (roots l).tunnelListenAddr) ∧
      (¬ p.Accepts → p.leaderListenAddr = (roots l).tunnelListenAddr) := by
  have hs := invariant_of_run hrun
  obtain ⟨hheld, hdone⟩ := hsettled
  obtain ⟨l, hl⟩ := hs.holder.resolve_left hheld
  refine ⟨l, hl, fun r p hp => ?_⟩
  obtain ⟨hcallbacks, hreported⟩ := hdone r p hp
  obtain ⟨hreports, haddr⟩ := (hs.consistent r p hp).leaderListenAddr_of_done (hclean l) (hclean r) hcallbacks
    (hreported.trans hl)
  rw [hl]
  refine ⟨hreports, ?_⟩
  by_cases hsame : (roots l).tunnelListenAddr = (roots r).tunnelListenAddr
  · rw [if_pos hsame] at haddr
    exact ⟨⟨fun _ => hsame.symm, fun _ => haddr⟩, fun hnot => absurd haddr hnot⟩
  · rw [if_neg hsame] at haddr
    refine ⟨⟨fun haccepts => ?_, fun heq => absurd heq.symm hsame⟩, fun _ => haddr⟩
    exact absurd (haddr.symm.trans haccepts) (roots l).valid

/-! ## Two roots -/

/-- Two roots with addresses of their own. -/
def twoRoots : Bool → Root
  | true => ⟨"a", "10.0.0.1:8287", by decide⟩
  | false => ⟨"b", "10.0.0.2:8287", by decide⟩

/-- One root leads and the other one learns of it. -/
def firstElection : List (Action Bool) :=
  [.start true, .start false, .acquire true, .observe false, .callback true 0, .callback true 0,
    .callback false 0]

/-- The leader is gone, the other root takes the lock and runs its callbacks. -/
def takeover : List (Action Bool) := [.exit true, .acquire false, .callback false 0, .callback false 0]

/-- The follower of the first election knows its leader only. -/
theorem process_knows_one_leader_follower :
    ∃ s p, runSteps (step twoRoots) init firstElection = some s ∧ s.processes false = some p ∧
      p.callbacks = [] ∧ p.reports.length ≤ 1 ∧ p.started = p.reports.head? := by
  have hsome : ((runSteps (step twoRoots) init firstElection).bind fun s => s.processes false).isSome =
      true := by decide
  obtain ⟨p, hboth⟩ := Option.isSome_iff_exists.mp hsome
  obtain ⟨s, hrun, hp⟩ := Option.bind_eq_some_iff.mp hboth
  have hdone : ∀ q ∈ (runSteps (step twoRoots) init firstElection).bind fun s => s.processes false,
      q.callbacks = [] := by decide
  exact ⟨s, p, hrun, hp, hdone p hboth, process_knows_one_leader twoRoots hrun hp (hdone p hboth)⟩

-- The root that takes over ends with its second start, before it has served anybody.
example : (runSteps (step twoRoots) init (firstElection ++ takeover)).map
    (fun s => (s.processes true, s.processes false)) = some (none, none) := by decide

/-- After the first election the leader accepts, and the other root redirects to it. -/
theorem settled_roots_redirect_to_leader_two :
    ∃ s, runSteps (step twoRoots) init firstElection = some s ∧ Settled s ∧
      ∃ l, s.holder = (twoRoots l).identity ∧ ∀ r p, s.processes r = some p →
        p.reports = [s.holder] ∧
        (p.Accepts ↔ (twoRoots r).tunnelListenAddr = (twoRoots l).tunnelListenAddr) ∧
        (¬ p.Accepts → p.leaderListenAddr = (twoRoots l).tunnelListenAddr) := by
  have hsome : (runSteps (step twoRoots) init firstElection).isSome = true := by decide
  obtain ⟨s, hrun⟩ := Option.isSome_iff_exists.mp hsome
  have hsettled : ∀ t ∈ runSteps (step twoRoots) init firstElection,
      t.holder ≠ "" ∧ ∀ r, ∀ p ∈ t.processes r, p.callbacks = [] ∧ p.reportedLeader = t.holder := by decide
  have hset : Settled s := ⟨(hsettled s hrun).1, fun r p hp => (hsettled s hrun).2 r p hp⟩
  exact ⟨s, hrun, hset, settled_roots_redirect_to_leader twoRoots (by decide) hrun hset⟩

end OteStack.LeaderElection
