/-
# OteStack.ClusterShim.ReporterLifecycle — the reporters of a shim run while a controller is connected.

`Run` in `cmd/k8s_cluster_shim/app/app.go` and the signals of `connected` in
`pkg/clustershim/shimserver.go`. The goroutine that serves a controller puts `true` on a channel of capacity
one before it reads and `false` before it cleans up; the loop of `Run` starts a new generation of reporters
for every `true`, with a stop channel of its own in place of the last one, and closes the stop channel for
every `false`.

The loop counts on the two signals taking turns.

* `reporters_left_running`: in every run there are as many generations running as there were `true` signals
  not directly followed by `false`.  A generation whose stop channel was replaced is never stopped.
* `reporters_follow_connection`: as long as no check of `do` is raced, the signals do take turns: at most one
  generation runs, and when the signals are through it runs exactly if there is a controller.
-/
import OteStack.ClusterShim.ShimConnections

namespace OteStack.ClusterShim

open OteStack.Lib (GoMap runSteps runSteps_invariant runSteps_invariant_of_meet StepsMeet)

/-! ## Reporters -/

/-- The reporter context: the generation whose stop channel it holds.  With it, the generations that run. -/
structure ReporterContext where
  stopChan : Option ℕ
  running : List ℕ
  next : ℕ
  deriving DecidableEq, Repr

namespace ReporterContext

/-- A new stop channel and Go's `startReporters`. -/
def startReporters (c : ReporterContext) : ReporterContext :=
  ⟨some c.next, c.next :: c.running, c.next + 1⟩

/-- Go's `stopReporters`: a stop channel that is closed already is left alone. -/
def stopReporters (c : ReporterContext) : ReporterContext :=
  match c.stopChan with
  | none => c
  | some g => { c with running := c.running.erase g }

/-- The loop of `Run` for one signal. -/
def handle (c : ReporterContext) (isConnected : Bool) : ReporterContext :=
  if isConnected then c.startReporters else c.stopReporters

end ReporterContext

/-! ## The process -/

/-- The capacity of the channel. -/
def signalBuffer : ℕ := 1

/-- A shim process: its connections, the goroutines that have signalled their end and are about to clean up,
the channel, the reporters, and the signals received. -/
structure ShimProcess where
  conns : ShimConnections
  signalled : Finset ℕ
  isConnected : List Bool
  reporters : ReporterContext
  received : List Bool
  deriving DecidableEq

/-- The steps of the connections, with the two signals at their places in `connected`, and the loop of
`Run`. -/
inductive ShimProcessAction where
  | connection (a : ShimAction)
  | signal (g : ℕ)
  | receive
  deriving DecidableEq, Repr

namespace ShimProcess

/-- Before the first request. -/
def init : ShimProcess := ⟨.init, ∅, [], ⟨none, [], 0⟩, []⟩

/-- One step.  A goroutine announces its controller when there is room in the channel, and cleans up after
it has signalled the end. -/
def step (s : ShimProcess) : ShimProcessAction → Option ShimProcess
  | .connection (.announce g) =>
      if s.isConnected.length < signalBuffer then
        (s.conns.step (.announce g)).map fun conns =>
          { s with conns := conns, isConnected := s.isConnected ++ [true] }
      else none
  | .connection (.cleanUp g) =>
      if g ∈ s.signalled then
        (s.conns.step (.cleanUp g)).map fun conns =>
          { s with conns := conns, signalled := s.signalled.erase g }
      else none
  | .connection a => (s.conns.step a).map fun conns => { s with conns := conns }
  | .signal g =>
      if s.conns.servings.get g = some .leaving ∧ g ∉ s.signalled ∧ s.isConnected.length < signalBuffer then
        some { s with signalled := insert g s.signalled, isConnected := s.isConnected ++ [false] }
      else none
  | .receive => match s.isConnected with
      | [] => none
      | b :: rest => some { s with
          isConnected := rest
          reporters := s.reporters.handle b
          received := s.received ++ [b] }

variable {s s' : ShimProcess} {a : ShimProcessAction}

/-- What a step does to the channel and the reporters. -/
inductive Transition (s : ShimProcess) : ShimProcessAction → ShimProcess → Prop
  | announced {g : ℕ} {conns : ShimConnections} (hroom : s.isConnected = [])
      (h : s.conns.step (.announce g) = some conns) :
      Transition s (.connection (.announce g)) { s with conns := conns, isConnected := [true] }
  | cleanedUp {g : ℕ} {conns : ShimConnections} (hg : g ∈ s.signalled)
      (h : s.conns.step (.cleanUp g) = some conns) :
      Transition s (.connection (.cleanUp g)) { s with conns := conns, signalled := s.signalled.erase g }
  | connection {a : ShimAction} {conns : ShimConnections} (hannounce : ∀ g, a ≠ .announce g)
      (hclean : ∀ g, a ≠ .cleanUp g) (h : s.conns.step a = some conns) :
      Transition s (.connection a) { s with conns := conns }
  | signalled {g : ℕ} (hg : s.conns.servings.get g = some .leaving) (hnew : g ∉ s.signalled)
      (hroom : s.isConnected = []) :
      Transition s (.signal g) { s with signalled := insert g s.signalled, isConnected := [false] }
  | received {b : Bool} {rest : List Bool} (h : s.isConnected = b :: rest) :
      Transition s .receive { s with
        isConnected := rest
        reporters := s.reporters.handle b
        received := s.received ++ [b] }

theorem eq_nil_of_room {l : List Bool} (h : l.length < signalBuffer) : l = [] :=
  List.length_eq_zero_iff.mp (Nat.lt_one_iff.mp h)

theorem transition_of_connection {a : ShimAction} (h : s.step (.connection a) = some s') :
    Transition s (.connection a) s' := by
  cases a with
  | announce g =>
      simp only [step, Option.ite_none_right_eq_some, Option.map_eq_some_iff] at h
      obtain ⟨hroom, conns, hconns, rfl⟩ := h
      have hnil := eq_nil_of_room hroom
      rw [hnil]
      exact .announced hnil hconns
  | cleanUp g =>
      simp only [step, Option.ite_none_right_eq_some, Option.map_eq_some_iff] at h
      obtain ⟨hg, conns, hconns, rfl⟩ := h
      exact .cleanedUp hg hconns
  | _ =>
      obtain ⟨conns, hconns, rfl⟩ := Option.map_eq_some_iff.mp h
      exact .connection (by simp) (by simp) hconns

theorem transition_of_step (h : s.step a = some s') : Transition s a s' := by
  cases a with
  | connection a => exact transition_of_connection h
  | signal g =>
      simp only [step, Option.ite_none_right_eq_some, Option.some.injEq] at h
      obtain ⟨⟨hg, hnew, hroom⟩, rfl⟩ := h
      have hnil := eq_nil_of_room hroom
      rw [hnil]
      exact .signalled hg hnew hnil
  | receive =>
      cases hchan : s.isConnected with
      | nil => simp [step, hchan] at h
      | cons b rest =>
          simp only [step, hchan, Option.some.injEq] at h
          subst h
          exact .received hchan

/-! ## How many generations run -/

/-- The `true` signals that are not directly followed by `false`. -/
def leftRunning : List Bool → ℕ
  | [] => 0
  | false :: l => leftRunning l
  | [true] => 1
  | true :: false :: l => leftRunning l
  | true :: true :: l => leftRunning (true :: l) + 1

theorem leftRunning_concat_true (l : List Bool) : leftRunning (l ++ [true]) = leftRunning l + 1 := by
  induction l using leftRunning.induct with
  | case1 => rfl
  | case2 l ih => exact ih
  | case3 => rfl
  | case4 l ih => exact ih
  | case5 l ih => exact congrArg (· + 1) ih

theorem leftRunning_concat_false (l : List Bool) :
    leftRunning (l ++ [false]) + (if l.getLast? = some true then 1 else 0) = leftRunning l := by
  induction l using leftRunning.induct with
  | case1 => rfl
  | case2 l ih =>
      cases l with
      | nil => rfl
      | cons c l =>
          rw [List.getLast?_cons_cons]
          exact ih
  | case3 => rfl
  | case4 l ih =>
      cases l with
      | nil => rfl
      | cons c l =>
          rw [List.getLast?_cons_cons, List.getLast?_cons_cons]
          exact ih
  | case5 l ih =>
      rw [List.getLast?_cons_cons]
      have hstep : leftRunning (true :: true :: l ++ [false]) = leftRunning (true :: l ++ [false]) + 1 := rfl
      rw [hstep, leftRunning]
      omega

/-- The generations that run are as many as the signals left them, and the one whose stop channel the context
holds is among them exactly after a `true`. -/
structure Counted (s : ShimProcess) : Prop where
  count : s.reporters.running.length = leftRunning s.received
  nodup : s.reporters.running.Nodup
  fresh : ∀ g ∈ s.reporters.running, g < s.reporters.next
  none : s.reporters.stopChan = none → s.received.getLast? ≠ some true
  current : ∀ g, s.reporters.stopChan = some g →
    (g ∈ s.reporters.running ↔ s.received.getLast? = some true)

theorem counted_init : Counted init where
  count := rfl
  nodup := List.nodup_nil
  fresh := by simp [init]
  none := by simp [init]
  current := by simp [init]

theorem Counted.start (h : Counted s) {rest : List Bool} : Counted { s with
    isConnected := rest
    reporters := s.reporters.startReporters
    received := s.received ++ [true] } where
  count := by
    rw [leftRunning_concat_true, ← h.count]
    rfl
  nodup := List.nodup_cons.mpr ⟨fun hmem => Nat.lt_irrefl _ (h.fresh _ hmem), h.nodup⟩
  fresh := by
    intro g hg
    rcases List.mem_cons.mp hg with rfl | hg
    · exact Nat.lt_succ_self _
    · exact Nat.lt_succ_of_lt (h.fresh g hg)
  none := by simp [ReporterContext.startReporters]
  current := by
    intro g hg
    obtain rfl := Option.some.inj hg
    simp [ReporterContext.startReporters]

theorem Counted.stop (h : Counted s) {rest : List Bool} : Counted { s with
    isConnected := rest
    reporters := s.reporters.stopReporters
    received := s.received ++ [false] } := by
  have hcount := leftRunning_concat_false s.received
  cases hstop : s.reporters.stopChan with
  | none =>
      rw [if_neg (h.none hstop), Nat.add_zero] at hcount
      simp only [ReporterContext.stopReporters, hstop]
      refine ⟨h.count.trans hcount.symm, h.nodup, h.fresh, ?_, ?_⟩
      · simp
      · simp [hstop]
  | some g =>
      simp only [ReporterContext.stopReporters, hstop]
      refine ⟨?_, h.nodup.erase g, fun g' hg' => h.fresh g' (List.mem_of_mem_erase hg'), ?_, ?_⟩
      · by_cases hg : g ∈ s.reporters.running
        · rw [if_pos ((h.current g hstop).mp hg)] at hcount
          have hlen := List.length_erase_add_one hg
          rw [h.count, ← hcount] at hlen
          exact Nat.add_right_cancel hlen
        · rw [if_neg (fun hlast => hg ((h.current g hstop).mpr hlast)), Nat.add_zero] at hcount
          rw [List.erase_of_not_mem hg, hcount]
          exact h.count
      · simp
      · intro g' hg'
        obtain rfl := Option.some.inj hg'
        simp [h.nodup.not_mem_erase]

theorem Counted.step (h : Counted s) (hstep : s.step a = some s') : Counted s' := by
  cases transition_of_step hstep with
  | announced _ _ => exact ⟨h.count, h.nodup, h.fresh, h.none, h.current⟩
  | cleanedUp _ _ => exact ⟨h.count, h.nodup, h.fresh, h.none, h.current⟩
  | connection _ _ _ => exact ⟨h.count, h.nodup, h.fresh, h.none, h.current⟩
  | signalled _ _ _ => exact ⟨h.count, h.nodup, h.fresh, h.none, h.current⟩
  | @received b rest _ =>
      cases b with
      | true => exact h.start
      | false => exact h.stop

/-- In every run, raced or not, there are as many generations of reporters running as `true` signals were
received that were not directly followed by `false`. -/
theorem reporters_left_running {as : List ShimProcessAction} (hrun : runSteps step init as = some s) :
    s.reporters.running.length = leftRunning s.received :=
  (runSteps_invariant (fun h hstep => Counted.step h hstep) counted_init hrun).count

/-- Two controllers pass the check, and the connection of the second one ends. -/
def secondLeaves : List ShimProcessAction :=
  [.connection .check, .connection .check, .connection (.upgrade 0 true), .connection (.upgrade 1 true),
    .connection (.install 0), .connection (.announce 0), .receive,
    .connection (.install 1), .connection (.announce 1), .receive,
    .connection (.read 1), .connection (.readError 1), .connection (.report 1), .signal 1, .receive,
    .connection (.cleanUp 1)]

/-- No client is left, and the generation started for the first controller runs on. -/
theorem reporters_left_running_second : ∃ s, runSteps step init secondLeaves = some s ∧
    s.conns.ccclient = none ∧ s.isConnected = [] ∧ s.reporters.running = [0] ∧
    s.reporters.running.length = leftRunning s.received := by
  have hsome : (runSteps step init secondLeaves).isSome = true := by decide
  obtain ⟨s, hrun⟩ := Option.isSome_iff_exists.mp hsome
  have hend : ∀ s ∈ runSteps step init secondLeaves,
      s.conns.ccclient = none ∧ s.isConnected = [] ∧ s.reporters.running = [0] := by decide
  obtain ⟨hclient, hchan, hrunning⟩ := hend s hrun
  exact ⟨s, hrun, hclient, hchan, hrunning, reporters_left_running hrun⟩

/-! ## Connections one after the other -/

section Serial

open ShimConnections (Serial only only_set only_delete only_ne_empty get_only eq_of_get_only serial_step)

/-- The controller is announced, and its end is not signalled yet. -/
def announced (s : ShimProcess) : Bool :=
  match s.conns.ccclient with
  | none => false
  | some g => match s.conns.servings.get g with
    | none => false
    | some .announcing => false
    | some .leaving => decide (g ∉ s.signalled)
    | some _ => true

/-- One generation runs, with the stop channel in the context, or none does. -/
def Runs (c : ReporterContext) : Bool → Prop
  | true => ∃ g, c.stopChan = some g ∧ c.running = [g]
  | false => c.running = []

/-- The reporters are as the controller is, or the signal that says so is in the channel. -/
def Follows (isConnected : List Bool) (c : ReporterContext) (announced : Bool) : Prop :=
  isConnected = [] ∧ Runs c announced ∨ isConnected = [announced] ∧ Runs c (!announced)

/-- What holds as long as no check is raced. -/
structure Following (s : ShimProcess) : Prop where
  serial : Serial s.conns
  leaving : ∀ g ∈ s.signalled, s.conns.servings.get g = some .leaving
  follows : Follows s.isConnected s.reporters s.announced

/-- No check is raced. -/
def Unraced (s : ShimProcess) : ShimProcessAction → Prop
  | .connection a => s.conns.Unraced a
  | _ => True

instance (s : ShimProcess) : ∀ a, Decidable (s.Unraced a)
  | .connection a => inferInstanceAs (Decidable (s.conns.Unraced a))
  | .signal _ => .isTrue trivial
  | .receive => .isTrue trivial

variable {c c' : ShimConnections} {b : ShimAction}

/-- A server without a client has no goroutine, and installs one that has not announced anything. -/
theorem step_of_no_client (h : Serial c) (hc : c.ccclient = none) (hstep : c.step b = some c') :
    c.servings = ∅ ∧ (c'.ccclient = none ∧ c'.servings = ∅ ∨
      ∃ r, c'.ccclient = some r ∧ c'.servings = only r .announcing) := by
  cases h with
  | idle n =>
      cases b with
      | check =>
          cases hstep
          exact ⟨rfl, Or.inl ⟨rfl, rfl⟩⟩
      | _ => simp [ShimConnections.step] at hstep
  | checked hr =>
      cases b with
      | check =>
          cases hstep
          exact ⟨rfl, Or.inl ⟨rfl, rfl⟩⟩
      | upgrade r success =>
          simp only [ShimConnections.step] at hstep
          split at hstep
          · cases success with
            | true =>
                cases hstep
                exact ⟨rfl, Or.inl ⟨rfl, rfl⟩⟩
            | false =>
                cases hstep
                exact ⟨rfl, Or.inl ⟨rfl, rfl⟩⟩
          · cases hstep
      | install r =>
          simp only [ShimConnections.step] at hstep
          split at hstep
          · exact absurd (eq_of_get_only ‹_›).2 (by simp)
          · cases hstep
      | _ => simp [ShimConnections.step] at hstep
  | upgraded hr ho =>
      cases b with
      | check =>
          cases hstep
          exact ⟨rfl, Or.inl ⟨rfl, rfl⟩⟩
      | upgrade r success =>
          simp only [ShimConnections.step] at hstep
          split at hstep
          · exact absurd (eq_of_get_only ‹_›).2 (by simp)
          · cases hstep
      | install r =>
          simp only [ShimConnections.step] at hstep
          split at hstep
          · cases hstep
            exact ⟨rfl, Or.inr ⟨r, rfl, rfl⟩⟩
          · cases hstep
      | drop conn =>
          obtain ⟨-, hs'⟩ := Option.ite_none_right_eq_some.mp hstep
          cases hs'
          exact ⟨rfl, Or.inl ⟨rfl, rfl⟩⟩
      | _ => simp [ShimConnections.step] at hstep
  | serving ho => cases hc

/-- A goroutine that serves moves on without an announcement, and leaves only by cleaning up. -/
theorem step_of_serving {g n : ℕ} {phase : ServingPhase} {opened : Finset ℕ}
    (hstep : ShimConnections.step ⟨some g, ∅, only g phase, opened, n⟩ b = some c')
    (hannounce : ∀ g, b ≠ .announce g) (hclean : ∀ g, b ≠ .cleanUp g) :
    c'.ccclient = some g ∧ ∃ phase', c'.servings = only g phase' ∧
      (phase' = phase ∨ phase ≠ .announcing ∧ phase ≠ .leaving ∧ phase' ≠ .announcing) := by
  have hmoves : ∀ {g' : ℕ} {old new : ServingPhase}, (only g phase).get g' = some old →
      old ≠ .announcing → old ≠ .leaving → new ≠ .announcing →
      ∃ phase', (only g phase).set g' new = only g phase' ∧
        (phase' = phase ∨ phase ≠ .announcing ∧ phase ≠ .leaving ∧ phase' ≠ .announcing) := by
    intro g' old new hget hold hold' hnew
    obtain ⟨rfl, rfl⟩ := eq_of_get_only hget
    exact ⟨new, only_set, Or.inr ⟨hold, hold', hnew⟩⟩
  cases b with
  | check =>
      cases hstep
      exact ⟨rfl, phase, rfl, Or.inl rfl⟩
  | upgrade r success => simp [ShimConnections.step] at hstep
  | install r => simp [ShimConnections.step] at hstep
  | announce g' => exact absurd rfl (hannounce g')
  | cleanUp g' => exact absurd rfl (hclean g')
  | readError g' | report g' =>
      simp only [ShimConnections.step] at hstep
      split at hstep
      · cases hstep
        exact ⟨rfl, hmoves ‹_› (by simp) (by simp) (by simp)⟩
      · cases hstep
  | read g' =>
      simp only [ShimConnections.step] at hstep
      split at hstep
      · cases hstep
        exact ⟨rfl, hmoves ‹_› (by simp) (by simp) (by simp)⟩
      · cases hstep
  | message g' =>
      simp only [ShimConnections.step] at hstep
      split at hstep
      · obtain ⟨-, hs'⟩ := Option.ite_none_right_eq_some.mp hstep
        cases hs'
        exact ⟨rfl, hmoves ‹_› (by simp) (by simp) (by simp)⟩
      · cases hstep
  | drop conn =>
      obtain ⟨-, hs'⟩ := Option.ite_none_right_eq_some.mp hstep
      cases hs'
      exact ⟨rfl, phase, rfl, Or.inl rfl⟩

/-- A server with a client has the client's goroutine and no other. -/
theorem serving_of_client {g : ℕ} (h : Serial c) (hc : c.ccclient = some g) :
    ∃ phase opened n, c = ⟨some g, ∅, only g phase, opened, n⟩ := by
  cases h with
  | idle n => cases hc
  | checked hr => cases hc
  | upgraded hr ho => cases hc
  | serving ho =>
      obtain rfl := Option.some.inj hc
      exact ⟨_, _, _, rfl⟩

/-- A goroutine that serves is the client's. -/
theorem serving_of_get {g : ℕ} {phase : ServingPhase} (h : Serial c) (hg : c.servings.get g = some phase) :
    ∃ opened n, c = ⟨some g, ∅, only g phase, opened, n⟩ := by
  cases h with
  | idle n => simp at hg
  | checked hr => simp at hg
  | upgraded hr ho => simp at hg
  | serving ho =>
      obtain ⟨rfl, rfl⟩ := eq_of_get_only hg
      exact ⟨_, _, rfl⟩

theorem announced_of_no_client (hc : s.conns.ccclient = none) : s.announced = false := by
  simp [announced, hc]

theorem announced_of_announcing {g : ℕ} (hc : s.conns.ccclient = some g)
    (hs : s.conns.servings = only g .announcing) : s.announced = false := by
  simp [announced, hc, hs, get_only]

theorem announced_of_leaving {g : ℕ} (hc : s.conns.ccclient = some g)
    (hs : s.conns.servings = only g .leaving) : s.announced = decide (g ∉ s.signalled) := by
  simp [announced, hc, hs, get_only]

theorem announced_of_serving {g : ℕ} {phase : ServingPhase} (hc : s.conns.ccclient = some g)
    (hs : s.conns.servings = only g phase) (hphase : phase ≠ .announcing) (hg : g ∉ s.signalled) :
    s.announced = true := by
  cases phase with
  | announcing => exact absurd rfl hphase
  | _ => simp [announced, hc, hs, get_only, hg]

/-- A step between the announcement and the end changes nothing that the reporters depend on. -/
theorem Following.connection (h : Following s) (hok : s.conns.Unraced b) (hstep : s.conns.step b = some c')
    (hannounce : ∀ g, b ≠ .announce g) (hclean : ∀ g, b ≠ .cleanUp g) :
    Following { s with conns := c' } := by
  have hserial : Serial c' := serial_step h.serial hok hstep
  cases hc : s.conns.ccclient with
  | none =>
      obtain ⟨hempty, hnext⟩ := step_of_no_client h.serial hc hstep
      have hsignalled : ∀ g, g ∉ s.signalled := by
        intro g hg
        have hget := h.leaving g hg
        simp [hempty] at hget
      have hfollows := h.follows
      rw [announced_of_no_client hc] at hfollows
      refine ⟨hserial, fun g hg => absurd hg (hsignalled g), ?_⟩
      rcases hnext with ⟨hc', -⟩ | ⟨r, hc', hs'⟩
      · rw [announced_of_no_client hc']
        exact hfollows
      · rw [announced_of_announcing hc' hs']
        exact hfollows
  | some g =>
      obtain ⟨phase, opened, n, hconns⟩ := serving_of_client h.serial hc
      have hs : s.conns.servings = only g phase := by rw [hconns]
      rw [hconns] at hstep
      obtain ⟨hc', phase', hs', hphase⟩ := step_of_serving hstep hannounce hclean
      have hleaving : ∀ g' ∈ s.signalled, g' = g ∧ phase = .leaving := by
        intro g' hg'
        have hget := h.leaving g' hg'
        rw [hs] at hget
        exact eq_of_get_only hget
      rcases hphase with rfl | ⟨hannouncing, hleft, hphase'⟩
      · have hsame : announced { s with conns := c' } = s.announced := by
          simp only [announced, hc, hc', hs, hs']
        refine ⟨hserial, ?_, hsame ▸ h.follows⟩
        intro g' hg'
        have hget := h.leaving g' hg'
        rw [hs] at hget
        exact hs' ▸ hget
      · have hnone : ∀ g', g' ∉ s.signalled := fun g' hg' => hleft (hleaving g' hg').2
        have hfollows := h.follows
        rw [announced_of_serving hc hs hannouncing (hnone g)] at hfollows
        have hstill : announced { s with conns := c' } = true :=
          announced_of_serving hc' hs' hphase' (hnone g)
        exact ⟨hserial, fun g' hg' => absurd hg' (hnone g'), hstill ▸ hfollows⟩

theorem Following.announce (h : Following s) {g : ℕ} (hroom : s.isConnected = [])
    (hstep : s.conns.step (.announce g) = some c') :
    Following { s with conns := c', isConnected := [true] } := by
  have hok : s.conns.Unraced (.announce g) := trivial
  have hserial : Serial c' := serial_step h.serial hok hstep
  simp only [ShimConnections.step] at hstep
  split at hstep
  case h_1 hg =>
    cases hstep
    obtain ⟨opened, n, hconns⟩ := serving_of_get h.serial hg
    have hnone : ∀ g', g' ∉ s.signalled := by
      intro g' hg'
      have hget := h.leaving g' hg'
      rw [hconns] at hget
      cases (eq_of_get_only hget).2
    have hrun : Runs s.reporters false := by
      have hfollows := h.follows
      rw [announced_of_announcing (g := g) (by rw [hconns]) (by rw [hconns]), hroom] at hfollows
      exact hfollows.elim (·.2) fun h => absurd h.1 (by simp)
    have hnow : announced { s with
        conns := { s.conns with servings := s.conns.servings.set g .looping }
        isConnected := [true] } = true := by
      refine @announced_of_serving _ g .looping ?_ ?_ (by simp) (hnone g)
      · rw [hconns]
      · rw [hconns, only_set]
    refine ⟨hserial, fun g' hg' => absurd hg' (hnone g'), Or.inr ?_⟩
    rw [hnow]
    exact ⟨rfl, hrun⟩
  case h_2 => cases hstep

theorem Following.signal (h : Following s) {g : ℕ} (hg : s.conns.servings.get g = some .leaving)
    (hnew : g ∉ s.signalled) (hroom : s.isConnected = []) :
    Following { s with signalled := insert g s.signalled, isConnected := [false] } := by
  obtain ⟨opened, n, hconns⟩ := serving_of_get h.serial hg
  have hrun : Runs s.reporters true := by
    have hfollows := h.follows
    have hbefore : s.announced = true :=
      @announced_of_serving s g .leaving (by rw [hconns]) (by rw [hconns]) (by simp) hnew
    rw [hbefore, hroom] at hfollows
    exact hfollows.elim (·.2) fun h => absurd h.1 (by simp)
  refine ⟨h.serial, ?_, Or.inr ?_⟩
  · intro g' hg'
    rcases Finset.mem_insert.mp hg' with rfl | hg'
    · exact hg
    · exact h.leaving g' hg'
  · have hnow : announced { s with signalled := insert g s.signalled, isConnected := [false] } =
        decide (g ∉ insert g s.signalled) := announced_of_leaving (by rw [hconns]) (by rw [hconns])
    rw [hnow]
    simpa using hrun

theorem Following.cleanUp (h : Following s) {g : ℕ} (hg : g ∈ s.signalled)
    (hstep : s.conns.step (.cleanUp g) = some c') :
    Following { s with conns := c', signalled := s.signalled.erase g } := by
  have hok : s.conns.Unraced (.cleanUp g) := trivial
  have hserial : Serial c' := serial_step h.serial hok hstep
  obtain ⟨opened, n, hconns⟩ := serving_of_get h.serial (h.leaving g hg)
  have honly : ∀ g' ∈ s.signalled, g' = g := by
    intro g' hg'
    have hget := h.leaving g' hg'
    rw [hconns] at hget
    exact (eq_of_get_only hget).1
  have hc' : c'.ccclient = none := by
    rw [hconns] at hstep
    simp only [ShimConnections.step, get_only, if_pos, Option.some.injEq] at hstep
    rw [← hstep]
  have hfollows := h.follows
  rw [announced_of_leaving (g := g) (by rw [hconns]) (by rw [hconns]), decide_eq_false (not_not_intro hg)]
    at hfollows
  refine ⟨hserial, ?_, ?_⟩
  · intro g' hg'
    exact absurd (honly g' (Finset.mem_of_mem_erase hg')) (Finset.ne_of_mem_erase hg')
  · rw [announced_of_no_client hc']
    exact hfollows

/-- A signal that says how the controller is makes the reporters so. -/
theorem runs_handle {r : ReporterContext} {isConnected : Bool} (h : Runs r (!isConnected)) :
    Runs (r.handle isConnected) isConnected := by
  cases isConnected with
  | true =>
      have hrunning : r.running = [] := h
      exact ⟨r.next, rfl, by simp [ReporterContext.handle, ReporterContext.startReporters, hrunning]⟩
  | false =>
      obtain ⟨g, hstop, hrunning⟩ := h
      simp [Runs, ReporterContext.handle, ReporterContext.stopReporters, hstop, hrunning]

theorem Following.receive (h : Following s) {isConnected : Bool} {rest received : List Bool}
    (hchan : s.isConnected = isConnected :: rest) : Following { s with
      isConnected := rest
      reporters := s.reporters.handle isConnected
      received := received } := by
  refine ⟨h.serial, h.leaving, Or.inl ?_⟩
  rcases h.follows with ⟨hnil, -⟩ | ⟨hone, hruns⟩
  · rw [hnil] at hchan
    cases hchan
  · rw [hone] at hchan
    obtain ⟨heq, rfl⟩ := List.cons.inj hchan
    refine ⟨rfl, ?_⟩
    rw [heq] at hruns
    have hafter := runs_handle hruns
    rw [← heq] at hafter
    exact heq ▸ hafter

theorem Following.step (h : Following s) (hok : s.Unraced a) (hstep : s.step a = some s') : Following s' := by
  cases transition_of_step hstep with
  | announced hroom hconns => exact h.announce hroom hconns
  | cleanedUp hg hconns => exact h.cleanUp hg hconns
  | connection hannounce hclean hconns => exact h.connection hok hconns hannounce hclean
  | signalled hg hnew hroom => exact h.signal hg hnew hroom
  | received hchan => exact h.receive hchan

theorem following_init : Following init :=
  ⟨.idle 0, by simp [init], Or.inl ⟨rfl, rfl⟩⟩

theorem Following.length_le (h : Following s) : s.reporters.running.length ≤ 1 := by
  have hruns : ∀ {b : Bool}, Runs s.reporters b → s.reporters.running.length ≤ 1 := by
    intro b hb
    cases b with
    | true =>
        obtain ⟨g, -, hg⟩ := hb
        simp [hg]
    | false =>
        have hnil : s.reporters.running = [] := hb
        simp [hnil]
  exact h.follows.elim (fun h => hruns h.2) fun h => hruns h.2

/-- The channel is empty, and no goroutine is about to announce its controller or to clean up after it. -/
def Through (s : ShimProcess) : Prop :=
  s.isConnected = [] ∧ ∀ g ∈ s.conns.servings.keys,
    s.conns.servings.get g ≠ some .announcing ∧ s.conns.servings.get g ≠ some .leaving

instance (s : ShimProcess) : Decidable s.Through := inferInstanceAs (Decidable (_ ∧ _))

theorem Following.running_iff (h : Following s) (hthrough : s.Through) :
    s.reporters.running ≠ [] ↔ s.conns.ccclient ≠ none := by
  have hruns : Runs s.reporters s.announced := by
    rcases h.follows with ⟨-, hruns⟩ | ⟨hone, -⟩
    · exact hruns
    · rw [hthrough.1] at hone
      cases hone
  cases hc : s.conns.ccclient with
  | none =>
      rw [announced_of_no_client hc] at hruns
      have hnil : s.reporters.running = [] := hruns
      simp [hnil]
  | some g =>
      obtain ⟨phase, opened, n, hconns⟩ := serving_of_client h.serial hc
      have hget : s.conns.servings.get g = some phase := by rw [hconns, get_only, if_pos rfl]
      have hphase := hthrough.2 g (GoMap.mem_keys_of_get hget)
      rw [hget] at hphase
      have hg : g ∉ s.signalled := fun hg => hphase.2 (hget.symm.trans (h.leaving g hg))
      rw [announced_of_serving hc (by rw [hconns]) (fun hp => hphase.1 (congrArg some hp)) hg] at hruns
      obtain ⟨r, -, hrunning⟩ := hruns
      simp [hrunning]

/-- As long as no check of `do` is raced, at most one generation of reporters runs, and once the signals are
through it runs exactly if a controller is connected. -/
theorem reporters_follow_connection {as : List ShimProcessAction} (hmeet : StepsMeet step Unraced init as)
    (hrun : runSteps step init as = some s) :
    s.reporters.running.length ≤ 1 ∧
      (s.Through → (s.reporters.running ≠ [] ↔ s.conns.ccclient ≠ none)) := by
  have hfollowing : Following s :=
    runSteps_invariant_of_meet (fun h hok hstep => Following.step h hok hstep) following_init hmeet hrun
  exact ⟨hfollowing.length_le, hfollowing.running_iff⟩

/-- A controller that comes, leaves, and comes again. -/
def comesAgain : List ShimProcessAction :=
  [.connection .check, .connection (.upgrade 0 true), .connection (.install 0),
    .connection (.announce 0), .receive,
    .connection (.read 0), .connection (.readError 0), .connection (.report 0), .signal 0,
    .connection (.cleanUp 0),
    .connection .check, .connection (.upgrade 1 true), .connection (.install 1), .receive,
    .connection (.announce 1), .receive, .connection (.read 1)]

theorem reporters_follow_connection_again : ∃ s, runSteps step init comesAgain = some s ∧ s.Through ∧
    s.conns.ccclient = some 1 ∧ s.reporters.running.length ≤ 1 ∧ s.reporters.running ≠ [] := by
  have hsome : (runSteps step init comesAgain).isSome = true := by decide
  obtain ⟨s, hrun⟩ := Option.isSome_iff_exists.mp hsome
  have hend : ∀ s ∈ runSteps step init comesAgain, s.Through ∧ s.conns.ccclient = some 1 := by decide
  obtain ⟨hthrough, hclient⟩ := hend s hrun
  obtain ⟨hone, hiff⟩ := reporters_follow_connection (by decide) hrun
  exact ⟨s, hrun, hthrough, hclient, hone, (hiff hthrough).mpr (by simp [hclient])⟩

end Serial

end ShimProcess

end OteStack.ClusterShim
