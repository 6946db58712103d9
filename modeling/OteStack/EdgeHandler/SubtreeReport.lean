/-
# OteStack.EdgeHandler.SubtreeReport — the goroutines that report the subtree to the parent.

`afterConnect`, `afterDisconnect` and `reportSubTreeTimer` of `pkg/edgehandler/edgehandler.go`, as the
hooks of the edge tunnel of `pkg/tunnel/edgetunnel.go`.  Each successful `connect` starts a goroutine that
runs the hook, which starts one that reports, once and then with every tick of its timer, until it receives
from `stopReportSubtree`.  When reading from the connection fails, the tunnel sends one token on that
channel, and it does not reconnect before the token is in the channel, which holds one.

A loop does not know for which connection it was started, so a token may stop a newer one than it was meant
for.  What counts is the balance (`one_reporter_per_connection`): a connect adds a loop, a disconnect adds a
token, and a loop that ends takes a token with it.
-/
import OteStack.Tunnel.ControllerTunnel

namespace OteStack

open OteStack.Lib (runSteps runSteps_invariant)

/-! ## The goroutines -/

/-- Where the goroutine of the tunnel is: in the `connect` of `Start`, given up, reading, in `afterDisconnect`
before the token is sent, after it, or in a `connect` of `reconnect`. -/
inductive TunnelPhase where
  | starting
  | stopped
  | reading
  | disconnecting
  | closing
  | dialing
  deriving DecidableEq, Repr

/-- The tunnel, the number of goroutines in each state, and the tokens in `stopReportSubtree`: those that
have to run the hook, those that have to start reporting, those that report, and those that wait for a tick
or a token. -/
structure ReportLoops where
  tunnel : TunnelPhase
  hooks : ℕ
  timers : ℕ
  reporting : ℕ
  selecting : ℕ
  stopReportSubtree : ℕ
  deriving DecidableEq, Repr

/-- The steps.  A dial that is answered with a redirect is followed by another one. -/
inductive ReportAction where
  | dial (result : DialResult)
  | receive
  | readError
  | sendStop
  | close
  | afterConnect
  | startTimer
  | reported
  | tick
  | stop
  deriving DecidableEq, Repr

namespace ReportLoops

/-- The capacity of `stopReportSubtree`. -/
def stopCapacity : ℕ := 1

/-- A new handler, with the call of `Start` that follows. -/
def new : ReportLoops := ⟨.starting, 0, 0, 0, 0, 0⟩

/-- A `connect` that succeeded starts the hook. -/
def connected (s : ReportLoops) : ReportLoops := { s with tunnel := .reading, hooks := s.hooks + 1 }

/-- The end of a dial: a failure ends `Start`, and is repeated by `reconnect`. -/
def dialStep (s : ReportLoops) (result : DialResult) : Option ReportLoops :=
  match s.tunnel, result with
  | .starting, .connected | .dialing, .connected => some s.connected
  | .starting, .failed => some { s with tunnel := .stopped }
  | .starting, .redirected _ | .dialing, .failed | .dialing, .redirected _ => some s
  | _, _ => none

/-- One step. -/
def step (s : ReportLoops) : ReportAction → Option ReportLoops
  | .dial result => s.dialStep result
  | .receive => if s.tunnel = .reading then some s else none
  | .readError => if s.tunnel = .reading then some { s with tunnel := .disconnecting } else none
  | .sendStop =>
      if s.tunnel = .disconnecting ∧ s.stopReportSubtree < stopCapacity then
        some { s with tunnel := .closing, stopReportSubtree := s.stopReportSubtree + 1 }
      else none
  | .close => if s.tunnel = .closing then some { s with tunnel := .dialing } else none
  | .afterConnect =>
      if 0 < s.hooks then some { s with hooks := s.hooks - 1, timers := s.timers + 1 } else none
  | .startTimer =>
      if 0 < s.timers then some { s with timers := s.timers - 1, reporting := s.reporting + 1 } else none
  | .reported =>
      if 0 < s.reporting then
        some { s with reporting := s.reporting - 1, selecting := s.selecting + 1 }
      else none
  | .tick =>
      if 0 < s.selecting then
        some { s with selecting := s.selecting - 1, reporting := s.reporting + 1 }
      else none
  | .stop =>
      if 0 < s.selecting ∧ 0 < s.stopReportSubtree then
        some { s with selecting := s.selecting - 1, stopReportSubtree := s.stopReportSubtree - 1 }
      else none

/-! ## The balance -/

/-- The report loops started or still to be started. -/
def loops (s : ReportLoops) : ℕ := s.hooks + s.timers + s.reporting + s.selecting

/-- The tokens in the channel and the one being sent. -/
def outstanding (s : ReportLoops) : ℕ := s.stopReportSubtree + if s.tunnel = .disconnecting then 1 else 0

/-- The tunnel is connected. -/
def connections (s : ReportLoops) : ℕ := if s.tunnel = .reading then 1 else 0

/-- What a step does to the three numbers: nothing, or a connect, a disconnect, or the end of a loop. -/
inductive Change (s s' : ReportLoops) : Prop where
  | same (hloops : s'.loops = s.loops) (houtstanding : s'.outstanding = s.outstanding)
      (hconnections : s'.connections = s.connections)
  | connect (hloops : s'.loops = s.loops + 1) (houtstanding : s'.outstanding = s.outstanding)
      (hconnections : s.connections = 0) (hconnections' : s'.connections = 1)
  | disconnect (hloops : s'.loops = s.loops) (houtstanding : s'.outstanding = s.outstanding + 1)
      (hconnections : s.connections = 1) (hconnections' : s'.connections = 0)
  | stop (hloops : s.loops = s'.loops + 1) (houtstanding : s.outstanding = s'.outstanding + 1)
      (hconnections : s'.connections = s.connections)

variable {s s' : ReportLoops} {a : ReportAction}

theorem change_of_dialStep {result : DialResult} (hstep : s.dialStep result = some s') : Change s s' := by
  -- a tunnel that dials is not connected and does not send a token
  have hconnect : s.tunnel = .starting ∨ s.tunnel = .dialing → Change s s.connected := by
    intro htunnel
    refine .connect ?_ ?_ ?_ rfl
    · simp only [loops, connected]
      omega
    · rcases htunnel with htunnel | htunnel <;> simp [outstanding, connected, htunnel]
    · rcases htunnel with htunnel | htunnel <;> simp [connections, htunnel]
  unfold dialStep at hstep
  split at hstep
  · cases hstep
    exact hconnect (Or.inl ‹_›)
  · cases hstep
    exact hconnect (Or.inr ‹_›)
  · rename_i htunnel
    cases hstep
    exact .same rfl (by simp [outstanding, htunnel]) (by simp [connections, htunnel])
  · cases hstep
    exact .same rfl rfl rfl
  · cases hstep
    exact .same rfl rfl rfl
  · cases hstep
    exact .same rfl rfl rfl
  · cases hstep

theorem change_of_step (hstep : s.step a = some s') : Change s s' := by
  cases a with
  | dial result => exact change_of_dialStep hstep
  | receive =>
      obtain ⟨-, hs'⟩ := Option.ite_none_right_eq_some.mp hstep
      cases hs'
      exact .same rfl rfl rfl
  | readError =>
      obtain ⟨htunnel, hs'⟩ := Option.ite_none_right_eq_some.mp hstep
      cases hs'
      exact .disconnect rfl (by simp [outstanding, htunnel]) (by simp [connections, htunnel]) rfl
  | sendStop =>
      -- the token goes from the sender into the channel
      obtain ⟨⟨htunnel, -⟩, hs'⟩ := Option.ite_none_right_eq_some.mp hstep
      cases hs'
      exact .same rfl (by simp [outstanding, htunnel]) (by simp [connections, htunnel])
  | close =>
      obtain ⟨htunnel, hs'⟩ := Option.ite_none_right_eq_some.mp hstep
      cases hs'
      exact .same rfl (by simp [outstanding, htunnel]) (by simp [connections, htunnel])
  | afterConnect | startTimer | reported | tick =>
      -- one goroutine goes on to another state
      obtain ⟨hpos, hs'⟩ := Option.ite_none_right_eq_some.mp hstep
      cases hs'
      refine .same ?_ rfl rfl
      simp only [loops]
      omega
  | stop =>
      obtain ⟨⟨hselecting, htoken⟩, hs'⟩ := Option.ite_none_right_eq_some.mp hstep
      cases hs'
      refine .stop ?_ ?_ rfl
      · simp only [loops]
        omega
      · simp only [outstanding]
        omega

/-! ## Every run -/

/-- There is a loop for the connection and one for every token. -/
def Balanced (s : ReportLoops) : Prop := s.loops = s.outstanding + s.connections

theorem Balanced.step (h : s.Balanced) (hstep : s.step a = some s') : s'.Balanced := by
  unfold Balanced at h ⊢
  cases change_of_step hstep with
  | same hloops houtstanding hconnections => omega
  | connect hloops houtstanding hconnections hconnections' => omega
  | disconnect hloops houtstanding hconnections hconnections' => omega
  | stop hloops houtstanding hconnections => omega

theorem balanced_of_run {as : List ReportAction} (hrun : runSteps ReportLoops.step new as = some s) :
    s.Balanced :=
  runSteps_invariant (I := Balanced) (fun h hstep => h.step hstep) (show new.Balanced from rfl) hrun

/-- In every run the number of report loops, started or still to be started, less the number of stop
tokens, in the channel or being sent, is one while the tunnel is connected and zero otherwise.  So without
tokens a connected tunnel has one report loop and one that is not connected has none. -/
theorem one_reporter_per_connection {as : List ReportAction} {s : ReportLoops}
    (hrun : runSteps ReportLoops.step new as = some s) :
    (s.loops : ℤ) - s.outstanding = (if s.tunnel = .reading then 1 else 0) ∧
      (s.outstanding = 0 → s.loops = if s.tunnel = .reading then 1 else 0) := by
  have h := balanced_of_run hrun
  unfold Balanced connections at h
  constructor
  · split at h
    · rename_i htunnel
      rw [if_pos htunnel]
      omega
    · rename_i htunnel
      rw [if_neg htunnel]
      omega
  · intro hnone
    rw [h, hnone, Nat.zero_add]

/-- A reconnect before the first loop has seen its token: there are two loops and a token, and the newer loop
takes it. -/
theorem one_reporter_after_reconnect :
    let as : List ReportAction := [.dial .connected, .afterConnect, .startTimer, .readError, .sendStop,
      .close, .dial .failed, .dial (.redirected "b"), .dial .connected, .afterConnect, .startTimer, .reported]
    (runSteps ReportLoops.step new as).map (fun s => (s.loops, s.outstanding)) = some (2, 1) ∧
      ∀ s, runSteps ReportLoops.step new (as ++ [.stop]) = some s → s.outstanding = 0 ∧ s.loops = 1 := by
  intro as
  refine ⟨by decide, fun s hs => ?_⟩
  have hstate : runSteps ReportLoops.step new (as ++ [.stop]) = some ⟨.reading, 0, 0, 1, 0, 0⟩ := by decide
  obtain rfl := Option.some.inj (hstate.symm.trans hs)
  exact ⟨by decide, (one_reporter_per_connection hs).2 (by decide)⟩

end ReportLoops

end OteStack
