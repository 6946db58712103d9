/-
# OteStack.EdgeHub.Hub — the load balancer, the health signal and the syncers.

`cmd/edgehub/app` (the goroutine of `initEdgehub`), `pkg/loadbalancer` (`healthCheck`,
`sendSignalToSyncer`), `pkg/syncer` (`StartSyncer`, `StopSyncer`, `RefreshStorage`) and the k3s handlers
of `pkg/server/certificate`.  Two goroutines share an unbuffered channel: the load balancer sends a signal
when the master becomes reachable or unreachable, and the hub's loop starts or stops the syncers.  Each
keeps a flag of its own: the load balancer `remoteEnable`, the store `RemoteEnable`.

An action is one move of one party, or the hand-over of a signal to both.  A health check carries the
results of its dials; the start of the syncers carries what the informers hold, or that it failed; a
request carries what the master answers; `mirror` is a write of an object by a syncer or by a handler.

The two flags agree once the signals are consumed, unless the last start of the syncers failed
(`remoteEnable_agree_iff`): the failed start is stopped at once, so the next "not ready" finds nothing to
stop and leaves the loop before the flag of the store is cleared.
-/
import OteStack.Lib.StepSystem
import OteStack.EdgeHub.Storage

namespace OteStack.EdgeHub

open OteStack.Lib (GoMap MapOrder runSteps runSteps_history)

variable {O B : Type}

/-! ## The parties -/

/-- The signals of `sendSignalToSyncer`. -/
inductive Signal where
  | remoteReady
  | remoteNotReady
  deriving DecidableEq, Repr

/-- Where the goroutine of `healthCheck` is: between two checks, blocked on `HealthChan`, or after a
hand-over of `true` and before it sets its flag. -/
inductive SendPhase where
  | idle
  | sending (signal : Bool)
  | sent
  deriving DecidableEq, Repr

/-- The load balancer, as far as the signals depend on it. -/
structure LoadBalancer where
  remoteEnable : Bool
  phase : SendPhase
  deriving DecidableEq, Repr

/-- Where the loop of `initEdgehub` is. -/
inductive LoopPhase where
  | waiting
  | received (isRemoteEnable : Bool)
  | starting
  deriving DecidableEq, Repr

/-- `SyncContext.StopChan`. -/
inductive StopChan where
  | nil
  | opened
  | closed
  deriving DecidableEq, Repr

/-- Go's `sendSignalToSyncer`, up to the point where it blocks on the channel or returns. -/
def LoadBalancer.sendSignalToSyncer (lb : LoadBalancer) : Signal → LoadBalancer
  | .remoteReady => if lb.remoteEnable then lb else { lb with phase := .sending true }
  | .remoteNotReady => if lb.remoteEnable then ⟨false, .sending false⟩ else lb

/-- Go's `healthCheck`; the dials are those of the current servers. -/
def LoadBalancer.healthCheck (lb : LoadBalancer) (dials : List Bool) : LoadBalancer :=
  let isRemoteHealth := dials.any id
  if !isRemoteHealth then lb.sendSignalToSyncer .remoteNotReady else lb.sendSignalToSyncer .remoteReady

/-- Go's `StopSyncer`: only an open channel can be closed. -/
def stopSyncer : StopChan → Except String StopChan
  | .opened => .ok .closed
  | _ => .error "stop syncer failed: StopChan is invalid"

/-- The syncers `registerSyncer` sets up: eight always, the others if the master knows the type. -/
def registerSyncer (checkResourceExist : Resource → Bool) : List Resource :=
  [.pod, .node, .service, .endpoint, .configMap, .secret, .namespace, .event] ++
    [Resource.nodeLease, .networkPolicy, .csiDriver, .csiNode, .runtimeClass, .csr].filter
      checkResourceExist

/-- What the informers hold when they have synced. -/
structure Informers (O : Type) where
  checkResourceExist : Resource → Bool
  indexer : Resource → Indexer O

/-- Go's `RefreshStorage`. -/
def refreshStorage (inf : Informers O) (s : EdgehubStorage O B) : EdgehubStorage O B :=
  let indexer := GoMap.ofList
    ((registerSyncer inf.checkResourceExist).map fun r => (r.name, inf.indexer r))
  (EdgehubStorage.mergeDelete { s with cache := indexer }).2

/-- The k3s requests that are answered from the store when the master is not reachable. -/
inductive CertRequest where
  | config
  | file (requestURI : String)
  | key (requestURI : String)
  | version
  deriving DecidableEq, Repr

/-- The key of a request in the store, under the type `cert`. -/
def CertRequest.storeKey : CertRequest → String
  | config => "config"
  | file requestURI => requestURI
  | key requestURI => requestURI
  | version => "version"

/-- The hub.  `answered` are the k3s requests whose handlers have passed on an answer of the master and
not stored it yet. -/
structure Hub (O B : Type) where
  lb : LoadBalancer
  loop : LoopPhase
  stopChan : StopChan
  store : EdgehubStorage O B
  answered : List (CertRequest × B)

/-- The moves of the hub. -/
inductive Action (O B : Type) where
  | healthCheck (dials : List Bool)
  | handOver
  | setRemoteEnable
  | handleSignal
  | startSyncer (outcome : Option (Informers O))
  | certRequest (req : CertRequest) (answer : Except String B)
  | storeAnswer (i : ℕ)
  | mirror (r : Resource) (key : String) (data : Option B)

namespace Hub

/-- A hub that has just been started on a database. -/
def init (c : Codec O B) (db : GoMap String B) : Hub O B :=
  ⟨⟨false, .idle⟩, .waiting, .nil, newEdgehubStore c db, []⟩

/-- What a k3s handler answers, where `answer` is what the master would. -/
def certResponse (h : Hub O B) (req : CertRequest) (answer : Except String B) : Except String B :=
  if !h.lb.remoteEnable then levelDBGet h.store.levelDB "cert" req.storeKey else answer

variable (c : Codec O B)

/-- What the loop does with a signal, up to `StartSyncer`. -/
def handleSignal (h : Hub O B) : Bool → Hub O B
  | true => { h with loop := .starting, store := { h.store with remoteEnable := true } }
  | false =>
      match stopSyncer h.stopChan with
      | .error _ => { h with loop := .waiting }
      | .ok chan =>
          { h with loop := .waiting, stopChan := chan, store := { h.store with remoteEnable := false } }

/-- `StartSyncer` in the loop: it makes a new channel before anything can fail, and a failed start is
stopped. -/
def startSyncer (h : Hub O B) : Option (Informers O) → Hub O B
  | some inf => { h with loop := .waiting, stopChan := .opened, store := refreshStorage inf h.store }
  | none => { h with loop := .waiting, stopChan := (stopSyncer .opened).toOption.getD .opened }

/-- A k3s handler up to its response: with the master reachable, an answer is to be stored. -/
def certRequest (h : Hub O B) (req : CertRequest) (answer : Except String B) : Hub O B :=
  if !h.lb.remoteEnable then h
  else match answer with
    | .error _ => h
    | .ok data => { h with answered := h.answered ++ [(req, data)] }

/-- One move. -/
def step (h : Hub O B) : Action O B → Option (Hub O B)
  | .healthCheck dials =>
      match h.lb.phase with
      | .idle => some { h with lb := h.lb.healthCheck dials }
      | _ => none
  | .handOver =>
      match h.lb.phase, h.loop with
      | .sending true, .waiting =>
          some { h with lb := { h.lb with phase := .sent }, loop := .received true }
      | .sending false, .waiting =>
          some { h with lb := { h.lb with phase := .idle }, loop := .received false }
      | _, _ => none
  | .setRemoteEnable =>
      match h.lb.phase with
      | .sent => some { h with lb := ⟨true, .idle⟩ }
      | _ => none
  | .handleSignal =>
      match h.loop with
      | .received isRemoteEnable => some (h.handleSignal isRemoteEnable)
      | _ => none
  | .startSyncer outcome =>
      match h.loop with
      | .starting => some (h.startSyncer outcome)
      | _ => none
  | .certRequest req answer => some (h.certRequest req answer)
  | .storeAnswer i =>
      match h.answered[i]? with
      | some (req, data) =>
          some { h with
            store := h.store.update c "cert" req.storeKey data, answered := h.answered.eraseIdx i }
      | none => none
  | .mirror r key (some data) => some { h with store := h.store.update c r.name key data }
  | .mirror r key none => some { h with store := h.store.delete c r.name key }

/-- What each move needs, and what it makes of the hub. -/
inductive Transition (h : Hub O B) : Action O B → Hub O B → Prop where
  | healthCheck {dials : List Bool} (hphase : h.lb.phase = .idle) :
      Transition h (.healthCheck dials) { h with lb := h.lb.healthCheck dials }
  | handOverReady (hphase : h.lb.phase = .sending true) (hloop : h.loop = .waiting) :
      Transition h .handOver { h with lb := { h.lb with phase := .sent }, loop := .received true }
  | handOverNotReady (hphase : h.lb.phase = .sending false) (hloop : h.loop = .waiting) :
      Transition h .handOver { h with lb := { h.lb with phase := .idle }, loop := .received false }
  | setRemoteEnable (hphase : h.lb.phase = .sent) :
      Transition h .setRemoteEnable { h with lb := ⟨true, .idle⟩ }
  | handleSignal {signal : Bool} (hloop : h.loop = .received signal) :
      Transition h .handleSignal (h.handleSignal signal)
  | startSyncer {outcome : Option (Informers O)} (hloop : h.loop = .starting) :
      Transition h (.startSyncer outcome) (h.startSyncer outcome)
  | certRequest {req : CertRequest} {answer : Except String B} :
      Transition h (.certRequest req answer) (h.certRequest req answer)
  | storeAnswer {i : ℕ} {req : CertRequest} {data : B} (hi : h.answered[i]? = some (req, data)) :
      Transition h (.storeAnswer i) { h with
        store := h.store.update c "cert" req.storeKey data, answered := h.answered.eraseIdx i }
  | mirrorUpdate {r : Resource} {key : String} {data : B} :
      Transition h (.mirror r key (some data)) { h with store := h.store.update c r.name key data }
  | mirrorDelete {r : Resource} {key : String} :
      Transition h (.mirror r key none) { h with store := h.store.delete c r.name key }

variable {c} in
theorem transition_of_step {h h' : Hub O B} {a : Action O B} (hstep : h.step c a = some h') :
    Transition c h a h' := by
  unfold step at hstep
  split at hstep
  · split at hstep
    · cases hstep
      exact .healthCheck ‹_›
    · cases hstep
  · split at hstep
    · cases hstep
      exact .handOverReady ‹_› ‹_›
    · cases hstep
      exact .handOverNotReady ‹_› ‹_›
    · cases hstep
  · split at hstep
    · cases hstep
      exact .setRemoteEnable ‹_›
    · cases hstep
  · split at hstep
    · cases hstep
      exact .handleSignal ‹_›
    · cases hstep
  · split at hstep
    · cases hstep
      exact .startSyncer ‹_›
    · cases hstep
  · cases hstep
    exact .certRequest
  · split at hstep
    · cases hstep
      exact .storeAnswer ‹_›
    · cases hstep
  · cases hstep
    exact .mirrorUpdate
  · cases hstep
    exact .mirrorDelete

/-- A k3s request leaves everything but the answers that are to be stored. -/
theorem certRequest_eq (h : Hub O B) (req : CertRequest) (answer : Except String B) :
    ∃ l, h.certRequest req answer = { h with answered := l } := by
  unfold certRequest
  split
  · exact ⟨_, rfl⟩
  · split
    · exact ⟨_, rfl⟩
    · exact ⟨_, rfl⟩

/-- The loop touches the load balancer in no case, and the database only when the syncers start. -/
theorem frame_handleSignal (h : Hub O B) (signal : Bool) :
    (h.handleSignal signal).lb = h.lb ∧ (h.handleSignal signal).store.levelDB = h.store.levelDB := by
  unfold handleSignal
  split
  · exact ⟨rfl, rfl⟩
  · split
    · exact ⟨rfl, rfl⟩
    · exact ⟨rfl, rfl⟩

theorem lb_startSyncer (h : Hub O B) (outcome : Option (Informers O)) :
    (h.startSyncer outcome).lb = h.lb := by
  cases outcome <;> rfl

/-- No signal is on its way, and the loop is through with the last one. -/
def Settled (h : Hub O B) : Prop := h.lb.phase = .idle ∧ h.loop = .waiting

end Hub

/-! ## The two flags -/

/-- Whether the last health check of a run reached a server. -/
def lastHealth (as : List (Action O B)) : Bool :=
  as.foldl (fun last a => match a with
    | .healthCheck dials => dials.any id
    | _ => last) false

/-- Whether the last start of the syncers in a run succeeded. -/
def lastStart (as : List (Action O B)) : Option Bool :=
  as.foldl (fun last a => match a with
    | .startSyncer outcome => some outcome.isSome
    | _ => last) none

/-- The last signal that was handed over, in terms of where the load balancer is. -/
def LoadBalancer.handed (lb : LoadBalancer) : Bool :=
  match lb.phase with
  | .idle => lb.remoteEnable
  | .sending signal => !signal
  | .sent => true

/-- The load balancer follows the health checks. -/
def LoadBalancer.Follows (lb : LoadBalancer) (healthy : Bool) : Prop :=
  match lb.phase with
  | .idle => lb.remoteEnable = healthy
  | .sending signal => lb.remoteEnable = false ∧ healthy = signal
  | .sent => lb.remoteEnable = false ∧ healthy = true

theorem handed_healthCheck {lb : LoadBalancer} (h : lb.phase = .idle) (dials : List Bool) :
    (lb.healthCheck dials).handed = lb.handed := by
  rcases lb with ⟨enable, phase⟩
  obtain rfl : phase = .idle := h
  cases enable <;> cases hd : dials.any id <;>
    simp [LoadBalancer.healthCheck, LoadBalancer.sendSignalToSyncer, LoadBalancer.handed, hd]

theorem follows_healthCheck {lb : LoadBalancer} (h : lb.phase = .idle) (dials : List Bool) :
    (lb.healthCheck dials).Follows (dials.any id) := by
  rcases lb with ⟨enable, phase⟩
  obtain rfl : phase = .idle := h
  cases enable <;> cases hd : dials.any id <;>
    simp [LoadBalancer.healthCheck, LoadBalancer.sendSignalToSyncer, LoadBalancer.Follows, hd]

namespace Hub

/-- The syncers were started, successfully or not, and not stopped by a signal since. -/
def Started (start : Option Bool) (h : Hub O B) : Prop :=
  h.store.remoteEnable = true ∧ ∃ ok, start = some ok ∧ h.stopChan = if ok then .opened else .closed

/-- There is nothing to stop, and the store's flag is on only if the last start failed. -/
def Stopped (start : Option Bool) (h : Hub O B) : Prop :=
  h.store.remoteEnable = decide (start = some false) ∧ h.stopChan ≠ .opened

/-- Where the syncers are, from the loop, the last signal handed over and the last start. -/
def Tracks (start : Option Bool) (h : Hub O B) : Prop :=
  match h.loop with
  | .waiting => if h.lb.handed then h.Started start else h.Stopped start
  | .received true => h.lb.handed = true
  | .received false => h.lb.handed = false ∧ h.Started start
  | .starting => h.lb.handed = true ∧ h.store.remoteEnable = true

/-- Both flags, in terms of the actions so far. -/
def Explained (as : List (Action O B)) (h : Hub O B) : Prop :=
  h.lb.Follows (lastHealth as) ∧ h.Tracks (lastStart as)

theorem remoteEnable_refreshStorage (inf : Informers O) (s : EdgehubStorage O B) :
    (refreshStorage inf s).remoteEnable = s.remoteEnable := by
  unfold refreshStorage EdgehubStorage.mergeDelete
  dsimp only
  split <;> rfl

/-- Only the flag of the store matters. -/
theorem Tracks.of_store {start : Option Bool} {h : Hub O B} {s : EdgehubStorage O B}
    (ht : h.Tracks start) (hs : s.remoteEnable = h.store.remoteEnable) (l : List (CertRequest × B)) :
    ({ h with store := s, answered := l } : Hub O B).Tracks start := by
  unfold Tracks Started Stopped at ht ⊢
  dsimp only
  rw [hs]
  exact ht

theorem tracks_handleSignal {start : Option Bool} {h : Hub O B} {signal : Bool}
    (ht : h.Tracks start) (hloop : h.loop = .received signal) :
    (h.handleSignal signal).Tracks start := by
  unfold Tracks at ht
  rw [hloop] at ht
  cases signal with
  | true => exact ⟨ht, rfl⟩
  | false =>
      obtain ⟨hhanded, henable, ok, rfl, hchan⟩ := ht
      cases ok with
      | true =>
          simp only [if_true] at hchan
          simp [handleSignal, stopSyncer, hchan, Tracks, hhanded, Stopped]
      | false =>
          -- the failed start was stopped already, and the loop leaves the flag alone
          simp only [Bool.false_eq_true, if_false] at hchan
          simp [handleSignal, stopSyncer, hchan, Tracks, hhanded, Stopped, henable]

theorem tracks_startSyncer {start : Option Bool} {h : Hub O B} (outcome : Option (Informers O))
    (ht : h.Tracks start) (hloop : h.loop = .starting) :
    (h.startSyncer outcome).Tracks (some outcome.isSome) := by
  unfold Tracks at ht
  rw [hloop] at ht
  obtain ⟨hhanded, henable⟩ := ht
  rcases outcome with _ | inf
  · simp [startSyncer, stopSyncer, Tracks, hhanded, Started, henable, Except.toOption]
  · simp [startSyncer, Tracks, hhanded, Started, henable, remoteEnable_refreshStorage]

theorem lastHealth_append (as : List (Action O B)) (a : Action O B) :
    lastHealth (as ++ [a]) = match a with
      | .healthCheck dials => dials.any id
      | _ => lastHealth as := by
  simp only [lastHealth, List.foldl_append, List.foldl_cons, List.foldl_nil]

theorem lastStart_append (as : List (Action O B)) (a : Action O B) :
    lastStart (as ++ [a]) = match a with
      | .startSyncer outcome => some outcome.isSome
      | _ => lastStart as := by
  simp only [lastStart, List.foldl_append, List.foldl_cons, List.foldl_nil]

/-- The load balancer takes a step that hands nothing over. -/
theorem Tracks.of_handed {start : Option Bool} {h : Hub O B} {lb : LoadBalancer} (ht : h.Tracks start)
    (hlb : lb.handed = h.lb.handed) : ({ h with lb := lb } : Hub O B).Tracks start := by
  unfold Tracks Started Stopped at ht ⊢
  dsimp only
  rw [hlb]
  exact ht

theorem explained_step (c : Codec O B) {as : List (Action O B)} {h h' : Hub O B} {a : Action O B}
    (he : h.Explained as) (hstep : h.step c a = some h') : h'.Explained (as ++ [a]) := by
  obtain ⟨hlb, htracks⟩ := he
  unfold Explained
  rw [lastHealth_append, lastStart_append]
  cases transition_of_step hstep with
  | healthCheck hphase =>
      exact ⟨follows_healthCheck hphase _, htracks.of_handed (handed_healthCheck hphase _)⟩
  | handOverReady hphase hloop =>
      simp only [LoadBalancer.Follows, hphase] at hlb
      exact ⟨hlb, rfl⟩
  | handOverNotReady hphase hloop =>
      -- `false` is only sent after `true`, so the loop has started the syncers before
      simp only [LoadBalancer.Follows, hphase] at hlb
      have hstarted : h.Started (lastStart as) := by
        simpa [Tracks, hloop, LoadBalancer.handed, hphase] using htracks
      exact ⟨hlb.1.trans hlb.2.symm, hlb.1, hstarted⟩
  | setRemoteEnable hphase =>
      simp only [LoadBalancer.Follows, hphase] at hlb
      exact ⟨hlb.2.symm, htracks.of_handed (by simp [LoadBalancer.handed, hphase])⟩
  | handleSignal hloop =>
      refine ⟨?_, tracks_handleSignal htracks hloop⟩
      rw [(frame_handleSignal h _).1]
      exact hlb
  | startSyncer hloop =>
      refine ⟨?_, tracks_startSyncer _ htracks hloop⟩
      rw [lb_startSyncer]
      exact hlb
  | @certRequest req answer =>
      obtain ⟨l, hl⟩ := h.certRequest_eq req answer
      rw [hl]
      exact ⟨hlb, htracks.of_store rfl l⟩
  | storeAnswer hi => exact ⟨hlb, htracks.of_store rfl _⟩
  | mirrorUpdate => exact ⟨hlb, htracks.of_store rfl _⟩
  | mirrorDelete => exact ⟨hlb, htracks.of_store rfl _⟩

/-- The state of a hub after any run. -/
theorem explained_run (c : Codec O B) (db : GoMap String B) {as : List (Action O B)} {h : Hub O B}
    (hrun : runSteps (step c) (init c db) as = some h) : h.Explained as := by
  have hinit : (init c db).Explained ([] : List (Action O B)) := by
    refine ⟨rfl, ?_⟩
    simp [Tracks, init, LoadBalancer.handed, Stopped, newEdgehubStore, lastStart]
  exact runSteps_history (fun he hstep => explained_step c he hstep) hinit hrun

/-- For every run, with any health-check results and any successes and failures of `StartSyncer`: once
the signals are consumed, the store and the load balancer agree whether the master is reachable exactly
when the last health check reached a server or the last start of the syncers, if there was one, did not
fail. -/
theorem remoteEnable_agree_iff (c : Codec O B) (db : GoMap String B) {as : List (Action O B)}
    {h : Hub O B} (hrun : runSteps (step c) (init c db) as = some h) (hsettled : h.Settled) :
    h.store.remoteEnable = h.lb.remoteEnable ↔
      lastHealth as = true ∨ lastStart as ≠ some false := by
  obtain ⟨hphase, hloop⟩ := hsettled
  obtain ⟨hlb, htracks⟩ := explained_run c db hrun
  simp only [LoadBalancer.Follows, hphase] at hlb
  simp only [Tracks, hloop, LoadBalancer.handed, hphase, hlb] at htracks
  rw [hlb]
  by_cases hhealth : lastHealth as = true
  · rw [if_pos hhealth] at htracks
    simp [hhealth, htracks.1]
  · rw [if_neg hhealth] at htracks
    simp only [Bool.not_eq_true] at hhealth
    rw [htracks.1, hhealth]
    simp

/-- The master is reached, the syncers are started with some outcome, and the master is lost. -/
def reachThenLose (outcome : Option (Informers (String × String))) :
    List (Action (String × String) (String × String)) :=
  [.healthCheck [true], .handOver, .setRemoteEnable, .handleSignal, .startSyncer outcome,
    .healthCheck [false], .handOver, .handleSignal]

/-- When the syncers fail to start, the store goes on as if the master were reachable. -/
theorem failed_start_keeps_remoteEnable :
    ∃ h, runSteps (step plainCodec) (init plainCodec ∅) (reachThenLose none) = some h ∧
      h.Settled ∧ h.store.remoteEnable = true ∧ h.lb.remoteEnable = false :=
  ⟨_, rfl, ⟨rfl, rfl⟩, rfl, rfl⟩

/-- When they start, the flags agree. -/
theorem remoteEnable_agree_after_start :
    ∃ h, runSteps (step plainCodec) (init plainCodec ∅)
        (reachThenLose (some ⟨fun _ => false, fun _ => ∅⟩)) = some h ∧
      h.Settled ∧ h.store.remoteEnable = h.lb.remoteEnable := by
  obtain ⟨h, hrun, hsettled⟩ : ∃ h, runSteps (step plainCodec) (init plainCodec ∅)
      (reachThenLose (some ⟨fun _ => false, fun _ => ∅⟩)) = some h ∧ h.Settled := ⟨_, rfl, rfl, rfl⟩
  exact ⟨h, hrun, hsettled,
    (remoteEnable_agree_iff plainCodec ∅ hrun hsettled).mpr (Or.inr (by decide))⟩

end Hub

end OteStack.EdgeHub
