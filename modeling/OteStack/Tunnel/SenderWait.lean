/-
# OteStack.Tunnel.SenderWait — when the sender of a controller tunnel waits for nothing.

A sender whose write has failed sets the health flag to false and waits until a reconnect has set it back.
Only the reader reconnects, and only after a failed read.  So the flag must not be set while the current
connection is in service: while it works and no reconnect is under way.  But the sender sets it after every
failed write, also if the write has only run into its deadline; and it sets it outside the lock, so the reader
may have noticed the broken connection, dialled and set the flag to true between the failed write and the
assignment.  The sender then waits for a wake-up that only another reconnect would send, while the connection
works and the reader reads from it.

`sender_stranded_by_flag` says that the sender is never stranded as long as it sets the flag for connections
that are not in service, and that otherwise its own next moves strand it, unless messages fill the channel
meanwhile.  `stranded_until_error` says that it then waits until the connection breaks.
-/
import OteStack.Tunnel.ControllerTunnel

namespace OteStack

open OteStack.Lib (runSteps runSteps_cons runSteps_invariant_of_meet StepsMeet forall_prefix_append_iff
  forall_prefix_iff_of_lost stepsMeet_of_forall)

namespace ControllerTunnel

variable {M : Type} {s s' : ControllerTunnel M} {a : TunnelAction M}

/-! ## Stranded -/

/-- The sender is in `Wait`. -/
def isWaiting : SenderPhase M → Bool
  | .waiting _ => true
  | _ => false

/-- The sender waits for the flag, while the connection works and the reader reads from it. -/
def Stranded (s : ControllerTunnel M) : Prop :=
  isWaiting s.sender = true ∧ s.connectionHealth = false ∧ s.up = true ∧ s.reader = .reading

instance (s : ControllerTunnel M) : Decidable s.Stranded := inferInstanceAs (Decidable (_ ∧ _))

/-- The last reconnect is complete, with the flag set to true by it. -/
def settled : ReaderPhase → Bool
  | .reading => true
  | .signalling again => !again
  | _ => false

/-- The current connection works and nobody is replacing it. -/
def InService (s : ControllerTunnel M) : Prop := s.up = true ∧ settled s.reader = true

/-- The channel has no room. -/
def Full (s : ControllerTunnel M) : Prop := s.sendChan.length = controllerSendChanBufferSize

/-- The move sets the flag to false for a write of the sender that has failed. -/
def setsFlag : SenderPhase M → TunnelAction M → Bool
  | .failed _ _, .markUnhealthy => true
  | .resending _ _, .write false => true
  | _, _ => false

/-- The sender sets the flag to false only for a connection that is not in service, or when it is going to
throw the message away. -/
def FlagsBroken (s : ControllerTunnel M) (a : TunnelAction M) : Prop :=
  setsFlag s.sender a = true → s.InService → s.Full

/-! ## The flag set for a broken connection -/

/-- The sender has set the flag, or has been woken, and is on its way to the loop test. -/
def isPending : SenderPhase M → Bool
  | .locking _ | .checking _ => true
  | _ => false

/-- The sender is in `Wait`, or has been woken and has not looked at the flag again. -/
def isResting : SenderPhase M → Bool
  | .waiting _ | .woken _ => true
  | _ => false

/-- A sender that looks for the flag and would find it false has no connection in service before it; before
the loop test there may be one if the channel is full. -/
structure Aware (s : ControllerTunnel M) : Prop where
  pending : isPending s.sender = true → s.connectionHealth = false → s.InService → s.Full
  resting : isResting s.sender = true → s.connectionHealth = false → ¬ s.InService

@[simp] theorem isPending_wake (p : SenderPhase M) : isPending (wake p) = isPending p := by
  cases p <;> rfl

@[simp] theorem isResting_wake (p : SenderPhase M) : isResting (wake p) = isResting p := by
  cases p <;> rfl

theorem aware_new (addr : String) : (new addr : ControllerTunnel M).Aware :=
  ⟨by simp [new, isPending], by simp [new, isResting]⟩

/-- With the sender elsewhere there is nothing to be aware of. -/
theorem aware_of_sender (hpending : isPending s.sender = false) (hresting : isResting s.sender = false) :
    s.Aware := by
  refine ⟨fun h => ?_, fun h => ?_⟩
  · rw [hpending] at h
    cases h
  · rw [hresting] at h
    cases h

theorem aware_of_health (h : s.connectionHealth = true) : s.Aware := by
  refine ⟨fun _ hhealth => ?_, fun _ hhealth => ?_⟩
  · rw [h] at hhealth
    cases hhealth
  · rw [h] at hhealth
    cases hhealth

theorem aware_of_not_inService (h : ¬ s.InService) : s.Aware :=
  ⟨fun _ _ hsvc => absurd hsvc h, fun _ _ => h⟩

theorem settled_iff {p : ReaderPhase} : settled p = true ↔ p = .reading ∨ p = .signalling false := by
  cases p <;> simp [settled]

theorem not_inService_of_reader (h : settled s.reader = false) : ¬ s.InService := by
  rintro ⟨-, hsettled⟩
  rw [h] at hsettled
  cases hsettled

/-- Every move keeps the sender aware, if those that set the flag do so for a broken connection. -/
theorem aware_step (h : s.Aware) (hok : s.FlagsBroken a) (hstep : s.step a = some s') : s'.Aware := by
  cases transition_of_step hstep with
  | offer hroom =>
      refine ⟨fun hpending hhealth hsvc => ?_, h.resting⟩
      exact absurd (h.pending hpending hhealth hsvc) (Nat.ne_of_lt hroom)
  | breaks => exact aware_of_not_inService fun hsvc => Bool.false_ne_true hsvc.1
  | redirected _ => exact ⟨h.pending, h.resting⟩
  | started _ => exact aware_of_health rfl
  | startFailed _ | dialFailed _ | dialed _ | readError _ | close _ | lockReader _ _ =>
      exact aware_of_not_inService (not_inService_of_reader rfl)
  | receive _ => exact h
  | recovered _ => exact aware_of_health rfl
  | @signal again hr =>
      cases again with
      | true => exact aware_of_not_inService (not_inService_of_reader rfl)
      | false =>
          -- the connection was in service before `Signal` if it is afterwards
          have hsettled : settled s.reader = true := by
            rw [hr]
            rfl
          refine ⟨fun hpending hhealth hsvc => ?_, fun hresting hhealth hsvc => ?_⟩
          · rw [isPending_wake] at hpending
            exact h.pending hpending hhealth ⟨hsvc.1, hsettled⟩
          · rw [isResting_wake] at hresting
            exact h.resting hresting hhealth ⟨hsvc.1, hsettled⟩
  | @take marshals _ _ _ _ => cases marshals <;> exact aware_of_sender rfl rfl
  | send _ | written _ _ | writeFailed _ | resend _ _ | throw _ _ _ => exact aware_of_sender rfl rfl
  | resendFailed hs =>
      refine ⟨fun _ _ hsvc => hok ?_ hsvc, by simp [isResting]⟩
      rw [hs]
      rfl
  | markUnhealthy hs =>
      refine ⟨fun _ _ hsvc => hok ?_ hsvc, by simp [isResting]⟩
      rw [hs]
      rfl
  | lockSender hs _ =>
      refine ⟨fun _ hhealth hsvc => ?_, by simp [isResting]⟩
      rcases hs with hs | hs
      · exact h.pending (by rw [hs]; rfl) hhealth hsvc
      · exact absurd hsvc (h.resting (by rw [hs]; rfl) hhealth)
  | wait hs _ hroom =>
      refine ⟨by simp [isPending], fun _ hhealth hsvc => ?_⟩
      exact hroom (h.pending (by rw [hs]; rfl) hhealth hsvc)

theorem Aware.not_stranded (h : s.Aware) : ¬ s.Stranded := by
  rintro ⟨hwaiting, hhealth, hup, hreader⟩
  refine h.resting ?_ hhealth ⟨hup, by rw [hreader]; rfl⟩
  cases hs : s.sender with
  | waiting data => rfl
  | _ =>
      rw [hs] at hwaiting
      cases hwaiting

/-! ## The flag set for a connection in service -/

/-- Moves of the two goroutines that need neither the network nor a message: the sender takes the lock and
looks at the flag, the reader signals. -/
def Settling (as : List (TunnelAction M)) : Prop := ∀ a ∈ as, a = .signal ∨ a = .lockSender ∨ a = .check

theorem aware_of_settling {as : List (TunnelAction M)} (has : Settling as) (h : s.Aware)
    (hrun : runSteps step s as = some s') : s'.Aware := by
  have hmeet : StepsMeet step FlagsBroken s as := by
    refine stepsMeet_of_forall (fun a ha s hsets => ?_) s
    rcases has a ha with rfl | rfl | rfl <;> cases hp : s.sender <;> simp [hp, setsFlag] at hsets
  exact runSteps_invariant_of_meet (fun h hok hstep => aware_step h hok hstep) h hmeet hrun

/-- A move that sets the flag leads to the lock of `recoverAndReSend`. -/
theorem step_setsFlag (hsets : setsFlag s.sender a = true) :
    ∃ data, s.step a = some { s with connectionHealth := false, sender := .locking data } := by
  unfold setsFlag at hsets
  split at hsets
  · rename_i data conn hs
    exact ⟨data, by simp only [step, hs]⟩
  · rename_i data conn hs
    exact ⟨data, by simp [step, writeStep, hs]⟩
  · cases hsets

/-- From the lock on, with the reader reading, the sender comes to wait. -/
theorem run_lock_check {data : M} (hsender : s.sender = .locking data) (hhealth : s.connectionHealth = false)
    (hup : s.up = true) (hreader : s.reader = .reading) (hroom : ¬ s.Full) :
    ∃ t, runSteps step s [.lockSender, .check] = some t ∧ t.Stranded := by
  have hlock : s.step .lockSender = some { s with sender := .checking data } := by
    simp [step, hsender, unlocked, hreader]
  have hcheck : step { s with sender := .checking data } .check = some { s with sender := .waiting data } := by
    simp only [step, checkStep, hhealth]
    exact if_neg hroom
  refine ⟨_, runSteps_cons.mpr ⟨_, hlock, runSteps_cons.mpr ⟨_, hcheck, rfl⟩⟩, ?_⟩
  exact ⟨rfl, hhealth, hup, hreader⟩

/-- A sender that sets the flag for a connection in service is stranded by the moves that follow. -/
theorem stranded_of_setsFlag (hbad : ¬ s.FlagsBroken a) (hstep : s.step a = some s') :
    ∃ as t, Settling as ∧ runSteps step s' as = some t ∧ t.Stranded := by
  simp only [FlagsBroken, Classical.not_imp] at hbad
  obtain ⟨hsets, ⟨hup, hsettled⟩, hroom⟩ := hbad
  obtain ⟨data, hflag⟩ := step_setsFlag hsets
  obtain rfl := Option.some.inj (hflag.symm.trans hstep)
  rcases settled_iff.mp hsettled with hr | hr
  · obtain ⟨t, ht, hstranded⟩ := run_lock_check (s := { s with
      connectionHealth := false, sender := .locking data }) rfl rfl hup hr hroom
    exact ⟨_, t, by simp [Settling], ht, hstranded⟩
  · -- the pending signal finds nobody waiting
    have hsignal : step { s with connectionHealth := false, sender := .locking data } .signal =
        some { s with connectionHealth := false, sender := .locking data, reader := .reading } := by
      simp [step, hr, wake]
    obtain ⟨t, ht, hstranded⟩ := run_lock_check (s := { s with
      connectionHealth := false, sender := .locking data, reader := .reading }) rfl rfl hup rfl hroom
    refine ⟨_, t, ?_, runSteps_cons.mpr ⟨_, hsignal, ht⟩, hstranded⟩
    simp [Settling]

/-- Along a run from the start in which the sender sets the flag to false only for connections that are not in
service, or with the channel full, it is never stranded.  In every other run, the moves that follow one that
sets the flag for a connection in service can strand it, with no error, no reconnect and no message between
them. -/
theorem sender_stranded_by_flag (addr : String) (as : List (TunnelAction M)) :
    (StepsMeet step FlagsBroken (new addr) as →
      ∀ bs t, bs <+: as → runSteps step (new addr) bs = some t → ¬ t.Stranded) ∧
    (¬ StepsMeet step FlagsBroken (new addr) as →
      ∃ bs cs t, bs <+: as ∧ Settling cs ∧ runSteps step (new addr) (bs ++ cs) = some t ∧ t.Stranded) := by
  have hiff : (∀ bs cs t, bs <+: as → Settling cs → runSteps step (new addr) (bs ++ cs) = some t →
      ¬ t.Stranded) ↔ StepsMeet step FlagsBroken (new addr) as := by
    refine forall_prefix_append_iff.trans (forall_prefix_iff_of_lost (I := Aware)
      (fun h hok hstep => aware_step h hok hstep) (fun _ hbad hstep hF => ?_) (fun _ hstep hsets => ?_)
      (fun h as t has hrun => (aware_of_settling has h hrun).not_stranded) (aware_new addr))
    · obtain ⟨cs, t, hcs, hrun, hstranded⟩ := stranded_of_setsFlag hbad hstep
      exact hF cs t hcs hrun hstranded
    · obtain ⟨data, hflag⟩ := step_setsFlag hsets
      rw [hflag] at hstep
      cases hstep
  refine ⟨fun hmeet bs t hbs hrun => ?_, fun hnot => ?_⟩
  · exact hiff.mpr hmeet bs [] t hbs (by simp [Settling]) (by rwa [List.append_nil])
  · by_contra hnone
    refine hnot (hiff.mp fun bs cs t hbs hcs hrun hstranded => ?_)
    exact hnone ⟨bs, cs, t, hbs, hcs, hrun, hstranded⟩

/-- The write fails, the reader replaces the connection, and only then the flag is set. -/
def markedTooLate : List (TunnelAction ℕ) :=
  [.dial .connected, .offer 7, .take true, .send, .breaks, .write false, .readError, .close, .lockReader,
    .dial .connected, .recovered, .signal, .markUnhealthy, .lockSender, .check]

/-- The sender waits although the new connection works and the reader reads from it. -/
theorem marked_too_late_strands :
    (runSteps step (new "a") markedTooLate).map (fun t => decide t.Stranded) = some true := by
  decide

/-- A write that runs into its deadline strands the sender on the connection it was written to. -/
example : (runSteps step (new "a") [.dial .connected, .offer 7, .take true, .send, .write false,
    .markUnhealthy, .lockSender, .check]).map (fun t => decide t.Stranded) = some true := by
  decide

/-- A write fails on a connection that has broken and the flag is set at once; the sender waits for the
reconnect and resends. -/
example : (runSteps step (new "a") [.dial .connected, .offer 7, .take true, .send, .breaks, .write false,
    .markUnhealthy, .lockSender, .check, .readError, .close, .lockReader, .dial .connected, .recovered, .signal,
    .lockSender, .check, .write true]).map (fun t => decide (t.sender = .receiving)) = some true := by
  decide

/-! ## No way out but another failure -/

/-- A stranded sender stays so until the connection breaks or a read fails. -/
theorem stranded_step (h : s.Stranded) (hbreaks : a ≠ .breaks) (hread : a ≠ .readError)
    (hstep : s.step a = some s') : s'.Stranded := by
  obtain ⟨hwaiting, hhealth, hup, hreader⟩ := h
  obtain ⟨data, hsender⟩ : ∃ data, s.sender = .waiting data := by
    cases hs : s.sender with
    | waiting data => exact ⟨data, rfl⟩
    | _ =>
        rw [hs] at hwaiting
        cases hwaiting
  cases transition_of_step hstep with
  | offer _ => exact ⟨hwaiting, hhealth, hup, hreader⟩
  | receive _ => exact ⟨hwaiting, hhealth, hup, hreader⟩
  | breaks => exact absurd rfl hbreaks
  | readError _ => exact absurd rfl hread
  | redirected hr => simp [hreader] at hr
  | written hs _ => simp [hsender] at hs
  | lockSender hs _ => simp [hsender] at hs
  | _ => simp_all

/-- However many messages are offered and received, the sender waits until the connection fails. -/
theorem stranded_until_error {as : List (TunnelAction M)} (h : s.Stranded) (hbreaks : .breaks ∉ as)
    (hread : .readError ∉ as) (hrun : runSteps step s as = some s') : s'.Stranded := by
  have hmeet : StepsMeet step (fun _ a => a ≠ TunnelAction.breaks ∧ a ≠ .readError) s as :=
    stepsMeet_of_forall (fun a ha _ => ⟨fun h => hbreaks (h ▸ ha), fun h => hread (h ▸ ha)⟩) s
  exact runSteps_invariant_of_meet (fun h hok hstep => stranded_step h hok.1 hok.2 hstep) h hmeet hrun

end ControllerTunnel

end OteStack
